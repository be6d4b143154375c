import Mathlib.Data.List.Forall2
import Waybill.Proofs.Order.Release

/-! The order of arrival does not matter to a merge. The identities come out in order whatever order they came in, and
a group whose members carry distinct numbers has one member that can lead it, so each group is released from the same
member or held back for the same reason, and the first group that cannot be merged is the same. Two runs over the same
messages therefore report the same and give the same, but for the stamps that the new messages take. -/
namespace Waybill

/-- The messages differ in their stamps at most. -/
structure Message.Matches {α : Type} (a b : Message α) : Prop where
  payload : a.payload = b.payload
  kind : a.kind = b.kind
  header : ∀ name, HeaderName.isReserved name = false → a.headers.get? name = b.headers.get? name

theorem Builder.build_matches {α : Type} [Payload α] (b : Builder Store α) (stamps others : Stamps) :
    (b.build stamps).1.message.Matches (b.build others).1.message := by
  cases changed : b.isModified with
  | true =>
    rw [build_of_modified changed, build_of_modified changed]
    refine ⟨rfl, rfl, fun name free => ?_⟩
    exact (b.made_header stamps.next free).trans (b.made_header others.next free).symm
  | false =>
    obtain ⟨m, derived, -, -⟩ := exists_base_of_unmodified changed
    rw [build_of_unmodified changed derived, build_of_unmodified changed derived]
    exact ⟨rfl, rfl, fun _ _ => rfl⟩

namespace Journal

variable {α β γ δ : Type}

/-- The same reports, and then the same error or related results. -/
structure Matches (R : α → β → Prop) (x : Journal α) (y : Journal β) : Prop where
  events : x.events = y.events
  outcome : (∃ e, x.outcome = .error e ∧ y.outcome = .error e) ∨
    ∃ a b, x.outcome = .ok a ∧ y.outcome = .ok b ∧ R a b

theorem Matches.pure {R : α → β → Prop} {a : α} {b : β} (related : R a b) :
    Matches R (Pure.pure a) (Pure.pure b) :=
  ⟨rfl, .inr ⟨a, b, rfl, rfl, related⟩⟩

theorem Matches.refl (x : Journal α) : Matches Eq x x := by
  refine ⟨rfl, ?_⟩
  cases outcome : x.outcome with
  | error e => exact .inl ⟨e, rfl, rfl⟩
  | ok a => exact .inr ⟨a, a, rfl, rfl, rfl⟩

theorem Matches.bind {R : α → β → Prop} {S : γ → δ → Prop} {x : Journal α} {y : Journal β} (first : Matches R x y)
    {f : α → Journal γ} {g : β → Journal δ} (rest : ∀ a b, R a b → Matches S (f a) (g b)) :
    Matches S (x >>= f) (y >>= g) := by
  rcases first.outcome with ⟨e, left, right⟩ | ⟨a, b, left, right, related⟩
  · refine ⟨?_, .inl ⟨e, outcome_bind_of_error left f, outcome_bind_of_error right g⟩⟩
    rw [events_bind_of_error left, events_bind_of_error right, first.events]
  · have next := rest a b related
    refine ⟨?_, ?_⟩
    · rw [events_bind_of_ok left, events_bind_of_ok right, first.events, next.events]
    · rw [outcome_bind_of_ok left, outcome_bind_of_ok right]
      exact next.outcome

end Journal

namespace Aggregate

theorem before_of_ne {a b : Option Int64} (differ : a ≠ b) (h : before b a = false) : before a b = true := by
  cases a with
  | none =>
    cases b with
    | none => exact absurd rfl differ
    | some n => rfl
  | some m =>
    cases b with
    | none => cases h
    | some n =>
      simp only [before, decide_eq_true_eq, decide_eq_false_iff_not] at h ⊢
      exact Int64.lt_of_le_of_ne (Int64.not_lt.1 h) fun same => differ (congrArg some same)

theorem before_asymm {a b : Option Int64} (h : before a b = true) : before b a = false := by
  cases back : before b a with
  | false => rfl
  | true =>
    have circle := before_trans h back
    cases a <;> simp [before, Int64.lt_irrefl] at circle

theorem Leads.least {first : Envelope} {members : List Envelope} (led : Leads first members) :
    ∀ m ∈ members, before m.headers.sequenceNumber first.headers.sequenceNumber = false := by
  obtain ⟨earlier, later, rfl, above, atLeast⟩ := led
  intro m member
  rcases List.mem_append.1 member with sooner | rest
  · exact before_asymm (above m sooner)
  · rcases List.mem_cons.1 rest with rfl | after
    · cases m.headers.sequenceNumber <;> simp [before, Int64.lt_irrefl]
    · exact atLeast m after

theorem leads_of_least {first : Envelope} {members : List Envelope} (member : first ∈ members)
    (distinct : (members.map fun m => m.headers.sequenceNumber).Nodup)
    (least : ∀ m ∈ members, before m.headers.sequenceNumber first.headers.sequenceNumber = false) :
    Leads first members := by
  obtain ⟨earlier, later, rfl⟩ := List.append_of_mem member
  refine ⟨earlier, later, rfl, fun m sooner => ?_, fun m after => least m (by simp [after])⟩
  rw [List.map_append, List.map_cons, List.nodup_append] at distinct
  have differ : m.headers.sequenceNumber ≠ first.headers.sequenceNumber :=
    distinct.2.2 _ (List.mem_map_of_mem sooner) _ List.mem_cons_self
  exact before_of_ne differ.symm (least m (by simp [sooner]))

theorem Leads.of_perm {first : Envelope} {members others : List Envelope} (perm : members.Perm others)
    (distinct : (members.map fun m => m.headers.sequenceNumber).Nodup) (led : Leads first members) :
    Leads first others := by
  refine leads_of_least (perm.mem_iff.1 led.mem) ((perm.map _).nodup_iff.1 distinct) fun m member => ?_
  exact led.least m (perm.mem_iff.2 member)

namespace Group

structure Reordered (g h : Group) : Prop where
  correlation : g.correlation = h.correlation
  perm : g.members.Perm h.members
  distinct : (g.members.map fun m => m.headers.sequenceNumber).Nodup

variable {g h : Group}

theorem Reordered.first? (same : g.Reordered h) : g.first? = h.first? := by
  refine Option.ext fun first => ?_
  rw [first?_eq_some_iff, first?_eq_some_iff]
  have back : (h.members.map fun m => m.headers.sequenceNumber).Nodup := (same.perm.map _).nodup_iff.1 same.distinct
  exact ⟨fun led => led.of_perm same.perm same.distinct, fun led => led.of_perm same.perm.symm back⟩

theorem Reordered.release (same : g.Reordered h) (stamps others : Stamps) :
    Journal.Matches (fun a b => List.Forall₂ Message.Matches (a.1.toList.map Built.message) (b.1.toList.map Built.message))
      (g.release stamps) (h.release others) := by
  have count : g.members.length = h.members.length := same.perm.length_eq
  have complete (first : Envelope) : g.isComplete first = h.isComplete first := by rw [isComplete, count, isComplete]
  have merged (first : Envelope) : g.merged first = h.merged first := by rw [Group.merged, count, Group.merged]
  unfold Group.release
  rw [same.first?]
  cases h.first? with
  | none => exact .pure .nil
  | some first =>
    simp only [complete, merged, count, same.correlation]
    split
    · refine (Journal.Matches.refl (h.merged first)).bind fun b _ one => ?_
      subst one
      refine (Journal.Matches.refl (Journal.note b.buildEvents)).bind fun _ _ _ => ?_
      exact .pure (.cons (b.build_matches stamps others) .nil)
    · exact (Journal.Matches.refl (Journal.note _)).bind fun _ _ _ => .pure .nil

end Group

theorem releaseAll_matches {gs hs : List Group} (same : List.Forall₂ Group.Reordered gs hs) (stamps others : Stamps) :
    Journal.Matches (fun a b => List.Forall₂ Message.Matches (a.1.map Built.message) (b.1.map Built.message))
      (releaseAll gs stamps) (releaseAll hs others) := by
  induction same generalizing stamps others with
  | nil => exact .pure .nil
  | cons first _ ih =>
    refine (first.release stamps others).bind fun a b released => ?_
    refine (ih a.2 b.2).bind fun more rest later => ?_
    refine .pure ?_
    simp only [List.map_append]
    exact List.rel_append released later

theorem ids_eq_of_perm {messages others : List Envelope} (perm : messages.Perm others) : ids messages = ids others :=
  ids_eq (ids_ascending others) fun x => by simp only [mem_ids, perm.mem_iff]

/-- Messages that arrive in another order are reported and merged in the same way, if in each group no two numbers
are equal. -/
theorem aggregate_matches_of_perm {messages others : List Envelope} (perm : messages.Perm others)
    (distinct : ∀ x, ((membersOf messages x).map fun m => m.headers.sequenceNumber).Nodup) (stamps fresh : Stamps) :
    Journal.Matches (fun a b => List.Forall₂ Message.Matches (a.1.map Built.message) (b.1.map Built.message))
      (aggregate messages stamps) (aggregate others fresh) := by
  refine releaseAll_matches ?_ stamps fresh
  rw [groups_eq_map_ids, groups_eq_map_ids, ids_eq_of_perm perm, List.forall₂_map_left_iff, List.forall₂_map_right_iff]
  exact List.forall₂_same.2 fun x _ => ⟨rfl, perm.filter _, distinct x⟩

theorem aggregate_matches_of_perm_reversed :
    let messages := [unitOf (.ofNumber 7) 11 2 2, unitOf (.ofNumber 3) 12 3 3, unitOf (.ofNumber 7) 10 1 2]
    messages.Perm messages.reverse ∧
      (∃ built last, (aggregate messages (.counting 0 20)).outcome = .ok ([built], last)) ∧
      Journal.Matches (fun a b => List.Forall₂ Message.Matches (a.1.map Built.message) (b.1.map Built.message))
        (aggregate messages (.counting 0 20)) (aggregate messages.reverse (.counting 5 90)) := by
  intro messages
  have distinct (x : MessageId) : ((membersOf messages x).map fun m => m.headers.sequenceNumber).Nodup :=
    List.Sublist.nodup (List.filter_sublist.map _) (by decide)
  have perm : messages.Perm messages.reverse := messages.reverse_perm.symm
  exact ⟨perm, ⟨_, _, rfl⟩, aggregate_matches_of_perm perm distinct _ _⟩

end Aggregate
end Waybill
