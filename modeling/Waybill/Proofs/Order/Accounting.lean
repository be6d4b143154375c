import Mathlib.Algebra.GroupWithZero.Nat
import Mathlib.Algebra.BigOperators.Group.List.Basic
import Waybill.Proofs.Builder.Outcome
import Waybill.Proofs.Order.Release

/-! Where the messages of a merge go. Those that are correlated to one identity are merged into one message or reported
as one group that is held back; those that are correlated to nothing, or to something that is no identity, take no
part. So what was merged and what is held back add up to the correlated messages. A merge fails only over a group that
has its count and is led by a message whose stack cannot be popped, and any such group makes it fail. -/
namespace Waybill

def Work.count : Work → Nat
  | .aggregated n => n
  | _ => 0

def Event.heldBack? : Event → Option (MessageId × Nat)
  | .incomplete x got _ => some (x, got)
  | _ => none

def Journal.heldBack {α : Type} (j : Journal α) : List (MessageId × Nat) := j.events.filterMap Event.heldBack?

namespace Journal

variable {α β : Type}

theorem heldBack_bind_of_ok {x : Journal α} {a : α} (done : x.outcome = .ok a) (f : α → Journal β) :
    (x >>= f).heldBack = x.heldBack ++ (f a).heldBack := by
  rw [heldBack, events_bind_of_ok done, List.filterMap_append]
  rfl

end Journal

namespace Builder

variable {α : Type}

theorem heldBack_of_plan {b : Builder Store α} {s : Step} {p : Plan} (planned : b.plan s = .ok p) :
    p.events.filterMap Event.heldBack? = [] := by
  cases s with
  | edit e =>
    cases planned
    rfl
  | push c n size =>
    simp only [plan, Plan.push] at planned
    split at planned
    · cases planned
      rfl
    · split at planned <;> cases planned
      rfl
  | pop =>
    simp only [plan, Plan.pop] at planned
    split at planned
    · cases planned
      rfl
    · split at planned <;> cases planned
      rfl

theorem heldBack_events (b : Builder Store α) (s : Step) : (b.events s).filterMap Event.heldBack? = [] := by
  rw [events]
  cases planned : b.plan s with
  | error e => rfl
  | ok p =>
    have writes : (p.edits.flatMap Store.events).filterMap Event.heldBack? = [] := by
      simp only [Store.events, List.filterMap_eq_nil_iff, List.mem_flatMap, List.mem_map]
      rintro _ ⟨e, -, name, -, rfl⟩
      rfl
    rw [List.filterMap_append, heldBack_of_plan planned]
    exact writes

theorem heldBack_buildEvents [Payload α] (b : Builder Store α) : b.buildEvents.filterMap Event.heldBack? = [] := by
  rw [buildEvents]
  cases b.reusable <;> rfl

end Builder

namespace Aggregate

section Reports

theorem Group.heldBack_release {g : Group} (peopled : g.members ≠ []) {stamps : Stamps}
    {result : Option (Built Work) × Stamps} (done : (g.release stamps).outcome = .ok result) :
    (g.release stamps).heldBack = if g.due then [] else [(g.correlation, g.members.length)] := by
  obtain ⟨first, -, led⟩ := Group.exists_first peopled
  have due : g.due = g.isComplete first := by rw [Group.due, led]; rfl
  unfold Group.release at done ⊢
  simp only [led] at done ⊢
  rw [due]
  split at done
  next complete =>
    obtain ⟨b, merged, -⟩ := Journal.exists_of_outcome_bind done
    rw [if_pos complete, if_pos complete, Journal.heldBack_bind_of_ok merged]
    have own : (g.merged first).heldBack = [] := Builder.heldBack_events _ .pop
    rw [own, Journal.heldBack_bind_of_ok rfl]
    exact congrArg (· ++ []) b.heldBack_buildEvents
  next incomplete =>
    rw [if_neg incomplete, if_neg incomplete]
    rfl

theorem heldBack_releaseAll {groups : List Group} (peopled : ∀ g ∈ groups, g.members ≠ []) {stamps : Stamps}
    {result : List (Built Work) × Stamps} (done : (releaseAll groups stamps).outcome = .ok result) :
    (releaseAll groups stamps).heldBack =
      (groups.filter fun g => !g.due).map fun g => (g.correlation, g.members.length) := by
  induction groups generalizing stamps result with
  | nil => rfl
  | cons g more ih =>
    obtain ⟨own, others⟩ := List.forall_mem_cons.1 peopled
    obtain ⟨⟨built?, next⟩, here, rest⟩ := Journal.exists_of_outcome_bind done
    obtain ⟨⟨built, last⟩, later, -⟩ := Journal.exists_of_outcome_bind rest
    rw [releaseAll, Journal.heldBack_bind_of_ok here, Journal.heldBack_bind_of_ok later,
      Group.heldBack_release own here, ih others later]
    cases due : g.due with
    | true =>
      rw [List.filter_cons_of_neg (by simp [due])]
      exact List.append_nil _
    | false =>
      rw [List.filter_cons_of_pos (by simp [due])]
      exact congrArg ((g.correlation, g.members.length) :: ·) (List.append_nil _)

end Reports

section Failure

/-- The group has its count, and the message that leads it has a stack that cannot be popped. -/
def Stuck (members : List Envelope) : Prop :=
  ∃ first, Leads first members ∧ Int64.ofNat members.length = first.headers.sequenceSize.getD 0 ∧
    ∃ stack, first.headers.get? HeaderName.sequenceDetails = some stack ∧ ∃ e, Sequence.pop stack = .error e

theorem Group.exists_merged_eq_error_iff {g : Group} {first : Envelope} :
    (∃ e, (g.merged first).outcome = .error e) ↔
      ∃ stack, first.headers.get? HeaderName.sequenceDetails = some stack ∧ ∃ e, Sequence.pop stack = .error e := by
  have stored : ((Builder.fromMessageWithPayload first (Work.aggregated g.members.length)).edit
      (.remove HeaderName.errorChannel)).header HeaderName.sequenceDetails =
      first.headers.get? HeaderName.sequenceDetails := by
    rw [Builder.header_remove, if_neg (by decide)]
    exact Builder.header_fromMessage first (by decide)
  have failed (e : SequenceError) : (g.merged first).outcome = .error e ↔
      ∃ stack, first.headers.get? HeaderName.sequenceDetails = some stack ∧ Sequence.pop stack = .error e := by
    rw [← stored]
    exact Builder.step_pop_eq_error_iff
  simp only [failed]
  exact ⟨fun ⟨e, stack, there, popped⟩ => ⟨stack, there, e, popped⟩,
    fun ⟨stack, there, e, popped⟩ => ⟨e, stack, there, popped⟩⟩

theorem Group.exists_release_eq_error_iff (g : Group) (stamps : Stamps) :
    (∃ e, (g.release stamps).outcome = .error e) ↔ Stuck g.members := by
  unfold Group.release
  cases led : g.first? with
  | none =>
    refine iff_of_false (by rintro ⟨e, failed⟩; cases failed) ?_
    rintro ⟨first, leads, -⟩
    rw [Group.first?_eq_some_iff.2 leads] at led
    cases led
  | some first =>
    have leads := Group.first?_eq_some_iff.1 led
    have only : Stuck g.members ↔ g.isComplete first = true ∧ ∃ e, (g.merged first).outcome = .error e := by
      rw [Group.exists_merged_eq_error_iff, Group.isComplete, beq_iff_eq]
      constructor
      · rintro ⟨other, also, counted, stuck⟩
        obtain rfl := leads.unique also
        exact ⟨counted, stuck⟩
      · rintro ⟨counted, stuck⟩
        exact ⟨first, leads, counted, stuck⟩
    rw [only]
    dsimp only
    split
    next complete =>
      rw [and_iff_right complete]
      cases merged : (g.merged first).outcome with
      | error e => simp [Journal.outcome_bind_of_error merged]
      | ok b => simp [Journal.outcome_bind_of_ok merged, Journal.outcome_note_bind, Journal.outcome_pure]
    next incomplete =>
      exact iff_of_false (by rintro ⟨e, failed⟩; cases failed) fun other => incomplete other.1

theorem exists_releaseAll_eq_error_iff (groups : List Group) (stamps : Stamps) :
    (∃ e, (releaseAll groups stamps).outcome = .error e) ↔ ∃ g ∈ groups, Stuck g.members := by
  induction groups generalizing stamps with
  | nil => exact iff_of_false (by rintro ⟨e, failed⟩; cases failed) (by rintro ⟨g, member, -⟩; cases member)
  | cons g more ih =>
    rw [List.exists_mem_cons_iff, ← g.exists_release_eq_error_iff stamps]
    cases here : (g.release stamps).outcome with
    | error e =>
      refine iff_of_true ⟨e, Journal.outcome_bind_of_error here _⟩ (.inl ⟨e, rfl⟩)
    | ok result =>
      rw [← ih result.2, releaseAll, Journal.outcome_bind_of_ok here]
      cases later : (releaseAll more result.2).outcome with
      | error e => simp [Journal.outcome_bind_of_error later]
      | ok rest => simp [Journal.outcome_bind_of_ok later, Journal.outcome_pure]

end Failure

def correlated (m : Envelope) : Bool := (correlation? m).isSome

theorem aggregate_filter_correlated (messages : List Envelope) (stamps : Stamps) :
    aggregate (messages.filter correlated) stamps = aggregate messages stamps := by
  have same : groups (messages.filter correlated) = groups messages := by
    rw [groups, groups, List.foldl_filter]
    congr 1
    funext gs m
    cases named : correlation? m <;> simp [correlated, gather, named]
  rw [aggregate, aggregate, same]

theorem sum_length_membersOf {xs : List MessageId} (once : xs.Nodup) {messages : List Envelope}
    (known : ∀ m ∈ messages, ∀ x, correlation? m = some x → x ∈ xs) :
    (xs.map fun x => (membersOf messages x).length).sum = messages.countP correlated := by
  have indicator (p : MessageId → Bool) (ys : List MessageId) :
      (ys.map fun x => if p x then 1 else 0).sum = ys.countP p := by
    induction ys with
    | nil => rfl
    | cons y more ih => rw [List.map_cons, List.sum_cons, ih, List.countP_cons, Nat.add_comm]
  induction messages with
  | nil => simp [membersOf]
  | cons m rest ih =>
    obtain ⟨here, others⟩ := List.forall_mem_cons.1 known
    have grown (x : MessageId) : (membersOf (m :: rest) x).length =
        (membersOf rest x).length + if correlation? m == some x then 1 else 0 := by
      rw [membersOf, membersOf, ← List.countP_eq_length_filter, ← List.countP_eq_length_filter, List.countP_cons]
    have one : xs.countP (fun x => correlation? m == some x) = if correlated m then 1 else 0 := by
      cases named : correlation? m with
      | none => simp [correlated, named]
      | some y =>
        have counted : xs.count y = 1 := List.count_eq_one_of_mem once (here y named)
        rw [correlated, named, Option.isSome_some, if_pos rfl, ← counted, List.count]
        congr 1
        funext x
        simp [eq_comm]
    simp only [grown]
    rw [List.sum_map_add, ih others, indicator, one, List.countP_cons]

/-- Each identity is on one of two lists, those whose groups were released and those whose groups are held back. Each
list is in order and has one entry for each of its groups, and the counts of the two make up the correlated messages. -/
structure Accounted (messages : List Envelope) (released : List (Built Work)) (heldBack : List (MessageId × Nat))
    (merged held : List MessageId) : Prop where
  merged_ascending : merged.Pairwise (· < ·)
  held_ascending : held.Pairwise (· < ·)
  known : ∀ x, (x ∈ merged ∨ x ∈ held) ↔ ∃ m ∈ messages, correlation? m = some x
  apart : ∀ x ∈ merged, x ∉ held
  stand : List.Forall₂ (fun x built => StandsFor (membersOf messages x) built) merged released
  reports : heldBack = held.map fun x => (x, (membersOf messages x).length)
  total : (released.map fun built => built.message.payload.count).sum + (heldBack.map Prod.snd).sum =
    messages.countP correlated

theorem sum_count_of_standsFor {messages : List Envelope} {xs : List MessageId} {released : List (Built Work)}
    (stand : List.Forall₂ (fun x built => StandsFor (membersOf messages x) built) xs released) :
    (released.map fun built => built.message.payload.count).sum =
      (xs.map fun x => (membersOf messages x).length).sum := by
  induction stand with
  | nil => rfl
  | cons first _ ih => rw [List.map_cons, List.map_cons, List.sum_cons, List.sum_cons, ih, first.payload, Work.count]

theorem exists_accounted {messages : List Envelope} {stamps last : Stamps} {released : List (Built Work)}
    (done : (aggregate messages stamps).outcome = .ok (released, last)) :
    ∃ merged held, Accounted messages released (aggregate messages stamps).heldBack merged held := by
  let group (x : MessageId) : Group := ⟨x, membersOf messages x⟩
  let merged := (ids messages).filter fun x => (group x).due
  let held := (ids messages).filter fun x => !(group x).due
  have peopled : ∀ g ∈ groups messages, g.members ≠ [] := by
    intro g member
    rw [groups_eq_map_ids] at member
    obtain ⟨x, named, rfl⟩ := List.mem_map.1 member
    obtain ⟨m, known⟩ := mem_ids.1 named
    exact List.ne_nil_of_mem (mem_membersOf.2 known)
  have stand : List.Forall₂ (fun x built => StandsFor (membersOf messages x) built) merged released := by
    have all := forall₂_releaseAll done
    rw [groups_eq_map_ids, List.filter_map] at all
    have each := List.forall₂_map_left_iff.1 all
    exact each
  have reports : (aggregate messages stamps).heldBack = held.map fun x => (x, (membersOf messages x).length) := by
    rw [aggregate, heldBack_releaseAll peopled done, groups_eq_map_ids, List.filter_map, List.map_map]
    rfl
  have either (x : MessageId) : (x ∈ merged ∨ x ∈ held) ↔ x ∈ ids messages := by
    rw [List.mem_filter, List.mem_filter, ← and_or_left]
    cases (group x).due <;> simp
  have once : (ids messages).Nodup := MessageId.nodup_of_ascending (ids_ascending messages)
  refine ⟨merged, held, (ids_ascending messages).filter _, (ids_ascending messages).filter _,
    fun x => (either x).trans mem_ids, fun x here there => ?_, stand, reports, ?_⟩
  · have due := (List.mem_filter.1 here).2
    have notDue := (List.mem_filter.1 there).2
    simp [due] at notDue
  · have parted : (merged ++ held).Perm (ids messages) := List.filter_append_perm _ _
    have sums := (parted.map fun x => (membersOf messages x).length).sum_eq
    rw [List.map_append, List.sum_append] at sums
    rw [sum_count_of_standsFor stand, reports, List.map_map]
    refine sums.trans (sum_length_membersOf once fun m member x named => ?_)
    exact mem_ids.2 ⟨m, member, named⟩

/-- A merge that goes through accounts for every correlated message once; the other messages make no difference, and it
fails just when some group is stuck. -/
theorem aggregate_accounts (messages : List Envelope) (stamps : Stamps) :
    (∀ released last, (aggregate messages stamps).outcome = .ok (released, last) →
      ∃ merged held, Accounted messages released (aggregate messages stamps).heldBack merged held) ∧
    (∀ others : List Envelope, others.filter correlated = messages.filter correlated →
      aggregate others stamps = aggregate messages stamps) ∧
    ((∃ e, (aggregate messages stamps).outcome = .error e) ↔ ∃ x, Stuck (membersOf messages x)) := by
  refine ⟨fun released last done => exists_accounted done, fun others same => ?_, ?_⟩
  · rw [← aggregate_filter_correlated others, same, aggregate_filter_correlated]
  · rw [aggregate, exists_releaseAll_eq_error_iff, groups_eq_map_ids]
    constructor
    · rintro ⟨g, member, stuck⟩
      obtain ⟨x, -, rfl⟩ := List.mem_map.1 member
      exact ⟨x, stuck⟩
    · rintro ⟨x, first, led, stuck⟩
      have named : x ∈ ids messages := mem_ids.2 ⟨first, mem_membersOf.1 led.mem⟩
      exact ⟨⟨x, membersOf messages x⟩, List.mem_map_of_mem named, first, led, stuck⟩

def letterTo (name : String) : Envelope :=
  ⟨.unit "pear" 1, NameMap.ofList [("correlationId", .str name), ("sequenceSize", .int 1)], .generic⟩

theorem aggregate_accounts_two_groups :
    let messages :=
      [unitOf (.ofNumber 7) 11 2 2, unitOf (.ofNumber 3) 12 1 3, letterTo "A-1", unitOf (.ofNumber 7) 10 1 2]
    let single := unitOf (.ofNumber 5) 13 1 1
    let stacked : Envelope := ⟨single.payload, single.headers.insert "sequenceDetails" (.int 9), single.kind⟩
    (∃ built last merged held, (aggregate messages (.counting 0 20)).outcome = .ok ([built], last) ∧
      Accounted messages [built] [(.ofNumber 3, 1)] merged held ∧ messages.countP correlated = 3) ∧
    ∃ e, (aggregate (stacked :: messages) (.counting 0 20)).outcome = .error e := by
  intro messages single stacked
  have done : (aggregate messages (.counting 0 20)).outcome = .ok ([_], _) := rfl
  have reports : (aggregate messages (.counting 0 20)).heldBack = [(.ofNumber 3, 1)] := rfl
  obtain ⟨merged, held, accounted⟩ := (aggregate_accounts messages (.counting 0 20)).1 _ _ done
  have leads : Leads stacked (membersOf (stacked :: messages) (.ofNumber 5)) :=
    Group.first?_eq_some_iff (g := ⟨.ofNumber 5, _⟩).1 rfl
  have stuck := (aggregate_accounts (stacked :: messages) (.counting 0 20)).2.2.2
  exact ⟨⟨_, _, merged, held, done, reports ▸ accounted, rfl⟩, stuck ⟨.ofNumber 5, stacked, leads, rfl, _, rfl, _, rfl⟩⟩

end Aggregate
end Waybill
