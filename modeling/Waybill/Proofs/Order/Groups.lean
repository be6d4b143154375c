import Mathlib.Data.List.Induction
import Waybill.Order.Aggregate
import Waybill.Proofs.MessageId.Order

/-! The groups of a list of messages. They are gathered message by message. At every moment their identities are those
that some message so far is correlated to, once each and in ascending order, and each has the messages correlated to its
identity, in their order. A group that is not empty is led by exactly one of its members: the first with the lowest
number. -/
namespace Waybill

namespace Aggregate

theorem mem_correlations_join {x y : MessageId} {m : Envelope} {gs : List Group} :
    y ∈ (join x m gs).map Group.correlation ↔ y = x ∨ y ∈ gs.map Group.correlation := by
  induction gs with
  | nil => simp [join]
  | cons g rest ih =>
    simp only [join]
    split
    · simp
    · split
      next same => simp [same]
      next =>
        rw [List.map_cons, List.mem_cons, ih, List.map_cons, List.mem_cons]
        exact or_left_comm

theorem join_ascending {x : MessageId} {m : Envelope} {gs : List Group}
    (ascending : (gs.map Group.correlation).Pairwise (· < ·)) :
    ((join x m gs).map Group.correlation).Pairwise (· < ·) := by
  induction gs with
  | nil => simp [join]
  | cons g rest ih =>
    have ⟨above, tail⟩ := List.pairwise_cons.1 ascending
    simp only [join]
    split
    next less =>
      refine List.pairwise_cons.2 ⟨fun y member => ?_, ascending⟩
      rcases List.mem_cons.1 member with same | later
      · exact same ▸ less
      · exact MessageId.lt_trans less (above y later)
    next notLess =>
      split
      · exact ascending
      next differ =>
        refine List.pairwise_cons.2 ⟨fun y member => ?_, ih tail⟩
        rcases mem_correlations_join.1 member with same | later
        · exact same ▸ MessageId.lt_of_not_lt_of_ne notLess differ
        · exact above y later

theorem mem_join {x : MessageId} {m : Envelope} {gs : List Group}
    (ascending : (gs.map Group.correlation).Pairwise (· < ·)) {g : Group} (member : g ∈ join x m gs) :
    (g.correlation ≠ x ∧ g ∈ gs) ∨ (∃ h ∈ gs, h.correlation = x ∧ g = ⟨x, h.members ++ [m]⟩) ∨
      x ∉ gs.map Group.correlation ∧ g = ⟨x, [m]⟩ := by
  induction gs with
  | nil => exact .inr (.inr ⟨List.not_mem_nil, List.mem_singleton.1 member⟩)
  | cons head rest ih =>
    have once := MessageId.nodup_of_ascending (join_ascending (x := x) (m := m) ascending)
    simp only [join] at member once
    split at member
    next less =>
      rw [if_pos less] at once
      have absent : x ∉ (head :: rest).map Group.correlation := (List.nodup_cons.1 once).1
      rcases List.mem_cons.1 member with rfl | old
      · exact .inr (.inr ⟨absent, rfl⟩)
      · exact .inl ⟨fun same => absent (same ▸ List.mem_map_of_mem old), old⟩
    next notLess =>
      rw [if_neg notLess] at once
      split at member
      next same =>
        rw [if_pos same] at once
        have fresh : head.correlation ∉ rest.map Group.correlation := (List.nodup_cons.1 once).1
        rcases List.mem_cons.1 member with rfl | old
        · exact .inr (.inl ⟨head, List.mem_cons_self, same.symm, by rw [same]⟩)
        · have other : g.correlation ≠ x := fun equal => fresh (equal.trans same ▸ List.mem_map_of_mem old)
          exact .inl ⟨other, List.mem_cons_of_mem _ old⟩
      next differ =>
        rcases List.mem_cons.1 member with rfl | later
        · exact .inl ⟨Ne.symm differ, List.mem_cons_self⟩
        · rcases ih (List.pairwise_cons.1 ascending).2 later with ⟨other, old⟩ | ⟨h, old, grown⟩ | ⟨absent, fresh⟩
          · exact .inl ⟨other, List.mem_cons_of_mem _ old⟩
          · exact .inr (.inl ⟨h, List.mem_cons_of_mem _ old, grown⟩)
          · exact .inr (.inr ⟨List.not_mem_cons_of_ne_of_not_mem differ absent, fresh⟩)

def membersOf (messages : List Envelope) (x : MessageId) : List Envelope :=
  messages.filter fun m => correlation? m == some x

theorem mem_membersOf {messages : List Envelope} {x : MessageId} {m : Envelope} :
    m ∈ membersOf messages x ↔ m ∈ messages ∧ correlation? m = some x := by
  simp [membersOf]

theorem membersOf_concat_self {m : Envelope} {x : MessageId} (own : correlation? m = some x) (messages : List Envelope) :
    membersOf (messages ++ [m]) x = membersOf messages x ++ [m] := by
  rw [membersOf, List.filter_append, List.filter_cons_of_pos (by simp [own]), List.filter_nil, membersOf]

theorem membersOf_concat_other {m : Envelope} {x : MessageId} (other : correlation? m ≠ some x)
    (messages : List Envelope) : membersOf (messages ++ [m]) x = membersOf messages x := by
  rw [membersOf, List.filter_append, List.filter_cons_of_neg (by simpa using other), List.filter_nil, List.append_nil,
    membersOf]

/-- What is gathered once some messages have been taken. -/
structure Gathered (messages : List Envelope) (gs : List Group) : Prop where
  ascending : (gs.map Group.correlation).Pairwise (· < ·)
  named : ∀ x, x ∈ gs.map Group.correlation ↔ ∃ m ∈ messages, correlation? m = some x
  members : ∀ g ∈ gs, g.members = membersOf messages g.correlation

theorem Gathered.concat {messages : List Envelope} {gs : List Group} (gathered : Gathered messages gs) (m : Envelope) :
    Gathered (messages ++ [m]) (gather gs m) := by
  cases own : correlation? m with
  | none =>
    have other (x : MessageId) : correlation? m ≠ some x := by simp [own]
    rw [gather, own]
    refine ⟨gathered.ascending, fun x => ?_, fun g known => ?_⟩
    · simp [gathered.named, own]
    · rw [membersOf_concat_other (other _), gathered.members g known]
  | some x =>
    rw [gather, own]
    refine ⟨join_ascending gathered.ascending, fun y => ?_, fun g member => ?_⟩
    · rw [mem_correlations_join, gathered.named]
      simp [own, or_comm, eq_comm]
    · rcases mem_join gathered.ascending member with ⟨other, old⟩ | ⟨h, old, same, rfl⟩ | ⟨absent, rfl⟩
      · rw [membersOf_concat_other fun equal => other (Option.some.inj (equal.symm.trans own)), gathered.members g old]
      · rw [membersOf_concat_self own, gathered.members h old, same]
      · have none : membersOf messages x = [] := by
          refine List.filter_eq_nil_iff.2 fun other known same => absent ?_
          exact (gathered.named x).2 ⟨other, known, beq_iff_eq.1 same⟩
        rw [membersOf_concat_self own, none, List.nil_append]

theorem gathered_groups (messages : List Envelope) : Gathered messages (groups messages) := by
  induction messages using List.reverseRecOn with
  | nil => exact ⟨List.Pairwise.nil, by simp [groups], by simp [groups]⟩
  | append_singleton messages m ih =>
    rw [groups, List.foldl_append]
    exact ih.concat m

def ids (messages : List Envelope) : List MessageId := (groups messages).map Group.correlation

theorem ids_ascending (messages : List Envelope) : (ids messages).Pairwise (· < ·) :=
  (gathered_groups messages).ascending

theorem mem_ids {x : MessageId} {messages : List Envelope} :
    x ∈ ids messages ↔ ∃ m ∈ messages, correlation? m = some x :=
  (gathered_groups messages).named x

theorem groups_eq_map_ids (messages : List Envelope) :
    groups messages = (ids messages).map fun x => ⟨x, membersOf messages x⟩ := by
  rw [ids, List.map_map]
  refine (List.map_id' (groups messages)).symm.trans (List.map_congr_left fun g known => ?_)
  rw [Function.comp_apply, ← (gathered_groups messages).members g known]

theorem ids_eq {messages : List Envelope} {xs : List MessageId} (ascending : xs.Pairwise (· < ·))
    (named : ∀ x, x ∈ xs ↔ ∃ m ∈ messages, correlation? m = some x) : ids messages = xs :=
  MessageId.eq_of_ascending (ids_ascending messages) ascending fun x => mem_ids.trans (named x).symm

theorem before_trans {a b c : Option Int64} (h : before a b = true) (k : before b c = true) : before a c = true := by
  cases a <;> cases b <;> cases c <;> simp only [before, decide_eq_true_eq, Bool.false_eq_true] at h k ⊢
  exact Int64.lt_trans h k

theorem before_of_not_before {a b c : Option Int64} (h : before a c = true) (k : before b c = false) :
    before a b = true := by
  cases a <;> cases b <;> cases c <;>
    simp only [before, decide_eq_true_eq, decide_eq_false_iff_not, Bool.false_eq_true, Bool.true_eq_false] at h k ⊢
  exact Int64.lt_of_lt_of_le h (Int64.not_lt.1 k)

/-- The message is the first one with the lowest number. -/
def Leads (first : Envelope) (members : List Envelope) : Prop :=
  ∃ earlier later, members = earlier ++ first :: later ∧
    (∀ m ∈ earlier, before first.headers.sequenceNumber m.headers.sequenceNumber = true) ∧
    ∀ m ∈ later, before m.headers.sequenceNumber first.headers.sequenceNumber = false

theorem lowest_leads (m : Envelope) (others : List Envelope) : Leads (lowest m others) (m :: others) := by
  induction others generalizing m with
  | nil => exact ⟨[], [], rfl, fun _ h => absurd h List.not_mem_nil, fun _ h => absurd h List.not_mem_nil⟩
  | cons other rest ih =>
    simp only [lowest]
    split
    next lower =>
      obtain ⟨earlier, later, split, above, atLeast⟩ := ih other
      have below : before (lowest other rest).headers.sequenceNumber m.headers.sequenceNumber = true := by
        cases earlier with
        | nil => rwa [← (List.cons.inj split).1]
        | cons e between =>
          have same : other = e := (List.cons.inj split).1
          exact before_trans (above other (same ▸ List.mem_cons_self)) lower
      exact ⟨m :: earlier, later, congrArg (m :: ·) split, List.forall_mem_cons.2 ⟨below, above⟩, atLeast⟩
    next higher =>
      have notLower : before other.headers.sequenceNumber m.headers.sequenceNumber = false := by simpa using higher
      obtain ⟨earlier, later, split, above, atLeast⟩ := ih m
      cases earlier with
      | nil =>
        obtain ⟨same, rfl⟩ := List.cons.inj split
        refine ⟨[], other :: rest, by rw [← same]; rfl, above, List.forall_mem_cons.2 ⟨?_, atLeast⟩⟩
        rwa [← same]
      | cons e between =>
        obtain ⟨rfl, there⟩ := List.cons.inj split
        obtain ⟨first, others⟩ := List.forall_mem_cons.1 above
        have after := before_of_not_before first notLower
        refine ⟨m :: other :: between, later, congrArg (m :: other :: ·) there, ?_, atLeast⟩
        exact List.forall_mem_cons.2 ⟨first, List.forall_mem_cons.2 ⟨after, others⟩⟩

theorem Leads.mem {first : Envelope} {members : List Envelope} (led : Leads first members) : first ∈ members := by
  obtain ⟨earlier, later, rfl, -⟩ := led
  simp

theorem Leads.unique {a b : Envelope} {members : List Envelope} (h : Leads a members) (k : Leads b members) :
    a = b := by
  have meet {x y : Envelope} {between later rest : List Envelope} (split : x :: later = between ++ y :: rest)
      (above : ∀ m ∈ between, before y.headers.sequenceNumber m.headers.sequenceNumber = true)
      (atLeast : ∀ m ∈ later, before m.headers.sequenceNumber x.headers.sequenceNumber = false) : x = y := by
    cases between with
    | nil => exact (List.cons.inj split).1
    | cons e more =>
      obtain ⟨rfl, there⟩ := List.cons.inj split
      have lower := above x List.mem_cons_self
      rw [atLeast y (by rw [there]; simp)] at lower
      cases lower
  obtain ⟨earlier, later, split, above, atLeast⟩ := h
  obtain ⟨sooner, rest, parted, higher, least⟩ := k
  rcases List.append_eq_append_iff.1 (split.symm.trans parted) with ⟨between, rfl, here⟩ | ⟨between, rfl, here⟩
  · exact meet here (fun m member => higher m (List.mem_append_right _ member)) atLeast
  · exact (meet here (fun m member => above m (List.mem_append_right _ member)) least).symm

theorem Group.first?_eq_some_iff {g : Group} {first : Envelope} : g.first? = some first ↔ Leads first g.members := by
  cases members : g.members with
  | nil =>
    refine iff_of_false (by simp [first?, members]) ?_
    rintro ⟨earlier, later, split, -⟩
    simp at split
  | cons m rest =>
    have led := lowest_leads m rest
    rw [first?, members, Option.some.injEq]
    exact ⟨fun same => same ▸ led, fun other => led.unique other⟩

theorem Group.exists_first {g : Group} (peopled : g.members ≠ []) :
    ∃ first ∈ g.members, g.first? = some first := by
  cases members : g.members with
  | nil => exact absurd members peopled
  | cons m rest => exact ⟨lowest m rest, (lowest_leads m rest).mem, by rw [first?, members]⟩

end Aggregate
end Waybill
