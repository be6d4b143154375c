import Mathlib.Data.List.Forall2
import Mathlib.Data.List.Nodup
import Mathlib.Data.List.Perm.Subperm
import Waybill.Proofs.Builder.Run
import Waybill.Proofs.Order.Groups

/-! What a merge releases. It releases one message for each group that has as many members as the size of its leader
says, and no other message. Nothing but the leader's size is looked at, so a group of the right count may carry one
number twice or sizes that differ. Where all members carry that size, and distinct numbers up to it, the count is
enough: each of the numbers is carried by exactly one member. -/
namespace Waybill

theorem Work.eq_aggregated_of_same {w : Work} {n : Nat} (same : (w == .aggregated n) = true) : w = .aggregated n := by
  change Work.same w (.aggregated n) = true at same
  cases w with
  | aggregated k => exact congrArg Work.aggregated (beq_iff_eq.1 same)
  | _ => cases same

namespace Aggregate

/-- Every member carries the size, and each number from one to the size is carried by exactly one member. -/
structure Complete (members : List Envelope) (size : Int64) : Prop where
  sized : ∀ m ∈ members, m.headers.sequenceSize = some size
  numbered : ∀ n : Int64, 1 ≤ n → n ≤ size → members.countP (fun m => m.headers.sequenceNumber == some n) = 1

def Counted (members : List Envelope) : Prop :=
  ∃ first, Leads first members ∧ Int64.ofNat members.length = first.headers.sequenceSize.getD 0

/-- The message counts the members and is built from the one that leads them, in the context that this one has
saved. -/
structure StandsFor (members : List Envelope) (built : Built Work) : Prop where
  payload : built.message.payload = .aggregated members.length
  origin : ∃ first b stamps, Leads first members ∧
    ((Builder.fromMessageWithPayload first (.aggregated members.length)).edit
      (.remove HeaderName.errorChannel)).step .pop = .ok b ∧ built = (b.build stamps).1

namespace Group

def due (g : Group) : Bool := g.first?.any g.isComplete

theorem due_iff {g : Group} : g.due = true ↔ Counted g.members := by
  simp only [due, Option.any_eq_true, first?_eq_some_iff, isComplete, beq_iff_eq]
  exact Iff.rfl

theorem standsFor {g : Group} {first : Envelope} (led : g.first? = some first) {b : WorkBuilder}
    (merged : (g.merged first).outcome = .ok b) (stamps : Stamps) : StandsFor g.members (b.build stamps).1 := by
  refine ⟨?_, first, b, stamps, first?_eq_some_iff.1 led, merged, rfl⟩
  obtain ⟨p, -, after⟩ := Builder.exists_plan_of_step merged
  have payload : b.payload = .aggregated g.members.length := by
    rw [after, Builder.editAll_payload]
    rfl
  exact Work.eq_aggregated_of_same (payload ▸ b.build_payload stamps)

theorem release_cases {g : Group} {stamps last : Stamps} {built? : Option (Built Work)}
    (done : (g.release stamps).outcome = .ok (built?, last)) :
    (g.due = false ∧ built? = none) ∨ (g.due = true ∧ ∃ built, built? = some built ∧ StandsFor g.members built) := by
  unfold release at done
  cases led : g.first? with
  | none =>
    rw [led] at done
    cases done
    exact .inl ⟨by rw [due, led]; rfl, rfl⟩
  | some first =>
    have due : g.due = g.isComplete first := by rw [due, led]; rfl
    simp only [led] at done
    split at done
    next complete =>
      obtain ⟨b, merged, rest⟩ := Journal.exists_of_outcome_bind done
      cases rest
      exact .inr ⟨due.trans complete, _, rfl, standsFor led merged stamps⟩
    next incomplete =>
      cases done
      exact .inl ⟨due.trans (by simpa using incomplete), rfl⟩

end Group

theorem forall₂_releaseAll {groups : List Group} {stamps last : Stamps} {released : List (Built Work)}
    (done : (releaseAll groups stamps).outcome = .ok (released, last)) :
    List.Forall₂ (fun g built => StandsFor g.members built) (groups.filter Group.due) released := by
  induction groups generalizing stamps released with
  | nil =>
    cases done
    exact .nil
  | cons g more ih =>
    obtain ⟨⟨built?, next⟩, here, rest⟩ := Journal.exists_of_outcome_bind done
    obtain ⟨⟨others, last⟩, later, all⟩ := Journal.exists_of_outcome_bind rest
    cases all
    rcases Group.release_cases here with ⟨due, rfl⟩ | ⟨due, built, rfl, stands⟩
    · rw [List.filter_cons_of_neg (by simp [due])]
      exact ih later
    · rw [List.filter_cons_of_pos due]
      exact .cons stands (ih later)

def numbersUpTo (size : Nat) : List (Option Int64) := (List.range size).map fun k => some (.ofNat (k + 1))

theorem mem_numbersUpTo {n size : Int64} (low : 1 ≤ n) (high : n ≤ size) : some n ∈ numbersUpTo size.toInt.toNat := by
  have atLeast : 1 ≤ n.toInt := Int64.le_iff_toInt_le.1 low
  have atMost : n.toInt ≤ size.toInt := Int64.le_iff_toInt_le.1 high
  refine List.mem_map.2 ⟨n.toInt.toNat - 1, List.mem_range.2 (by omega), ?_⟩
  have successor : ((n.toInt.toNat - 1 + 1 : Nat) : Int) = n.toInt := by omega
  rw [← Int64.ofInt_eq_ofNat, successor, Int64.ofInt_toInt]

theorem complete_of_distinct {members : List Envelope} {size : Int64}
    (counted : Int64.ofNat members.length = size) (sized : ∀ m ∈ members, m.headers.sequenceSize = some size)
    (distinct : (members.map fun m => m.headers.sequenceNumber).Nodup)
    (within : ∀ m ∈ members, ∃ n, m.headers.sequenceNumber = some n ∧ 1 ≤ n ∧ n ≤ size) : Complete members size := by
  let numbers := members.map fun m => m.headers.sequenceNumber
  have inside : numbers ⊆ numbersUpTo size.toInt.toNat := by
    intro number member
    obtain ⟨m, known, rfl⟩ := List.mem_map.1 member
    obtain ⟨n, carried, low, high⟩ := within m known
    exact carried ▸ mem_numbersUpTo low high
  have fits : numbers.Subperm (numbersUpTo size.toInt.toNat) := distinct.subperm inside
  have few : members.length ≤ size.toInt.toNat := by
    simpa only [numbers, numbersUpTo, List.length_map, List.length_range] using fits.length_le
  -- so few members cannot have been counted round the end of the range
  have exact : size.toInt = members.length := by
    have bound := size.toInt_lt
    rw [← counted] at bound few ⊢
    exact Int64.toInt_ofNat_of_lt (by omega)
  have perm : numbers.Perm (numbersUpTo size.toInt.toNat) := by
    refine fits.perm_of_length_le ?_
    simp only [numbers, numbersUpTo, List.length_map, List.length_range]
    omega
  refine ⟨sized, fun n low high => ?_⟩
  have once : numbers.count (some n) = 1 :=
    List.count_eq_one_of_mem distinct (perm.mem_iff.2 (mem_numbersUpTo low high))
  rwa [List.count, List.countP_map] at once

/-- The groups that are counted are released in ascending order of their identities, each as one message, and nothing
else is. If all members of such a group carry one size and distinct numbers up to it, the group is complete. -/
theorem exists_counted_of_aggregate {messages : List Envelope} {stamps last : Stamps} {released : List (Built Work)}
    (done : (aggregate messages stamps).outcome = .ok (released, last)) :
    ∃ xs : List MessageId, xs.Pairwise (· < ·) ∧ (∀ x, x ∈ xs ↔ Counted (membersOf messages x)) ∧
      List.Forall₂ (fun x built => StandsFor (membersOf messages x) built) xs released ∧
      ∀ x ∈ xs, ∀ size : Int64,
        (∀ m ∈ membersOf messages x, m.headers.sequenceSize = some size) →
        ((membersOf messages x).map fun m => m.headers.sequenceNumber).Nodup →
        (∀ m ∈ membersOf messages x, ∃ n, m.headers.sequenceNumber = some n ∧ 1 ≤ n ∧ n ≤ size) →
        Complete (membersOf messages x) size := by
  let group (x : MessageId) : Group := ⟨x, membersOf messages x⟩
  let xs := (ids messages).filter fun x => (group x).due
  have counted (x : MessageId) : x ∈ xs ↔ Counted (membersOf messages x) := by
    rw [List.mem_filter, Group.due_iff]
    refine and_iff_right_of_imp fun ⟨first, led, _⟩ => mem_ids.2 ?_
    exact ⟨first, mem_membersOf.1 led.mem⟩
  refine ⟨xs, (ids_ascending messages).filter _, counted, ?_, fun x member size sized distinct within => ?_⟩
  · have all := forall₂_releaseAll done
    rw [groups_eq_map_ids, List.filter_map] at all
    have each := List.forall₂_map_left_iff.1 all
    exact each
  · obtain ⟨first, led, number⟩ := (counted x).1 member
    rw [sized first led.mem] at number
    exact complete_of_distinct number sized distinct within

def unitOf (whole : MessageId) (identity : Nat) (number size : Int64) : Envelope :=
  ⟨.unit "apple" 1, NameMap.ofList [("id", .id (.ofNumber identity)), ("correlationId", .id whole),
    ("sequenceNumber", .int number), ("sequenceSize", .int size)], .generic⟩

theorem exists_counted_of_aggregate_two_groups :
    let whole : MessageId := .ofNumber 7
    let messages := [unitOf whole 11 2 2, unitOf (.ofNumber 3) 12 1 3, unitOf whole 10 1 2]
    ∃ released last, (aggregate messages (.counting 0 20)).outcome = .ok (released, last) ∧ released.length = 1 ∧
      Complete (membersOf messages whole) 2 := by
  have done : (aggregate [unitOf (.ofNumber 7) 11 2 2, unitOf (.ofNumber 3) 12 1 3, unitOf (.ofNumber 7) 10 1 2]
    (.counting 0 20)).outcome = .ok _ := rfl
  have due : Group.due ⟨.ofNumber 7, membersOf [unitOf (.ofNumber 7) 11 2 2, unitOf (.ofNumber 3) 12 1 3,
    unitOf (.ofNumber 7) 10 1 2] (.ofNumber 7)⟩ = true := rfl
  intro whole messages
  obtain ⟨xs, -, counted, -, complete⟩ := exists_counted_of_aggregate done
  have released : whole ∈ xs := (counted whole).2 (Group.due_iff.1 due)
  refine ⟨_, _, done, rfl, complete whole released 2 (by decide) (by decide) fun m member => ?_⟩
  rcases List.mem_cons.1 member with rfl | later
  · exact ⟨2, rfl, by decide, by decide⟩
  · exact ⟨1, List.mem_singleton.1 later ▸ rfl, by decide, by decide⟩

/-- One message that was delivered twice, two that disagree about the size, and two whose numbers are beyond it. -/
theorem aggregate_incomplete :
    let whole : MessageId := .ofNumber 7
    let twice := [unitOf whole 10 1 2, unitOf whole 10 1 2]
    let unequal := [unitOf whole 10 1 2, unitOf whole 11 2 5]
    let beyond := [unitOf whole 10 7 2, unitOf whole 11 9 2]
    ((∃ built last, (aggregate twice (.counting 0 20)).outcome = .ok ([built], last)) ∧
      ∀ size, ¬ Complete (membersOf twice whole) size) ∧
    ((∃ built last, (aggregate unequal (.counting 0 20)).outcome = .ok ([built], last)) ∧
      ∀ size, ¬ Complete (membersOf unequal whole) size) ∧
    (∃ built last, (aggregate beyond (.counting 0 20)).outcome = .ok ([built], last)) ∧
      ∀ size, ¬ Complete (membersOf beyond whole) size := by
  refine ⟨⟨⟨_, _, rfl⟩, fun size complete => ?_⟩, ⟨⟨_, _, rfl⟩, fun size complete => ?_⟩, ⟨_, _, rfl⟩,
    fun size complete => ?_⟩
  · obtain rfl : 2 = size := Option.some.inj (complete.sized _ List.mem_cons_self)
    exact absurd (complete.numbered 1 (by decide) (by decide)) (by decide)
  · obtain rfl : 2 = size := Option.some.inj (complete.sized _ List.mem_cons_self)
    exact absurd (complete.sized _ (List.mem_cons_of_mem _ List.mem_cons_self)) (by decide)
  · obtain rfl : 2 = size := Option.some.inj (complete.sized _ List.mem_cons_self)
    exact absurd (complete.numbered 1 (by decide) (by decide)) (by decide)

end Aggregate
end Waybill
