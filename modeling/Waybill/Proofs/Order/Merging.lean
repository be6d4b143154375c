import Mathlib.Data.List.Nodup
import Waybill.Proofs.Order.Children
import Waybill.Proofs.Order.Groups

/-! Merging children gives their parents back. A family is a list of messages in which every message is a child of one
of the parents and each parent has all of its children; the order does not matter. Merging a family releases one
message for each parent, in ascending order of the identities, with all headers of the parent but the channel of
errors. The members of one group agree on everything but their number and that channel, so it makes no difference
which of them leads the group. -/
namespace Waybill

namespace Parent

/-- A message that stands for the parent once its children have been counted. -/
structure Merged (p : Parent) (count : Nat) (m : Envelope) : Prop where
  payload : m.payload = .aggregated count
  kind : m.kind = .generic
  errorChannel : m.headers.errorChannel = none
  header : ∀ name, HeaderName.isReserved name = false → name ≠ HeaderName.errorChannel →
    m.headers.get? name = p.message.headers.get? name

theorem Merged.child {p q : Parent} {count n : Nat} {m : Envelope} (merged : q.Merged n m)
    (child : p.Child count q.message) : p.Child count m where
  correlation := (merged.header _ (by decide) (by decide)).trans child.correlation
  number := child.number.imp fun _ numbered => (merged.header _ (by decide) (by decide)).trans numbered
  size := (merged.header _ (by decide) (by decide)).trans child.size
  details := (merged.header _ (by decide) (by decide)).trans child.details
  header name free outside other := (merged.header name free other).trans (child.header name free outside other)

namespace Child

variable {p : Parent} {count : Nat} {m : Envelope}

theorem correlation? (child : p.Child count m) : Aggregate.correlation? m = some p.id := by
  rw [Aggregate.correlation?, Headers.correlationId, child.correlation]
  rfl

theorem expected (child : p.Child count m) : Aggregate.Group.expected m = .ofNat count := by
  rw [Aggregate.Group.expected, Headers.sequenceSize, Headers.int?, child.size]
  rfl

theorem exists_holds (child : p.Child count m) (work : Work) :
    ∃ n, (Builder.fromMessageWithPayload m work).Holds (p.inner n count) := by
  obtain ⟨n, number⟩ := child.number
  exact ⟨n, Builder.holds_fromMessage child.correlation number child.size child.stacked work⟩

end Child

theorem pop_inner (p : Parent) (n : Int64) (count : Nat) : (p.inner n count).pop p.frame p.stack = p.context := by
  have correlation : Store.written (some (.id p.id)) p.frame.correlation = some p.frame.correlation :=
    Store.written_over_plain rfl p.correlationLive
  have number : Store.written (some (.int n)) p.frame.number = some p.frame.number :=
    Store.written_over_plain rfl p.numberLive
  have size : Store.written (some (.int (.ofNat count))) p.frame.size = some p.frame.size :=
    Store.written_over_plain rfl p.sizeLive
  simp only [Context.pop, inner, Context.restored, p.numberLive, p.sizeLive, Bool.false_eq_true, if_false,
    correlation, number, size]
  rfl

theorem context_header (p : Parent) {b : WorkBuilder} (holds : b.Holds p.context) {name : String}
    (inside : name ∈ HeaderName.context) : b.header name = p.message.headers.get? name := by
  simp only [HeaderName.context, List.mem_cons, List.not_mem_nil, or_false] at inside
  rcases inside with rfl | rfl | rfl | rfl
  · exact holds.correlation.trans p.correlation.symm
  · exact holds.number.trans p.number.symm
  · exact holds.size.trans p.size.symm
  · exact holds.details.trans p.details.symm

theorem exists_merged {p : Parent} {count : Nat} {first : Envelope} (child : p.Child count first)
    (g : Aggregate.Group) :
    ∃ b, (g.merged first).outcome = .ok b ∧ b.isModified = true ∧
      ∀ stamp, p.Merged g.members.length (b.made stamp) := by
  let work : Work := .aggregated g.members.length
  let cleared : WorkBuilder := (Builder.fromMessageWithPayload first work).edit (.remove HeaderName.errorChannel)
  obtain ⟨n, holds⟩ := child.exists_holds work
  have holdsCleared : cleared.Holds (p.inner n count) := holds.edit (by decide)
  obtain ⟨b, stepped, holdsPopped, beyond⟩ := Builder.exists_pop holdsCleared rfl p.correlationLive
  rw [pop_inner] at holdsPopped
  have seeded : b.Seeded := ((Builder.seeded_fromMessageWithPayload first work).edit _).step stepped
  have gone : b.header HeaderName.errorChannel = none := by
    rw [beyond.header _ (by decide), Builder.header_remove, if_pos rfl]
  have changed : b.isModified = true := by
    refine Builder.isModified_of_header_ne seeded beyond.base (by decide : HeaderName.isReserved
      HeaderName.sequenceDetails = false) ?_
    rw [child.stacked, holdsPopped.details]
    exact (Sequence.remainder_ne_append p.stack p.frame.toValue).symm
  refine ⟨b, stepped, changed, fun stamp => ⟨beyond.payload, ?_, ?_, fun name free other => ?_⟩⟩
  · have payload : b.payload = work := beyond.payload
    simp only [Builder.made, payload]
    rfl
  · exact (b.made_header stamp (by decide)).trans gone
  · rw [b.made_header stamp free]
    by_cases inside : name ∈ HeaderName.context
    · exact p.context_header holdsPopped inside
    · have kept : cleared.header name = first.headers.get? name := by
        rw [Builder.header_remove, if_neg other.symm]
        exact Builder.header_fromMessage first free
      exact ((beyond.header name inside).trans kept).trans (child.header name free inside other)

theorem exists_release {p : Parent} {count : Nat} {g : Aggregate.Group} (own : ∀ m ∈ g.members, p.Child count m)
    (complete : g.members.length = count) (peopled : 0 < count) (stamps : Stamps) :
    ∃ m, (g.release stamps).outcome = .ok (some (.made m), stamps.rest) ∧ p.Merged count m := by
  have inhabited : g.members ≠ [] := by
    rw [← List.length_pos_iff, complete]
    exact peopled
  obtain ⟨first, member, found⟩ := Aggregate.Group.exists_first inhabited
  have child : p.Child count first := own first member
  obtain ⟨b, built, changed, back⟩ := exists_merged child g
  have counted : g.isComplete first = true := by
    rw [Aggregate.Group.isComplete, child.expected, complete]
    exact beq_self_eq_true _
  refine ⟨b.made stamps.next, ?_, complete ▸ back stamps.next⟩
  simp only [Aggregate.Group.release, found, counted, if_true]
  rw [Journal.outcome_bind_of_ok built, Journal.outcome_note_bind, Builder.build_of_modified changed]
  rfl

theorem exists_releaseAll {messages : List Envelope} {count : Parent → Nat} {ordered : List Parent}
    (own : ∀ p ∈ ordered, ∀ m ∈ Aggregate.membersOf messages p.id, p.Child (count p) m)
    (complete : ∀ p ∈ ordered, (Aggregate.membersOf messages p.id).length = count p)
    (peopled : ∀ p ∈ ordered, 0 < count p) (stamps : Stamps) :
    ∃ released last,
      (Aggregate.releaseAll (ordered.map fun p => ⟨p.id, Aggregate.membersOf messages p.id⟩) stamps).outcome =
        .ok (released, last) ∧
      List.Forall₂ (fun p built => p.Merged (count p) built.message) ordered released := by
  induction ordered generalizing stamps with
  | nil => exact ⟨[], stamps, rfl, .nil⟩
  | cons p more ih =>
    have later {q : Parent} (member : q ∈ more) : q ∈ p :: more := List.mem_cons_of_mem _ member
    let g : Aggregate.Group := ⟨p.id, Aggregate.membersOf messages p.id⟩
    obtain ⟨m, first, back⟩ := exists_release (g := g) (own p List.mem_cons_self) (complete p List.mem_cons_self)
      (peopled p List.mem_cons_self) stamps
    obtain ⟨released, last, rest, others⟩ :=
      ih (fun q member => own q (later member)) (fun q member => complete q (later member))
        (fun q member => peopled q (later member)) stamps.rest
    refine ⟨.made m :: released, last, ?_, .cons back others⟩
    rw [List.map_cons, Aggregate.releaseAll, Journal.outcome_bind_of_ok first, Journal.outcome_bind_of_ok rest]
    rfl

theorem payloads_of_merged {count : Parent → Nat} {ordered : List Parent} {merged : List Envelope}
    (back : List.Forall₂ (fun p m => p.Merged (count p) m) ordered merged) :
    merged.map Message.payload = (ordered.map count).map Work.aggregated := by
  induction back with
  | nil => rfl
  | cons first _ ih => rw [List.map_cons, first.payload, ih, List.map_cons, List.map_cons]

theorem children_of_merged {p : Parent} {size : Nat} {count : Parent → Nat} {ordered : List Parent}
    {merged : List Envelope} (children : ∀ q ∈ ordered, p.Child size q.message)
    (back : List.Forall₂ (fun q m => q.Merged (count q) m) ordered merged) : ∀ m ∈ merged, p.Child size m := by
  induction back with
  | nil => exact fun m member => absurd member List.not_mem_nil
  | cons first _ ih =>
    intro m member
    rcases List.mem_cons.1 member with rfl | later
    · exact first.child (children _ List.mem_cons_self)
    · exact ih (fun q known => children q (List.mem_cons_of_mem _ known)) m later

end Parent

/-- All children of the parents and nothing else, in any order. -/
structure Family (parents : List Parent) (count : Parent → Nat) (messages : List Envelope) : Prop where
  belongs : ∀ m ∈ messages, ∃ p ∈ parents, p.Child (count p) m
  complete : ∀ p ∈ parents, (Aggregate.membersOf messages p.id).length = count p

namespace Family

variable {parents : List Parent} {count : Parent → Nat} {messages : List Envelope}

theorem of_perm (family : Family parents count messages) {shuffled : List Envelope}
    (perm : shuffled.Perm messages) : Family parents count shuffled where
  belongs m member := family.belongs m (perm.mem_iff.1 member)
  complete p member := (perm.filter _).length_eq.trans (family.complete p member)

theorem own (family : Family parents count messages) (distinct : (parents.map Parent.id).Nodup) {p : Parent}
    (known : p ∈ parents) {m : Envelope} (member : m ∈ Aggregate.membersOf messages p.id) :
    p.Child (count p) m := by
  obtain ⟨there, correlated⟩ := Aggregate.mem_membersOf.1 member
  obtain ⟨q, alsoKnown, child⟩ := family.belongs m there
  have same : q.id = p.id := Option.some.inj (child.correlation?.symm.trans correlated)
  have one : q = p := List.inj_on_of_nodup_map distinct alsoKnown known same
  exact one ▸ child

theorem named (family : Family parents count messages) (peopled : ∀ p ∈ parents, 0 < count p) (x : MessageId) :
    x ∈ parents.map Parent.id ↔ ∃ m ∈ messages, Aggregate.correlation? m = some x := by
  constructor
  · intro given
    obtain ⟨p, known, rfl⟩ := List.mem_map.1 given
    have some : 0 < (Aggregate.membersOf messages p.id).length :=
      (family.complete p known).symm ▸ peopled p known
    obtain ⟨m, member⟩ := List.length_pos_iff_exists_mem.1 some
    exact ⟨m, Aggregate.mem_membersOf.1 member⟩
  · rintro ⟨m, member, correlated⟩
    obtain ⟨p, known, child⟩ := family.belongs m member
    have same : p.id = x := Option.some.inj (child.correlation?.symm.trans correlated)
    exact List.mem_map.2 ⟨p, known, same⟩

theorem nil (count : Parent → Nat) : Family [] count [] where
  belongs _ member := absurd member List.not_mem_nil
  complete _ known := absurd known List.not_mem_nil

theorem eq_nil (family : Family parents count messages) (none : ∀ p ∈ parents, count p = 0) : messages = [] := by
  refine List.eq_nil_iff_forall_not_mem.2 fun m member => ?_
  obtain ⟨p, known, child⟩ := family.belongs m member
  have inside : m ∈ Aggregate.membersOf messages p.id := Aggregate.mem_membersOf.2 ⟨member, child.correlation?⟩
  have some := List.length_pos_of_mem inside
  rw [family.complete p known, none p known] at some
  exact absurd some (Nat.lt_irrefl 0)

theorem cons (family : Family parents count messages) {p : Parent} (fresh : p.id ∉ parents.map Parent.id)
    {born : List Envelope} (children : ∀ m ∈ born, p.Child (count p) m) (all : born.length = count p) :
    Family (p :: parents) count (born ++ messages) where
  belongs m member := by
    rcases List.mem_append.1 member with first | later
    · exact ⟨p, List.mem_cons_self, children m first⟩
    · obtain ⟨q, known, child⟩ := family.belongs m later
      exact ⟨q, List.mem_cons_of_mem _ known, child⟩
  complete q known := by
    have split : Aggregate.membersOf (born ++ messages) q.id =
        Aggregate.membersOf born q.id ++ Aggregate.membersOf messages q.id := List.filter_append ..
    rw [split, List.length_append]
    rcases List.mem_cons.1 known with rfl | older
    · have mine : Aggregate.membersOf born q.id = born :=
        List.filter_eq_self.2 fun m member => by simp [(children m member).correlation?]
      have others : Aggregate.membersOf messages q.id = [] := by
        refine List.filter_eq_nil_iff.2 fun m member => ?_
        obtain ⟨parent, known, child⟩ := family.belongs m member
        intro taken
        rw [child.correlation?] at taken
        exact fresh (List.mem_map.2 ⟨parent, known, Option.some.inj (beq_iff_eq.1 taken)⟩)
      rw [mine, others, all]
      rfl
    · have mine : Aggregate.membersOf born q.id = [] := by
        refine List.filter_eq_nil_iff.2 fun m member => ?_
        intro taken
        rw [(children m member).correlation?] at taken
        exact fresh (List.mem_map.2 ⟨q, older, (Option.some.inj (beq_iff_eq.1 taken)).symm⟩)
      rw [mine, family.complete q older]
      exact Nat.zero_add _

theorem exists_aggregate (family : Family parents count messages) (distinct : (parents.map Parent.id).Nodup)
    (peopled : ∀ p ∈ parents, 0 < count p) (stamps : Stamps) :
    ∃ ordered released last, ordered.Perm parents ∧ (ordered.map Parent.id).Pairwise (· < ·) ∧
      (aggregate messages stamps).outcome = .ok (released, last) ∧
      List.Forall₂ (fun p built => p.Merged (count p) built.message) ordered released := by
  let ordered := parents.mergeSort fun p q => decide (p.id.number ≤ q.id.number)
  have perm : ordered.Perm parents := List.mergeSort_perm parents _
  have known {p : Parent} (member : p ∈ ordered) : p ∈ parents := perm.mem_iff.1 member
  have sorted : ordered.Pairwise fun p q => decide (p.id.number ≤ q.id.number) = true :=
    List.pairwise_mergeSort (fun a b c h k => by simp only [decide_eq_true_eq] at h k ⊢; omega)
      (fun a b => by simp only [Bool.or_eq_true, decide_eq_true_eq]; omega) parents
  have apart : (ordered.map Parent.id).Nodup := (perm.map Parent.id).nodup_iff.2 distinct
  have ascending : (ordered.map Parent.id).Pairwise (· < ·) := by
    rw [List.pairwise_map]
    refine (sorted.and (List.pairwise_map.1 apart)).imp ?_
    intro p q ⟨atMost, differ⟩
    have numbers : p.id.number ≠ q.id.number := fun e => differ (MessageId.ext_number e)
    exact MessageId.lt_iff.2 (Nat.lt_of_le_of_ne (of_decide_eq_true atMost) numbers)
  have named (x : MessageId) :
      x ∈ ordered.map Parent.id ↔ ∃ m ∈ messages, Aggregate.correlation? m = some x :=
    (perm.map Parent.id).mem_iff.trans (family.named peopled x)
  obtain ⟨released, last, outcome, merged⟩ := Parent.exists_releaseAll
    (fun p member m => family.own distinct (known member)) (fun p member => family.complete p (known member))
    (fun p member => peopled p (known member)) stamps
  refine ⟨ordered, released, last, perm, ascending, ?_, merged⟩
  rw [aggregate, Aggregate.groups_eq_map_ids, Aggregate.ids_eq ascending named, List.map_map]
  exact outcome

end Family
end Waybill
