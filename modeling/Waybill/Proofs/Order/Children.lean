import Waybill.Order.Split
import Waybill.Proofs.Builder.Batch
import Waybill.Proofs.Builder.Context

/-! Parents and their children. A parent has an identity and a whole context: correlation, number and size, none of
them null, and a stack, which may be empty. Its children have its identity as their correlation, its context on top
of their stack and all its other headers, but for the channel of errors. Splitting gives children only, one for each
payload, and a child with another child's headers is a child too, so that children can be exchanged for what they
were merged into. -/
namespace Waybill

theorem forall_mem_of_forall₂ {α β : Type} {R : α → β → Prop} {Q : β → Prop} {xs : List α} {ys : List β}
    (related : List.Forall₂ R xs ys) (implied : ∀ x y, R x y → Q y) : ∀ y ∈ ys, Q y := by
  have paired : List.Forall₂ (fun y x => Q y ∧ R x y) ys xs :=
    related.flip.imp fun y x holds => ⟨implied x y holds, holds⟩
  exact ((List.forall₂_and_left ys xs).1 paired).1

structure Parent where
  message : Envelope
  id : MessageId
  frame : Frame
  stack : List HeaderValue
  identified : message.headers.messageId = some id
  correlation : message.headers.get? HeaderName.correlationId = some frame.correlation
  number : message.headers.get? HeaderName.sequenceNumber = some frame.number
  size : message.headers.get? HeaderName.sequenceSize = some frame.size
  details : message.headers.get? HeaderName.sequenceDetails = Sequence.remainder stack
  correlationLive : frame.correlation.isNull = false
  numberLive : frame.number.isNull = false
  sizeLive : frame.size.isNull = false

namespace Parent

def context (p : Parent) : Context := ⟨some p.frame.correlation, some p.frame.number, some p.frame.size, p.stack⟩

theorem holds (p : Parent) (payload : Work) :
    (Builder.fromMessageWithPayload p.message payload).Holds p.context :=
  Builder.holds_fromMessage p.correlation p.number p.size p.details payload

def inner (p : Parent) (n : Int64) (count : Nat) : Context :=
  ⟨some (.id p.id), some (.int n), some (.int (.ofNat count)), p.stack ++ [p.frame.toValue]⟩

theorem push_context (p : Parent) (n : Int64) (count : Nat) :
    p.context.push p.frame.correlation (asHeader p.message.headers.messageId) n (.ofNat count) = p.inner n count := by
  have shown : (asHeader p.message.headers.messageId : HeaderValue) = .id p.id := by
    rw [p.identified]
    rfl
  rw [shown, Context.push, Store.written_plain _ rfl rfl]
  rfl

/-- A message that carries the parent's context above its own. -/
structure Child (p : Parent) (count : Nat) (m : Envelope) : Prop where
  correlation : m.headers.get? HeaderName.correlationId = some (.id p.id)
  number : ∃ n, m.headers.get? HeaderName.sequenceNumber = some (.int n)
  size : m.headers.get? HeaderName.sequenceSize = some (.int (.ofNat count))
  details : m.headers.get? HeaderName.sequenceDetails = some (.list (p.stack ++ [p.frame.toValue]))
  header : ∀ name, HeaderName.isReserved name = false → name ∉ HeaderName.context →
    name ≠ HeaderName.errorChannel → m.headers.get? name = p.message.headers.get? name

structure Expects (p : Parent) (count : Nat) (work : Work) (b : WorkBuilder) : Prop where
  payload : b.payload = work
  base : b.base = some p.message
  seeded : b.Seeded
  holds : ∃ n, b.Holds (p.inner n count)
  errorChannel : b.header HeaderName.errorChannel =
    if Payload.isFailure work then some (.str Split.errorsChannel)
    else p.message.headers.get? HeaderName.errorChannel
  header : ∀ name, HeaderName.isReserved name = false → name ∉ HeaderName.context →
    name ≠ HeaderName.errorChannel → b.header name = p.message.headers.get? name

structure Issue (p : Parent) (count : Nat) (work : Work) (m : Envelope) : Prop where
  payload : m.payload = work
  kind : m.kind = Payload.kind work
  errorChannel : m.headers.errorChannel =
    if Payload.isFailure work then some (.str Split.errorsChannel)
    else p.message.headers.get? HeaderName.errorChannel
  child : p.Child count m

namespace Expects

variable {p : Parent} {count : Nat} {work : Work} {b : WorkBuilder}

theorem isModified (expects : p.Expects count work b) : b.isModified = true := by
  obtain ⟨n, holds⟩ := expects.holds
  have free : HeaderName.isReserved HeaderName.sequenceDetails = false := by decide
  refine Builder.isModified_of_header_ne expects.seeded expects.base free ?_
  rw [p.details, holds.details]
  exact Sequence.remainder_ne_append p.stack p.frame.toValue

theorem issue (expects : p.Expects count work b) {m : Envelope} (built : b.Builds m) : p.Issue count work m := by
  obtain ⟨stamps, rfl⟩ := built
  have made : (b.build stamps).1.message = b.made stamps.next := by
    rw [Builder.build_of_modified expects.isModified]
    rfl
  rw [made]
  obtain ⟨n, holds⟩ := expects.holds
  have header {name : String} (free : HeaderName.isReserved name = false) :
      (b.made stamps.next).headers.get? name = b.header name := b.made_header stamps.next free
  refine ⟨expects.payload, ?_, (header (by decide)).trans expects.errorChannel, ?_⟩
  · simp only [Builder.made, expects.payload]
  · refine ⟨(header (by decide)).trans holds.correlation, ⟨n, (header (by decide)).trans holds.number⟩,
      (header (by decide)).trans holds.size, ?_, fun name free outside other => ?_⟩
    · rw [header (by decide), holds.details]
      exact Sequence.remainder_append p.stack p.frame.toValue
    · exact (header free).trans (expects.header name free outside other)

end Expects

theorem issues {p : Parent} {count : Nat} {works : List Work} {builders : List WorkBuilder}
    (expects : List.Forall₂ (p.Expects count) works builders) {messages : List Envelope}
    (built : List.Forall₂ Builder.Builds builders messages) : List.Forall₂ (p.Issue count) works messages := by
  induction expects generalizing messages with
  | nil =>
    cases built
    exact .nil
  | cons first _ ih =>
    cases built with
    | cons here later => exact .cons (first.issue here) (ih later)

theorem children_of_issues {p : Parent} {count : Nat} {works : List Work} {messages : List Envelope}
    (issues : List.Forall₂ (p.Issue count) works messages) : ∀ m ∈ messages, p.Child count m :=
  forall_mem_of_forall₂ issues fun _ _ issue => issue.child

theorem payloads_of_issues {p : Parent} {count : Nat} {works : List Work} {messages : List Envelope}
    (issues : List.Forall₂ (p.Issue count) works messages) : messages.map Message.payload = works := by
  induction issues with
  | nil => rfl
  | cons first _ ih => rw [List.map_cons, first.payload, ih]

theorem Child.stacked {p : Parent} {count : Nat} {m : Envelope} (child : p.Child count m) :
    m.headers.get? HeaderName.sequenceDetails = Sequence.remainder (p.stack ++ [p.frame.toValue]) :=
  child.details.trans (Sequence.remainder_append p.stack p.frame.toValue).symm

theorem Child.exists_parent {p : Parent} {count : Nat} {m : Envelope} (child : p.Child count m) {x : MessageId}
    (identified : m.headers.messageId = some x) : ∃ q : Parent, q.message = m ∧ q.id = x := by
  obtain ⟨n, number⟩ := child.number
  exact ⟨⟨m, x, ⟨.id p.id, .int n, .int (.ofNat count)⟩, _, identified, child.correlation, number, child.size,
    child.stacked, rfl, rfl, rfl⟩, rfl, rfl⟩

theorem exists_parents {p : Parent} {count : Nat} {messages : List Envelope} {ids : List MessageId}
    (children : ∀ m ∈ messages, p.Child count m) (identified : messages.map (·.headers.messageId) = ids.map some) :
    ∃ parents : List Parent, parents.map Parent.message = messages ∧ parents.map Parent.id = ids := by
  induction messages generalizing ids with
  | nil =>
    cases ids with
    | nil => exact ⟨[], rfl, rfl⟩
    | cons x more => cases identified
  | cons m rest ih =>
    cases ids with
    | nil => cases identified
    | cons x more =>
      obtain ⟨here, later⟩ := List.cons.inj identified
      obtain ⟨q, same, named⟩ := (children m List.mem_cons_self).exists_parent here
      obtain ⟨parents, messages, ids⟩ :=
        ih (fun other member => children other (List.mem_cons_of_mem _ member)) later
      exact ⟨q :: parents, by rw [List.map_cons, same, messages], by rw [List.map_cons, named, ids]⟩

theorem exists_pushed (p : Parent) (work : Work) (n : Int64) (count : Nat) :
    ∃ b, (Builder.fromMessageWithPayload p.message work).step
        (.push (asHeader p.message.headers.messageId) n (.ofNat count)) = .ok b ∧
      b.payload = work ∧ b.base = some p.message ∧ b.Seeded ∧ b.Holds (p.inner n count) ∧
      ∀ name, HeaderName.isReserved name = false → name ∉ HeaderName.context →
        b.header name = p.message.headers.get? name := by
  obtain ⟨b, stepped, holds, beyond⟩ :=
    Builder.exists_push (p.holds work) rfl (asHeader p.message.headers.messageId) n (.ofNat count)
  rw [push_context] at holds
  have seeded : b.Seeded := (Builder.seeded_fromMessageWithPayload p.message work).step stepped
  refine ⟨b, stepped, beyond.payload, beyond.base, seeded, holds, fun name free outside => ?_⟩
  exact (beyond.header name outside).trans (Builder.header_fromMessage p.message free)

theorem exists_child (p : Parent) (work : Work) (n : Int64) (count : Nat) :
    ∃ b, (Split.child p.message work n (.ofNat count)).outcome = .ok b ∧ p.Expects count work b := by
  obtain ⟨b, stepped, payload, base, seeded, holds, header⟩ := p.exists_pushed work n count
  let marked : WorkBuilder := b.edit (.setErrorChannelName Split.errorsChannel)
  have outcome : (Split.child p.message work n (.ofNat count)).outcome =
      .ok (if Payload.isFailure work then marked else b) := by
    simp only [Split.child, Journal.outcome_bind, Journal.ofStep, stepped]
    rfl
  refine ⟨_, outcome, ?_⟩
  cases failure : Payload.isFailure work with
  | true =>
    have written (other : String) : marked.header other =
        if HeaderName.errorChannel = other then some (.str Split.errorsChannel) else b.header other := by
      simp only [marked, Edit.setErrorChannelName]
      rw [b.header_set (by decide), Store.written_plain _ rfl rfl]
    refine ⟨payload, base, seeded.edit _, ⟨n, holds.edit (by decide)⟩, ?_, fun name free outside other => ?_⟩
    · rw [if_pos rfl, written, if_pos rfl, failure, if_pos rfl]
    · rw [if_pos rfl, written, if_neg other.symm, header name free outside]
  | false =>
    refine ⟨payload, base, seeded, ⟨n, holds⟩, ?_, fun name free outside _ => header name free outside⟩
    rw [failure]
    exact header _ (by decide) (by decide)

theorem exists_childrenFrom (p : Parent) (count number : Nat) (works : List Work) :
    ∃ builders, (Split.childrenFrom p.message (.ofNat count) number works).outcome = .ok builders ∧
      List.Forall₂ (p.Expects count) works builders := by
  induction works generalizing number with
  | nil => exact ⟨[], rfl, .nil⟩
  | cons work more ih =>
    obtain ⟨b, first, expects⟩ := p.exists_child work (.ofNat number) count
    obtain ⟨builders, rest, others⟩ := ih (number + 1)
    refine ⟨b :: builders, ?_, .cons expects others⟩
    simp only [Split.childrenFrom, Journal.outcome_bind, first, rest]
    rfl

theorem exists_children (p : Parent) (works : List Work) :
    ∃ builders, (Split.children p.message works).outcome = .ok builders ∧
      List.Forall₂ (p.Expects works.length) works builders :=
  p.exists_childrenFrom works.length 1 works

end Parent
end Waybill
