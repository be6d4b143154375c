import Waybill.Proofs.Builder.Run

/-! Messages that pass through builders untouched. A builder compares the payload with its own copy. So the message
itself comes back, however often it is passed on and without a stamp being drawn, if and only if its payload equals
itself. Of the payload types of the library all but one hold only payloads that do; the exception is the binary64
number that is not a number. -/
namespace Waybill

theorem Binary64.beq_self_iff (x : Binary64) : (x == x) = true ↔ x ≠ .nan := by
  cases x with
  | finite x => exact iff_of_true x.same_refl (fun same => nomatch same)
  | infinite negative => exact iff_of_true (beq_self_eq_true negative) (fun same => nomatch same)
  | nan => exact iff_of_false (by decide) (fun differ => differ rfl)

inductive PayloadType
  | unit
  | bool
  | int32
  | int64
  | uint32
  | uint64
  | binary64
  | string
  | bytes
  | json
  | failure
  | pointer (inner : PayloadType)

namespace PayloadType

@[reducible] def Value : PayloadType → Type
  | unit => Unit
  | bool => Bool
  | int32 => Int32
  | int64 => Int64
  | uint32 => UInt32
  | uint64 => UInt64
  | binary64 => Binary64
  | string => String
  | bytes => List UInt8
  | json => Json
  | failure => Failure
  | pointer inner => Pointer inner.Value

instance payload : (t : PayloadType) → Payload t.Value
  | unit => inferInstanceAs (Payload Unit)
  | bool => inferInstanceAs (Payload Bool)
  | int32 => inferInstanceAs (Payload Int32)
  | int64 => inferInstanceAs (Payload Int64)
  | uint32 => inferInstanceAs (Payload UInt32)
  | uint64 => inferInstanceAs (Payload UInt64)
  | binary64 => inferInstanceAs (Payload Binary64)
  | string => inferInstanceAs (Payload String)
  | bytes => inferInstanceAs (Payload (List UInt8))
  | json => inferInstanceAs (Payload Json)
  | failure => inferInstanceAs (Payload Failure)
  | pointer inner =>
    have := payload inner
    inferInstanceAs (Payload (Pointer inner.Value))

def isNaN : (t : PayloadType) → t.Value → Bool
  | binary64, x => x = Binary64.nan
  | pointer inner, x => inner.isNaN x.content
  | _, _ => false

theorem beq_self_iff (t : PayloadType) (v : t.Value) : (v == v) = true ↔ t.isNaN v = false := by
  induction t with
  | pointer inner ih => exact ih v.content
  | binary64 => exact v.beq_self_iff.trans decide_eq_false_iff_not.symm
  | _ => exact iff_of_true BEq.rfl rfl

end PayloadType

namespace Message

section Passing

variable {α : Type} [Payload α]

/-- Passes a message through so many builders, one after the other, with nothing done in any of them: what each of them
builds, and the stamps that are left. -/
def passes : Nat → Message α → Stamps → List (Built α) × Stamps
  | 0, _, stamps => ([], stamps)
  | k + 1, m, stamps =>
    let first := (Builder.fromMessage m).build stamps
    let rest := passes k first.1.message first.2
    (first.1 :: rest.1, rest.2)

theorem isModified_fromMessage_iff (m : Message α) :
    (Builder.fromMessage m).isModified = false ↔ (m.payload == m.payload) = true :=
  (Builder.isModified_eq_false_iff rfl).trans (and_iff_left rfl)

theorem passes_of_beq_self {m : Message α} (same : (m.payload == m.payload) = true) (k : Nat) (stamps : Stamps) :
    m.passes k stamps = (List.replicate k (.kept m), stamps) := by
  have kept : (Builder.fromMessage m).build stamps = (.kept m, stamps) :=
    Builder.build_of_unmodified ((isModified_fromMessage_iff m).2 same) rfl stamps
  induction k with
  | zero => rfl
  | succ k ih => simp only [passes, kept, Built.message, ih, List.replicate_succ]

theorem passes_ne_of_not_beq_self {m : Message α} (differ : (m.payload == m.payload) = false) (k : Nat)
    (stamps : Stamps) : m.passes (k + 1) stamps ≠ (List.replicate (k + 1) (.kept m), stamps) := by
  have changed : (Builder.fromMessage m).isModified = true := by
    rw [← Bool.not_eq_false, isModified_fromMessage_iff, differ]
    exact Bool.false_ne_true
  intro same
  have first := congrArg (fun all => all.1.head?) same
  simp only [passes, Builder.build_of_modified changed, List.head?_cons, List.replicate_succ] at first
  cases first

end Passing

/-- A message that is passed on untouched, any number of times, is returned each time and no identity is drawn, unless
its payload is not a number. -/
theorem passes_eq_replicate_iff (t : PayloadType) (m : Message t.Value) (k : Nat) (stamps : Stamps) :
    m.passes k stamps = (List.replicate k (.kept m), stamps) ↔ k = 0 ∨ t.isNaN m.payload = false := by
  rw [← t.beq_self_iff]
  cases k with
  | zero => exact iff_of_true rfl (.inl rfl)
  | succ k =>
    constructor
    · intro returned
      refine .inr ?_
      cases same : m.payload == m.payload with
      | true => rfl
      | false => exact absurd returned (passes_ne_of_not_beq_self same k stamps)
    · rintro (none | same)
      · cases none
      · exact passes_of_beq_self same (k + 1) stamps

/-- A number that is none, in a message of a builder: what comes back is another message, with an identity of its own. -/
theorem passes_nan :
    let m : Message PayloadType.binary64.Value :=
      ((Builder.withPayload Binary64.nan).build (.counting 0 1)).1.message
    let stamps := Stamps.counting 0 2
    m.passes 1 stamps ≠ (List.replicate 1 (.kept m), stamps) ∧
      ∃ fresh, m.passes 1 stamps = ([.made fresh], stamps.rest) ∧
        fresh.headers.messageId ≠ m.headers.messageId := by
  intro m stamps
  have again : m.passes 1 stamps = ([.made _], stamps.rest) := rfl
  refine ⟨fun same => ?_, _, again, by decide⟩
  cases congrArg Prod.fst (again.symm.trans same)

end Message
end Waybill
