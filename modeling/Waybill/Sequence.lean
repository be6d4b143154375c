import Waybill.HeaderValue.Basic

/-! The stack of saved correlation contexts. A frame is a list of three: the correlation, which is never null,
and number and size as they were stored, null where there was none. The stack is a list of frames, outermost
first, kept in one header; popping the last frame leaves no stack at all. Pushing looks at the stack's shape
alone, popping also at the frame it takes, and only reading all frames looks at all of them. -/
namespace Waybill

structure Frame where
  correlation : HeaderValue
  number : HeaderValue
  size : HeaderValue

inductive SequenceError
  | malformedFrame (v : HeaderValue)
  | emptyStack
  | notAList (v : HeaderValue)

def SequenceError.message : SequenceError → String
  | .malformedFrame v =>
    "wrong sequence details (not created by MessageBuilder?): " ++ v.describe
  | .emptyStack => "wrong sequence details (not created by MessageBuilder?): empty sequence details"
  | .notAList v => "sequence details header is not a list: " ++ v.describe

namespace Frame

def same (a b : Frame) : Bool :=
  a.correlation == b.correlation && a.number == b.number && a.size == b.size

instance : BEq Frame := ⟨same⟩

def ofNumbers (correlation : HeaderValue) (number size : Option Int64) : Frame :=
  ⟨correlation, asHeader number, asHeader size⟩

def toValue (f : Frame) : HeaderValue := .list [f.correlation, f.number, f.size]

def ofValue (v : HeaderValue) : Except SequenceError Frame :=
  match v with
  | .list [correlation, number, size] =>
    if correlation.isNull then .error (.malformedFrame v) else .ok ⟨correlation, number, size⟩
  | _ => .error (.malformedFrame v)

theorem ofValue_toValue (f : Frame) :
    ofValue f.toValue =
      if f.correlation.isNull then .error (.malformedFrame f.toValue) else .ok f := rfl

end Frame

namespace Sequence

def items (stack : HeaderValue) : Except SequenceError (List HeaderValue) :=
  match stack with
  | .list frames => .ok frames
  | v => .error (.notAList v)

def push (stack : Option HeaderValue) (f : Frame) : Except SequenceError HeaderValue :=
  match stack with
  | none => .ok (.list [f.toValue])
  | some v => (items v).map fun frames => .list (frames ++ [f.toValue])

structure Popped where
  frame : Frame
  remaining : Option HeaderValue

def remainder (frames : List HeaderValue) : Option HeaderValue :=
  if frames.isEmpty then none else some (.list frames)

def pop (stack : HeaderValue) : Except SequenceError Popped := do
  let frames ← items stack
  match frames.getLast? with
  | none => .error .emptyStack
  | some last => return ⟨← Frame.ofValue last, remainder frames.dropLast⟩

/-- All frames, outermost first. -/
def frames (stack : HeaderValue) : Except SequenceError (List Frame) := do
  (← items stack).mapM Frame.ofValue

def depth (stack : Option HeaderValue) : Nat :=
  match stack with
  | some (.list frames) => frames.length
  | _ => 0

end Sequence
end Waybill
