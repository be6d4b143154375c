import Waybill.Message.Basic
import Waybill.Store.Basic

/-! Building messages, new or from existing ones. A builder derived from a message returns that message itself
while neither payload nor headers have changed; otherwise it makes a new one with fresh stamps. A push saves the
correlation context on the stack and replaces it, a pop restores the one saved last. Both first read all they
need and then write, so each is a plan of edits; a plan that cannot be made leaves no builder. -/
namespace Waybill

structure Builder (σ α : Type) where
  payload : α
  base : Option (Message α)
  headers : σ

structure Plan where
  events : List Event
  edits : List Edit

namespace Plan

def restore (name : String) (v : HeaderValue) : List Edit :=
  if v.isNull then [] else [.set name v]

/-- Saves the context if there is a correlation, and replaces it either way. -/
def push (get? : String → Option HeaderValue) (correlation : HeaderValue) (number size : Int64) :
    Except SequenceError Plan :=
  let context : List Edit :=
    [.setCorrelationId correlation, .setSequenceNumber number, .setSequenceSize size]
  match get? HeaderName.correlationId with
  | none => .ok ⟨[], context⟩
  | some current =>
    let stored (name : String) : HeaderValue := (get? name).getD .null
    let saved : Frame := ⟨current, stored HeaderName.sequenceNumber, stored HeaderName.sequenceSize⟩
    match Sequence.push (get? HeaderName.sequenceDetails) saved with
    | .error e => .error e
    | .ok stack =>
      .ok ⟨[.pushed (Sequence.depth (some stack))], .set HeaderName.sequenceDetails stack :: context⟩

/-- Restores the context saved last; number and size only where they were saved. -/
def pop (get? : String → Option HeaderValue) : Except SequenceError Plan :=
  match get? HeaderName.sequenceDetails with
  | none => .ok ⟨[], []⟩
  | some stack =>
    match Sequence.pop stack with
    | .error e => .error e
    | .ok popped =>
      let f := popped.frame
      let stackEdit : Edit := match popped.remaining with
        | some rest => .set HeaderName.sequenceDetails rest
        | none => .remove HeaderName.sequenceDetails
      .ok ⟨[.popped (Sequence.depth popped.remaining)],
        .setCorrelationId f.correlation :: restore HeaderName.sequenceNumber f.number ++
          restore HeaderName.sequenceSize f.size ++ [stackEdit]⟩

end Plan

inductive Step
  | edit (e : Edit)
  | push (correlation : HeaderValue) (number size : Int64)
  | pop

inductive Built (α : Type)
  | kept (m : Message α)
  | made (m : Message α)

def Built.message {α : Type} : Built α → Message α
  | .kept m => m
  | .made m => m

namespace Builder

variable {σ α : Type}

def withPayload (payload : α) : Builder Store α := ⟨payload, none, Store.empty⟩

def fromMessageWithPayload (m : Message α) (payload : α) : Builder Store α :=
  ⟨payload, some m, Store.ofHeaders m.headers⟩

def fromMessage (m : Message α) : Builder Store α := fromMessageWithPayload m m.payload

section Editing

variable [Staging σ]

def header (b : Builder σ α) (name : String) : Option HeaderValue := Staging.get? b.headers name

def edit (b : Builder σ α) (e : Edit) : Builder σ α := { b with headers := Staging.edit b.headers e }

def editAll (b : Builder σ α) (edits : List Edit) : Builder σ α := edits.foldl edit b

def plan (b : Builder σ α) : Step → Except SequenceError Plan
  | .edit e => .ok ⟨[], [e]⟩
  | .push correlation number size => Plan.push b.header correlation number size
  | .pop => Plan.pop b.header

def step (b : Builder σ α) (s : Step) : Except SequenceError (Builder σ α) :=
  (b.plan s).map fun p => b.editAll p.edits

def events (b : Builder σ α) (s : Step) : List Event :=
  match b.plan s with
  | .ok p => p.events ++ p.edits.flatMap (Staging.events b.headers)
  | .error _ => []

def correlationId (b : Builder σ α) : Option HeaderValue := b.header HeaderName.correlationId

def sequenceNumber (b : Builder σ α) : Option Int64 :=
  (b.header HeaderName.sequenceNumber).bind HeaderValue.int?

def sequenceSize (b : Builder σ α) : Option Int64 :=
  (b.header HeaderName.sequenceSize).bind HeaderValue.int?

def sequenceDepth (b : Builder σ α) : Nat := Sequence.depth (b.header HeaderName.sequenceDetails)

end Editing

section Building

variable [Staging σ] [Payload α]

def payloadChanged (b : Builder σ α) : Bool :=
  match b.base with
  | none => false
  | some m => m.payload != b.payload

def isModified (b : Builder σ α) : Bool :=
  b.base.isNone || b.payloadChanged || Staging.isModified b.headers

def reusable (b : Builder σ α) : Option (Message α) :=
  if b.isModified then none else b.base

def build (b : Builder σ α) (stamps : Stamps) : Built α × Stamps :=
  match b.reusable with
  | some m => (.kept m, stamps)
  | none =>
    let finished := Staging.materialize b.headers stamps
    (.made ⟨b.payload, finished.1, Payload.kind b.payload⟩, finished.2)

def buildEvents (b : Builder σ α) : List Event :=
  match b.reusable with
  | some m => [.reused m.headers.messageId]
  | none => []

end Building

end Builder
end Waybill
