import Waybill.Headers
import Waybill.Json.Form
import Waybill.Message.Failure

/-! Messages: a payload, finished headers, and whether the payload is a failure. A message never changes. Payload
types say when two payloads are equal and which ones are failures; most have none. -/
namespace Waybill

inductive MessageKind
  | generic
  | error
  deriving DecidableEq

namespace MessageKind

def name : MessageKind → String
  | .generic => "GENERIC"
  | .error => "ERROR"

def describe : MessageKind → String
  | .generic => "Generic"
  | .error => "Error"

def read : Reader MessageKind := Read.choice [("GENERIC", .generic), ("ERROR", .error)]

end MessageKind

class Payload (α : Type) extends BEq α where
  isFailure : α → Bool := fun _ => false

structure Pointer (α : Type) where
  content : α

namespace Payload

instance : Payload Unit where
instance : Payload Bool where
instance : Payload Int32 where
instance : Payload Int64 where
instance : Payload UInt32 where
instance : Payload UInt64 where
instance : Payload Binary64 where
instance : Payload String where
instance : Payload (List UInt8) where
instance : Payload Json where

instance : Payload Failure where
  isFailure _ := true

instance {α : Type} [Payload α] : Payload (Pointer α) where
  beq a b := a.content == b.content
  isFailure a := isFailure a.content

def kind {α : Type} [Payload α] (payload : α) : MessageKind :=
  if isFailure payload then .error else .generic

end Payload

structure Message (α : Type) where
  payload : α
  headers : Headers
  kind : MessageKind

namespace Message

variable {α : Type}

def same [BEq α] (a b : Message α) : Bool :=
  a.payload == b.payload && a.headers == b.headers && a.kind == b.kind

instance [BEq α] : BEq (Message α) := ⟨same⟩

def isError (m : Message α) : Bool := m.kind == .error

def doc? [JsonForm α] (m : Message α) : Option Doc := do
  let payload ← JsonForm.doc? m.payload
  let headers ← m.headers.doc?
  return .object [("payload", payload), ("headers", headers), ("kind", .text m.kind.name)]

def text? [JsonForm α] (m : Message α) : Option String := m.doc?.map Doc.compact

structure Parts (α : Type) where
  payload : Option α
  headers : Option Headers
  kind : Option MessageKind

namespace Parts

def take [JsonForm α] (room : Nat) (name : String) (p : Parts α) (d : Draft) :
    Option (Except ReadError (Parts α)) :=
  if name = "payload" then
    some (Read.field name p.payload (JsonForm.read room d) fun x => { p with payload := some x })
  else if name = "headers" then
    some (Read.field name p.headers (Headers.read room d) fun x => { p with headers := some x })
  else if name = "kind" then
    some (Read.field name p.kind (MessageKind.read room d) fun x => { p with kind := some x })
  else none

end Parts

def listExpected : String := "struct Message with 3 elements"

def read [JsonForm α] : Reader (Message α)
  | room, .object members => Read.opened room fun room => do
    let p ← members.fold (Parts.take room) ⟨none, none, none⟩
    return ⟨← Read.required "payload" p.payload, ← Read.required "headers" p.headers,
      ← Read.required "kind" p.kind⟩
  | room, .array items => Read.opened room fun room => do
    let (payload, more) ← Read.place 0 listExpected (JsonForm.read room) items
    let (headers, more) ← Read.place 1 listExpected (Headers.read room) more
    let (kind, more) ← Read.place 2 listExpected (MessageKind.read room) more
    more.finish
    return ⟨payload, headers, kind⟩
  | _, d => .error (d.mismatch "struct Message")

end Message
end Waybill
