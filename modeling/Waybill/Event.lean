import Waybill.Headers

/-! What the library reports while it works. An event is data; its text names its fields in order. -/
namespace Waybill

inductive Level
  | error
  | warn
  | info
  | debug
  | trace
  deriving DecidableEq

namespace Level

def text : Level → String
  | .error => "ERROR"
  | .warn => "WARN"
  | .info => "INFO"
  | .debug => "DEBUG"
  | .trace => "TRACE"

def rank : Level → Nat
  | .error => 1
  | .warn => 2
  | .info => 3
  | .debug => 4
  | .trace => 5

end Level

inductive Event
  | reservedWrite (name : String)
  | pushed (depth : Nat)
  | popped (depth : Nat)
  | reused (id : Option MessageId)
  | incomplete (correlation : MessageId) (got : Nat) (expected : Int64)
  | orderReceived (headers : String)
  | itemFailed (error : String) (channel : Option HeaderValue)
  | splitFinished (items units : Nat)
  | orderAggregated (headers : Headers) (nested : Nat) (payload : String)

namespace Event

def optional {α : Type} (describe : α → String) : Option α → String
  | none => "None"
  | some a => "Some(" ++ describe a ++ ")"

def level : Event → Level
  | .reservedWrite _ => .debug
  | .pushed _ => .debug
  | .popped _ => .debug
  | .reused _ => .trace
  | .incomplete .. => .warn
  | .orderReceived _ => .info
  | .itemFailed .. => .warn
  | .splitFinished .. => .info
  | .orderAggregated .. => .info

def fields : Event → List (String × String)
  | .reservedWrite name => [("header", Text.quoted name)]
  | .pushed depth => [("depth", toString depth)]
  | .popped depth => [("depth", toString depth)]
  | .reused id => [("id", optional MessageId.describe id)]
  | .incomplete correlation got expected =>
    [("correlation", correlation.display), ("got", toString got), ("expected", toString expected.toInt)]
  | .orderReceived headers => [("headers", headers)]
  | .itemFailed error channel =>
    [("error", error), ("channel", optional HeaderValue.describe channel)]
  | .splitFinished items units => [("items", toString items), ("units", toString units)]
  | .orderAggregated h nested payload =>
    [("correlation_id", optional HeaderValue.describe h.correlationId),
      ("sequence_number", optional (fun n => toString n.toInt) h.sequenceNumber),
      ("sequence_size", optional (fun n => toString n.toInt) h.sequenceSize),
      ("reply_channel", optional HeaderValue.describe h.replyChannel),
      ("nested", toString nested), ("payload", payload)]

def title : Event → String
  | .reservedWrite _ => "ignoring write to reserved header"
  | .pushed _ => "pushed sequence details"
  | .popped _ => "popped sequence details"
  | .reused _ => "no changes, reusing original message"
  | .incomplete .. => "group incomplete"
  | .orderReceived _ => "order received"
  | .itemFailed .. => "item failed"
  | .splitFinished .. => "split finished"
  | .orderAggregated .. => "order aggregated"

def text (e : Event) : String :=
  e.title ++ String.join (e.fields.map fun field => " " ++ field.1 ++ "=" ++ field.2)

def line (e : Event) : String := e.level.text ++ " " ++ e.text

end Event
end Waybill
