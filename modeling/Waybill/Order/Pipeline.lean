import Waybill.Order.Split
import Waybill.Order.Aggregate
import Waybill.Handoff

/-! The way of an order: its message is split into lines and the lines into units, all are finished on another
task, and the units are merged into lines and the lines into the order again. Lines that failed skip the units. -/
namespace Waybill

namespace Pipeline

def repliesChannel : String := "orders.done"

structure Report where
  order : Envelope
  items : List Envelope
  units : List Envelope
  merged : List Envelope
  done : List Envelope

def opening (o : Order) : WorkBuilder :=
  (((Builder.withPayload (Work.order o.items)).edit (.setCorrelationId (.str o.orderId))).editAll
    [.setSequenceNumber 1, .setSequenceSize 1, .setReplyChannelName repliesChannel])

/-- The lines that failed, each of which is reported, and the units of all others, in order. -/
def splitItems : List Envelope → Stamps → Journal (List Envelope × List Envelope × Stamps)
  | [], stamps => return ([], [], stamps)
  | item :: more, stamps =>
    match item.payload with
    | .failed f => do
      Journal.note [.itemFailed f.display item.headers.errorChannel]
      let (failed, units, stamps) ← splitItems more stamps
      return (item :: failed, units, stamps)
    | _ => do
      let builders ← Split.item item
      let (built, stamps) ← finish builders stamps
      let (failed, units, stamps) ← splitItems more stamps
      return (failed, built.map Built.message ++ units, stamps)

def announce : List Envelope → Journal Unit
  | [] => return ()
  | m :: more => do
    let frames ← Journal.ofExcept m.headers.sequenceDetails
    Journal.note [.orderAggregated m.headers frames.length m.payload.describe]
    announce more

/-- What becomes of an order's message, and of the text of its headers, until the order is announced as done. -/
def process (order : Envelope) (headers : String) (stamps : Stamps) : Journal Report := do
  Journal.note [.orderReceived headers]
  let builders ← Split.order order 0
  let (built, stamps) ← finish builders stamps
  let items := built.map Built.message
  let (failed, units, stamps) ← splitItems items stamps
  Journal.note [.splitFinished items.length units.length]
  let (merged, stamps) ← aggregate units stamps
  let merged := merged.map Built.message
  let (done, _) ← aggregate (failed ++ merged) stamps
  let done := done.map Built.message
  announce done
  return ⟨order, items, units, merged, done⟩

inductive RunError
  | unwritten
  | sequence (e : SequenceError)

def RunError.message : RunError → String
  | .unwritten => HeaderValue.channelMessage
  | .sequence e => e.message

structure Run where
  events : List Event
  outcome : Except RunError Report

/-- Headers without a written form end the run before anything is reported. -/
def run (o : Order) (stamps : Stamps) : Run :=
  let (opened, stamps) := (opening o).build stamps
  match opened.message.headers.text? with
  | none => ⟨[], .error .unwritten⟩
  | some headers =>
    let journal := process opened.message headers stamps
    ⟨journal.events, journal.outcome.mapError .sequence⟩

end Pipeline
end Waybill
