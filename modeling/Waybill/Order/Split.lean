import Waybill.Order.Work
import Waybill.Journal

/-! Splitting a message into numbered children. Each child carries the parent's headers, is correlated to the
parent's identity, and keeps the parent's own correlation context on its stack. -/
namespace Waybill

namespace Split

def errorsChannel : String := "orders.errors"

def child (parent : Envelope) (payload : Work) (number size : Int64) : Journal WorkBuilder := do
  let b ← Journal.ofStep (Builder.fromMessageWithPayload parent payload)
    (.push (asHeader parent.headers.messageId) number size)
  return if Payload.isFailure payload then b.edit (.setErrorChannelName errorsChannel) else b

def childrenFrom (parent : Envelope) (size : Int64) : (number : Nat) → List Work → Journal (List WorkBuilder)
  | _, [] => return []
  | number, payload :: more => do
    let b ← child parent payload (Int64.ofNat number) size
    let rest ← childrenFrom parent size (number + 1) more
    return b :: rest

def children (parent : Envelope) (payloads : List Work) : Journal (List WorkBuilder) :=
  childrenFrom parent (Int64.ofNat payloads.length) 1 payloads

/-- What becomes of one line. A line without quantity fails; its failure is a new occurrence. -/
def linePayload (line : LineItem) (occurrence : Nat) : Work :=
  if line.qty = 0 then .failed ⟨occurrence, Work.outOfStock line.sku⟩ else .item line

def linePayloads (occurrence : Nat) : List LineItem → List Work
  | [] => []
  | line :: more => linePayload line occurrence :: linePayloads (occurrence + 1) more

/-- An order's message becomes one child for each line; other messages have none. Failures are counted from the
given occurrence on. -/
def order (parent : Envelope) (occurrence : Nat) : Journal (List WorkBuilder) :=
  match parent.payload with
  | .order items => children parent (linePayloads occurrence items)
  | _ => return []

def unitPayloads (sku : String) (qty : Nat) : List Work :=
  (List.range qty).map fun i => .unit sku (Int64.ofNat (i + 1))

def item (parent : Envelope) : Journal (List WorkBuilder) :=
  match parent.payload with
  | .item line => children parent (unitPayloads line.sku line.qty.toNat)
  | _ => return []

end Split
end Waybill
