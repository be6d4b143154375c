import Waybill.Json.Reading

/-! Orders as they are handed in: an identifier and lines of goods with quantities. -/
namespace Waybill

structure LineItem where
  sku : String
  qty : UInt32
  deriving DecidableEq

structure Order where
  orderId : String
  items : List LineItem

namespace LineItem

structure Parts where
  sku : Option String
  qty : Option UInt32

def Parts.take (room : Nat) (name : String) (p : Parts) (d : Draft) : Option (Except ReadError Parts) :=
  if name = "sku" then
    some (Read.field name p.sku (Read.string room d) fun x => { p with sku := some x })
  else if name = "qty" then
    some (Read.field name p.qty (Read.uint32 room d) fun x => { p with qty := some x })
  else none

def listExpected : String := "struct LineItem with 2 elements"

def read : Reader LineItem
  | room, .object members => Read.opened room fun room => do
    let p ← members.fold (Parts.take room) ⟨none, none⟩
    return ⟨← Read.required "sku" p.sku, ← Read.required "qty" p.qty⟩
  | room, .array items => Read.opened room fun room => do
    let (sku, more) ← Read.place 0 listExpected (Read.string room) items
    let (qty, more) ← Read.place 1 listExpected (Read.uint32 room) more
    more.finish
    return ⟨sku, qty⟩
  | _, d => .error (d.mismatch "struct LineItem")

end LineItem

namespace Order

structure Parts where
  orderId : Option String
  items : Option (List LineItem)

def Parts.take (room : Nat) (name : String) (p : Parts) (d : Draft) : Option (Except ReadError Parts) :=
  if name = "order_id" then
    some (Read.field name p.orderId (Read.string room d) fun x => { p with orderId := some x })
  else if name = "items" then
    some (Read.field name p.items (Read.list LineItem.read room d) fun x => { p with items := some x })
  else none

def listExpected : String := "struct Order with 2 elements"

def read : Reader Order
  | room, .object members => Read.opened room fun room => do
    let p ← members.fold (Parts.take room) ⟨none, none⟩
    return ⟨← Read.required "order_id" p.orderId, ← Read.required "items" p.items⟩
  | room, .array items => Read.opened room fun room => do
    let (orderId, more) ← Read.place 0 listExpected (Read.string room) items
    let (lines, more) ← Read.place 1 listExpected (Read.list LineItem.read room) more
    more.finish
    return ⟨orderId, lines⟩
  | _, d => .error (d.mismatch "struct Order")

end Order
end Waybill
