import Waybill.Order.Basic
import Waybill.Message.Builder

/-! What the messages of an order carry: the order itself, one of its lines, one unit of a line, a line that is
out of stock, or the number of messages that were merged into one. -/
namespace Waybill

inductive Work
  | order (items : List LineItem)
  | item (line : LineItem)
  | unit (sku : String) (index : Int64)
  | failed (f : Failure)
  | aggregated (n : Nat)

namespace Work

def same : Work → Work → Bool
  | .order a, .order b => a == b
  | .item a, .item b => a == b
  | .unit s i, .unit t j => s == t && i == j
  | .failed f, .failed g => f == g
  | .aggregated a, .aggregated b => a == b
  | _, _ => false

instance : BEq Work := ⟨same⟩

instance : ReflBEq Work := ⟨fun {w} => by
  change same w w = true
  cases w <;> simp [same]⟩

instance : Payload Work where
  isFailure
    | .failed _ => true
    | _ => false

def describeLine (line : LineItem) : String :=
  "LineItem \x7b sku: " ++ Text.quoted line.sku ++ ", qty: " ++ toString line.qty.toNat ++ " \x7d"

def describe : Work → String
  | .order items => "Order([" ++ String.intercalate ", " (items.map describeLine) ++ "])"
  | .item line => "Item(" ++ describeLine line ++ ")"
  | .unit sku index =>
    "Unit \x7b sku: " ++ Text.quoted sku ++ ", index: " ++ toString index.toInt ++ " \x7d"
  | .failed f => "Failed(" ++ f.describe ++ ")"
  | .aggregated n => "Aggregated(" ++ toString n ++ ")"

def outOfStock (sku : String) : ErrorCause :=
  ⟨"sku " ++ sku ++ " is out of stock", "OutOfStock(" ++ Text.quoted sku ++ ")"⟩

end Work

abbrev Envelope := Message Work

abbrev WorkBuilder := Builder Store Work

end Waybill
