import Waybill.Binary64.Basic

/-! The text of a finite number: the fewest digits that read back to it, of those the nearest, written
positionally from 10^-5 up to below 10^16 and with a signed exponent beyond. The digits come from a search on
exact naturals; the layout is decided in one place, `layout`. -/
namespace Waybill.Binary64

structure Decimal where
  digits : Nat
  exponent : Int

def Decimal.cross (d : Decimal) : Nat × Nat :=
  if d.exponent < 0 then (2 * d.digits * one, Nat.pow 10 d.exponent.natAbs)
  else (2 * d.digits * Nat.pow 10 d.exponent.toNat * one, 1)

/-- The decimal lies between the halfway points to the two neighbours of the pattern; a halfway point itself
reads back to the even pattern. -/
def Decimal.readsBack (d : Decimal) (pattern : Nat) : Bool :=
  let (twice, factor) := d.cross
  let below := (units (pattern - 1) + units pattern) * factor
  let above := (units pattern + units (pattern + 1)) * factor
  if pattern % 2 = 0 then decide (below ≤ twice ∧ twice ≤ above)
  else decide (below < twice ∧ twice < above)

def leadingExponent (size : Nat) : Int :=
  if one ≤ size then ((Nat.toDigits 10 (size / one)).length : Int) - 1
  else - ((Nat.toDigits 10 ((one - 1) / size)).length : Int)

def floorOn (size : Nat) (exponent : Int) : Decimal :=
  if exponent < 0 then ⟨size * Nat.pow 10 exponent.natAbs / one, exponent⟩
  else ⟨size / (one * Nat.pow 10 exponent.toNat), exponent⟩

/-- Of the two neighbours on one decimal grid, the ones that read back; of both the nearer, of two equally
near the even one. -/
def onGrid? (pattern : Nat) (exponent : Int) : Option Decimal :=
  let low := floorOn (units pattern) exponent
  let high : Decimal := ⟨low.digits + 1, exponent⟩
  match low.readsBack pattern, high.readsBack pattern with
  | true, false => some low
  | false, true => some high
  | false, false => none
  | true, true =>
    let (sum, factor) := Decimal.cross ⟨2 * low.digits + 1, exponent⟩
    let four := 4 * units pattern * factor
    if four < sum ∨ (four = sum ∧ low.digits % 2 = 0) then some low else some high

/-- Seventeen digits always read back, so the search ends by then. -/
def shortest (pattern : Nat) : Decimal :=
  let top := leadingExponent (units pattern)
  ((List.range 17).findSome? fun (n : Nat) => onGrid? pattern (top - n)).getD
    (floorOn (units pattern) (top - 16))

def stripZeros : List Char → List Char
  | [] => []
  | c :: rest =>
    match stripZeros rest with
    | [] => if c = '0' then [] else [c]
    | kept => c :: kept

def layout (digits : List Char) (exponent : Int) : List Char :=
  let fraction (ds : List Char) := if ds.isEmpty then ['0'] else ds
  if -5 ≤ exponent ∧ exponent < 0 then
    '0' :: '.' :: List.replicate (exponent.natAbs - 1) '0' ++ digits
  else if 0 ≤ exponent ∧ exponent < 16 then
    let places := exponent.toNat + 1
    digits.take places ++ List.replicate (places - digits.length) '0' ++
      '.' :: fraction (digits.drop places)
  else
    let mantissa := match digits with
      | [] => []
      | [d] => [d]
      | d :: more => d :: '.' :: more
    mantissa ++ 'e' :: (if exponent < 0 then '-' else '+') :: Nat.toDigits 10 exponent.natAbs

def Finite.text (x : Finite) : List Char :=
  let size :=
    if x.pattern = 0 then ['0', '.', '0']
    else
      let d := shortest x.pattern
      let digits := Nat.toDigits 10 d.digits
      layout (stripZeros digits) (d.exponent + digits.length - 1)
  if x.negative then '-' :: size else size

end Waybill.Binary64
