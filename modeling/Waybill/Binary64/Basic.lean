/-! Binary64 numbers on naturals. A finite number is a sign and the 63 bits below it, read as one natural
number, its pattern; patterns grow with the size of the number. Products, quotients and readings round to
the nearest pattern and a tie goes to the even one. The machine's floating point unit is not involved. -/
namespace Waybill.Binary64

def infinity : Nat := 0x7FF0000000000000

/-- The size of a pattern, counted in units of 2^-1074. -/
def units (pattern : Nat) : Nat :=
  if pattern < 0x20000000000000 then pattern
  else (0x10000000000000 + pattern % 0x10000000000000) * Nat.pow 2 (pattern / 0x10000000000000 - 1)

def one : Nat := Nat.pow 2 1074

/-- The pattern nearest to a quotient of units; a tie goes to the even pattern. Quotients beyond the finite
range give patterns from `infinity` on. -/
def nearest (numerator denominator : Nat) : Nat :=
  let whole := numerator / denominator
  let shift := whole.log2 - 52
  let low := shift * 0x10000000000000 + whole / Nat.pow 2 shift
  let rest := 2 * (numerator - units low * denominator)
  let gap := Nat.pow 2 shift * denominator
  if rest > gap ∨ (rest = gap ∧ low % 2 = 1) then low + 1 else low

def product (a b : Nat) : Nat := nearest (units a * units b) one

def quotient (a b : Nat) : Nat := nearest (units a * one) (units b)

def ofNat (n : Nat) : Nat := nearest (n * one) 1

structure Finite where
  negative : Bool
  pattern : Nat
  pattern_lt : pattern < infinity
  deriving DecidableEq

namespace Finite

def ofPattern? (negative : Bool) (pattern : Nat) : Option Finite :=
  if h : pattern < infinity then some ⟨negative, pattern, h⟩ else none

def same (x y : Finite) : Bool :=
  x.pattern == y.pattern && (x.pattern == 0 || x.negative == y.negative)

theorem same_refl (x : Finite) : x.same x = true := by simp [same]

theorem same_symm {x y : Finite} (h : x.same y = true) : y.same x = true := by
  simp only [same, Bool.and_eq_true, beq_iff_eq, Bool.or_eq_true] at *
  obtain ⟨p, z | n⟩ := h
  · exact ⟨p.symm, .inl (p ▸ z)⟩
  · exact ⟨p.symm, .inr n.symm⟩

end Finite

def powerOfTen (k : Nat) : Nat := ofNat (Nat.pow 10 k)

def divideByTens (pattern places : Nat) : Nat :=
  if places ≤ 308 then quotient pattern (powerOfTen places)
  else if pattern = 0 then 0
  else divideByTens (quotient pattern (powerOfTen 308)) (places - 308)
termination_by places

/-- The pattern of significand * 10^exponent as this reading computes it: the significand is rounded first,
then scaled by rounded powers of ten. `none` when the size leaves the finite range. -/
def scaled? (significand : Nat) (exponent : Int) : Option Nat :=
  let start := ofNat significand
  if exponent < 0 then some (divideByTens start exponent.natAbs)
  else if exponent ≤ 308 then
    let size := product start (powerOfTen exponent.toNat)
    if size < infinity then some size else none
  else if start = 0 then some 0
  else none

def Finite.read? (negative : Bool) (significand : Nat) (exponent : Int) : Option Finite :=
  (scaled? significand exponent).bind (Finite.ofPattern? negative)

def Finite.ofNat? (negative : Bool) (n : Nat) : Option Finite :=
  Finite.ofPattern? negative (Binary64.ofNat n)

end Waybill.Binary64

namespace Waybill

inductive Binary64
  | finite (x : Binary64.Finite)
  | infinite (negative : Bool)
  | nan
  deriving DecidableEq

def Binary64.same : Binary64 → Binary64 → Bool
  | .finite x, .finite y => x.same y
  | .infinite a, .infinite b => a == b
  | _, _ => false

instance : BEq Binary64 := ⟨Binary64.same⟩

end Waybill
