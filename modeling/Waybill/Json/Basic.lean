import Waybill.Binary64.Decimal
import Waybill.NameMap

/-! Documents and values. A document is a text's tree as it was written: members keep their order and may
repeat a name. A value is a document whose objects list every name once, in ascending order; of repeated
members the last one counts. Numbers are whole from -2^63 to 2^64 - 1 and binary64 otherwise, and a whole
number never equals a binary64 one. -/
namespace Waybill

structure Whole where
  toInt : Int
  lower : -0x8000000000000000 ≤ toInt
  upper : toInt < 0x10000000000000000
  deriving DecidableEq

namespace Whole

def ofInt? (n : Int) : Option Whole :=
  if h : -0x8000000000000000 ≤ n ∧ n < 0x10000000000000000 then some ⟨n, h.1, h.2⟩ else none

def zero : Whole := ⟨0, by decide, by decide⟩

def ofInt64 (n : Int64) : Whole :=
  ⟨n.toInt, n.le_toInt, Int.lt_trans n.toInt_lt (by decide)⟩

def ofUInt64 (n : UInt64) : Whole :=
  ⟨n.toNat, by omega, by have := n.toNat_lt; omega⟩

theorem ofInt?_toInt (n : Whole) : ofInt? n.toInt = some n := by
  have bounds : -0x8000000000000000 ≤ n.toInt ∧ n.toInt < 0x10000000000000000 := ⟨n.lower, n.upper⟩
  rw [ofInt?, dif_pos bounds]

def text (n : Whole) : List Char :=
  if n.toInt < 0 then '-' :: Nat.toDigits 10 n.toInt.natAbs else Nat.toDigits 10 n.toInt.natAbs

end Whole

inductive Number
  | whole (n : Whole)
  | real (x : Binary64.Finite)
  deriving DecidableEq

namespace Number

def same : Number → Number → Bool
  | .whole a, .whole b => a == b
  | .real x, .real y => x.same y
  | _, _ => false

theorem same_refl (a : Number) : a.same a = true := by
  cases a <;> simp [same, Binary64.Finite.same_refl]

def text : Number → List Char
  | .whole n => n.text
  | .real x => x.text

end Number

inductive Doc
  | null
  | bool (b : Bool)
  | number (n : Number)
  | text (s : String)
  | array (items : List Doc)
  | object (members : List (String × Doc))

namespace Doc

mutual
def same : Doc → Doc → Bool
  | .null, .null => true
  | .bool a, .bool b => a == b
  | .number a, .number b => a.same b
  | .text a, .text b => a == b
  | .array a, .array b => sameItems a b
  | .object a, .object b => sameMembers a b
  | _, _ => false

def sameItems : List Doc → List Doc → Bool
  | [], [] => true
  | a :: as, b :: bs => a.same b && sameItems as bs
  | _, _ => false

def sameMembers : List (String × Doc) → List (String × Doc) → Bool
  | [], [] => true
  | (n, a) :: as, (m, b) :: bs => n == m && a.same b && sameMembers as bs
  | _, _ => false
end

mutual
def ordered : Doc → Bool
  | .array items => orderedItems items
  | .object members => orderedMembers members
  | _ => true

def orderedItems : List Doc → Bool
  | [] => true
  | d :: more => d.ordered && orderedItems more

def orderedMembers : List (String × Doc) → Bool
  | [] => true
  | (name, d) :: more =>
    d.ordered && (more.head?.all fun next => name < next.1) && orderedMembers more
end

def putNew (name : String) (d : Doc) : List (String × Doc) → List (String × Doc)
  | [] => [(name, d)]
  | (key, old) :: rest =>
    if name < key then (name, d) :: (key, old) :: rest
    else if name = key then (key, old) :: rest
    else (key, old) :: putNew name d rest

mutual
/-- Puts the members of every object in order; of repeated names the last member stays. -/
def arrange : Doc → Doc
  | .array items => .array (arrangeItems items)
  | .object members => .object (arrangeMembers members)
  | .null => .null
  | .bool b => .bool b
  | .number n => .number n
  | .text s => .text s

def arrangeItems : List Doc → List Doc
  | [] => []
  | d :: more => d.arrange :: arrangeItems more

def arrangeMembers : List (String × Doc) → List (String × Doc)
  | [] => []
  | (name, d) :: more => putNew name d.arrange (arrangeMembers more)
end

end Doc
end Waybill
