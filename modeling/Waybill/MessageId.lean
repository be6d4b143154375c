import Waybill.Json.Reading

/-! Identities of messages: 128 bits, of which the upper 48 are milliseconds and the lower 80 are random, so
that identities made later compare greater while the milliseconds do. Their text is 26 digits in base 32, most
significant first, from an alphabet without I, L, O and U; either case is read. The first digit has five bits
where only three are left, and its two upper bits are dropped in reading. -/
namespace Waybill

structure MessageId where
  number : Nat
  number_lt : number < 0x100000000000000000000000000000000
  deriving DecidableEq

inductive MessageId.TextError
  | length
  | character
  deriving DecidableEq

namespace MessageId

instance : LT MessageId := ⟨fun a b => a.number < b.number⟩
instance (a b : MessageId) : Decidable (a < b) := Nat.decLt a.number b.number

theorem ext_number {a b : MessageId} (h : a.number = b.number) : a = b := by
  cases a; cases b; cases h; rfl

def ofNumber (n : Nat) : MessageId := ⟨n % 0x100000000000000000000000000000000, Nat.mod_lt _ (by decide)⟩

theorem ofNumber_number (x : MessageId) : ofNumber x.number = x :=
  ext_number (Nat.mod_eq_of_lt x.number_lt)

def ofParts (millis random : Nat) : MessageId where
  number := (millis % 0x1000000000000) * 0x100000000000000000000 + random % 0x100000000000000000000
  number_lt := by omega

def millis (x : MessageId) : Nat := x.number / 0x100000000000000000000

/-- The identity made at an instant. The instant is taken as an unsigned 64-bit word. -/
def generated (now : Int) (random : Nat) : MessageId := ofParts (now % 0x10000000000000000).toNat random

def alphabet : List Char :=
  ['0', '1', '2', '3', '4', '5', '6', '7', '8', '9', 'A', 'B', 'C', 'D', 'E', 'F', 'G', 'H', 'J', 'K', 'M',
    'N', 'P', 'Q', 'R', 'S', 'T', 'V', 'W', 'X', 'Y', 'Z']

def digit (n : Nat) : Char := alphabet.getD (n % 32) '0'

def digitValue? (c : Char) : Option Nat := alphabet.idxOf? c.toUpper

def digits : (places : Nat) → Nat → List Char
  | 0, _ => []
  | places + 1, n => digit (n / Nat.pow 32 places) :: digits places n

theorem length_digits (places n : Nat) : (digits places n).length = places := by
  induction places with
  | zero => rfl
  | succ places ih => simp [digits, ih]

def text (x : MessageId) : String := String.ofList (digits 26 x.number)

def value? (total : Nat) : List Char → Option Nat
  | [] => some total
  | c :: rest => (digitValue? c).bind fun d => value? (total * 32 + d) rest

def ofText (s : String) : Except TextError MessageId :=
  if s.utf8ByteSize ≠ 26 then .error .length
  else
    match value? 0 s.toList with
    | some n => .ok (ofNumber n)
    | none => .error .character

def display (x : MessageId) : String := "msg-" ++ x.text

def describe (x : MessageId) : String := "MessageId(Ulid(" ++ toString x.number ++ "))"

def TextError.message : TextError → String
  | .length => "invalid length"
  | .character => "invalid character"

def read : Reader MessageId := fun room d => do
  match ofText (← Read.string room d) with
  | .ok x => return x
  | .error e => .error (.refused e.message)

def sort (ids : List MessageId) : List MessageId := ids.mergeSort fun a b => a.number ≤ b.number

end MessageId
end Waybill
