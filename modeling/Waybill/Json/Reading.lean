import Waybill.Json.Scan

/-! Readers of drafts. A reader is given the number of levels it may still open, and answers with a value or
with the first objection in reading order: a fault of the text, or something well written that does not fit. -/
namespace Waybill

inductive Found
  | null
  | bool (b : Bool)
  | number (n : Number)
  | text (s : String)
  | sequence
  | map

def Found.describe : Found → String
  | .null => "null"
  | .bool b => "boolean `" ++ toString b ++ "`"
  | .number (.whole n) => "integer `" ++ String.ofList n.text ++ "`"
  | .number (.real x) => "floating point `" ++ String.ofList x.text ++ "`"
  | .text s => "string " ++ Text.quoted s
  | .sequence => "sequence"
  | .map => "map"

inductive ReadError
  | fault (f : Fault)
  | wrongType (found : Found) (expected : String)
  | wrongValue (found : Found) (expected : String)
  | wrongLength (length : Nat) (expected : String)
  | missingField (name : String)
  | duplicateField (name : String)
  | unknownVariant (name : String) (known : List String)
  | refused (message : String)

namespace ReadError

def listed : List String → String
  | [] => "there are no variants"
  | [a] => "expected `" ++ a ++ "`"
  | [a, b] => "expected `" ++ a ++ "` or `" ++ b ++ "`"
  | many => "expected one of " ++ String.intercalate ", " (many.map fun a => "`" ++ a ++ "`")

def message? : ReadError → Option String
  | .fault _ => none
  | .wrongType found expected => some ("invalid type: " ++ found.describe ++ ", expected " ++ expected)
  | .wrongValue found expected => some ("invalid value: " ++ found.describe ++ ", expected " ++ expected)
  | .wrongLength length expected =>
    some ("invalid length " ++ toString length ++ ", expected " ++ expected)
  | .missingField name => some ("missing field `" ++ name ++ "`")
  | .duplicateField name => some ("duplicate field `" ++ name ++ "`")
  | .unknownVariant name known => some ("unknown variant `" ++ name ++ "`, " ++ listed known)
  | .refused message => some message

end ReadError

inductive ReadError.Category
  | unfinished
  | malformed
  | unfit
  deriving DecidableEq

def ReadError.category : ReadError → Category
  | .fault .unfinished => .unfinished
  | .fault .malformed => .malformed
  | _ => .unfit

abbrev Reader (α : Type) := (room : Nat) → Draft → Except ReadError α

namespace Draft

def found : Draft → Except Fault Found
  | .null => .ok .null
  | .bool b => .ok (.bool b)
  | .number n => .ok (.number n)
  | .text (.clean s) => .ok (.text s)
  | .text (.spoiled reading _) => .error reading
  | .scrap reading _ => .error reading
  | .absent fault => .error fault
  | .array _ => .ok .sequence
  | .object _ => .ok .map

def mismatch (d : Draft) (expected : String) : ReadError :=
  match d.found with
  | .ok found => .wrongType found expected
  | .error fault => .fault fault

end Draft

namespace Read

def unit : Reader Unit
  | _, .null => .ok ()
  | _, d => .error (d.mismatch "unit")

def bool : Reader Bool
  | _, .bool b => .ok b
  | _, d => .error (d.mismatch "a boolean")

def string : Reader String
  | _, .text (.clean s) => .ok s
  | _, d => .error (d.mismatch "a string")

def whole (low high : Int) (expected : String) : Reader Int
  | _, .number (.whole n) =>
    if low ≤ n.toInt ∧ n.toInt ≤ high then .ok n.toInt
    else .error (.wrongValue (.number (.whole n)) expected)
  | _, d => .error (d.mismatch expected)

def int64 : Reader Int64 := fun room d =>
  (whole (-0x8000000000000000) 0x7FFFFFFFFFFFFFFF "i64" room d).map Int64.ofInt

def int32 : Reader Int32 := fun room d =>
  (whole (-0x80000000) 0x7FFFFFFF "i32" room d).map Int32.ofInt

def uint64 : Reader UInt64 := fun room d =>
  (whole 0 0xFFFFFFFFFFFFFFFF "u64" room d).map fun n => UInt64.ofNat n.toNat

def uint32 : Reader UInt32 := fun room d =>
  (whole 0 0xFFFFFFFF "u32" room d).map fun n => UInt32.ofNat n.toNat

def uint8 : Reader UInt8 := fun room d =>
  (whole 0 0xFF "u8" room d).map fun n => UInt8.ofNat n.toNat

def binary64 : Reader Binary64
  | _, .number (.real x) => .ok (.finite x)
  | _, .number (.whole n) =>
    match Binary64.Finite.ofNat? (n.toInt < 0) n.toInt.natAbs with
    | some x => .ok (.finite x)
    | none => .ok (.infinite (n.toInt < 0))
  | _, d => .error (d.mismatch "f64")

def json : Reader Json := fun room d =>
  match d.read room with
  | .ok doc => .ok (Json.ofDoc doc)
  | .error fault => .error (.fault fault)

end Read

def Items.readEach {α : Type} (element : Draft → Except ReadError α) :
    Items → Except ReadError (List α)
  | .closed => .ok []
  | .broken fault => .error (.fault fault)
  | .dangling fault => .error (.fault fault)
  | .item d more => do return (← element d) :: (← more.readEach element)

def Items.next? : Items → Except ReadError (Option (Draft × Items))
  | .closed => .ok none
  | .broken fault => .error (.fault fault)
  | .dangling fault => .error (.fault fault)
  | .item d more => .ok (some (d, more))

/-- A list whose elements have all been taken must end; a comma is out of place whatever follows. -/
def Items.finish : Items → Except ReadError Unit
  | .closed => .ok ()
  | .broken fault => .error (.fault fault)
  | _ => .error (.fault .malformed)

/-- Every member through one reader; a repeated name is read again, and the last value stays. -/
def Members.readEach {α : Type} (value : Draft → Except ReadError α) :
    Members → Except ReadError (List (String × α))
  | .closed => .ok []
  | .broken fault => .error (.fault fault)
  | .dangling fault => .error (.fault fault)
  | .member (.spoiled reading _) _ _ => .error (.fault reading)
  | .member (.clean name) d more => do return (name, ← value d) :: (← more.readEach value)

/-- Takes the members one by one into a record under construction. A name that the record does not know is
skipped. -/
def Members.fold {σ : Type} (take : String → σ → Draft → Option (Except ReadError σ)) (state : σ) :
    Members → Except ReadError σ
  | .closed => .ok state
  | .broken fault => .error (.fault fault)
  | .dangling fault => .error (.fault fault)
  | .member (.spoiled reading _) _ _ => .error (.fault reading)
  | .member (.clean name) d more =>
    match take name state d with
    | some step => do more.fold take (← step)
    | none =>
      match d.skipping with
      | some fault => .error (.fault fault)
      | none => more.fold take state

namespace Read

def opened {α : Type} (room : Nat) (inside : Nat → Except ReadError α) : Except ReadError α :=
  match room with
  | 0 => .error (.fault .malformed)
  | room + 1 => inside room

def list {α : Type} (element : Reader α) : Reader (List α)
  | room, .array items => opened room fun room => items.readEach (element room)
  | _, d => .error (d.mismatch "a sequence")

def map {α : Type} (value : Reader α) : Reader (NameMap α)
  | room, .object members =>
    opened room fun room => (members.readEach (value room)).map NameMap.ofList
  | _, d => .error (d.mismatch "a map")

/-- Sets one field of a record under construction; a second value for it is refused before it is read. -/
def field {α σ : Type} (name : String) (old : Option α) (read : Except ReadError α)
    (set : α → σ) : Except ReadError σ :=
  match old with
  | some _ => .error (.duplicateField name)
  | none => read.map set

def required {α : Type} (name : String) : Option α → Except ReadError α
  | some a => .ok a
  | none => .error (.missingField name)

def place {α : Type} (index : Nat) (expected : String) (read : Draft → Except ReadError α)
    (items : Items) : Except ReadError (α × Items) := do
  match ← items.next? with
  | some (d, more) => return (← read d, more)
  | none => .error (.wrongLength index expected)

def variant {α : Type} (known : List (String × α)) (name : String) : Except ReadError α :=
  match known.lookup name with
  | some a => .ok a
  | none => .error (.unknownVariant name (known.map Prod.fst))

/-- A choice among names: the name as a string, or as the only member of an object, with null under it. -/
def choice {α : Type} (known : List (String × α)) : Reader α
  | _, .text (.clean name) => variant known name
  | _, .text (.spoiled reading _) => .error (.fault reading)
  | _, .absent fault => .error (.fault fault)
  | room, .object members => opened room fun room =>
    match members with
    | .member (.clean name) d more => do
      let chosen ← variant known name
      unit room d
      match more with
      | .closed => return chosen
      | .broken fault => .error (.fault fault)
      | _ => .error (.fault .malformed)
    | .member (.spoiled reading _) _ _ => .error (.fault reading)
    | .broken fault => .error (.fault fault)
    | _ => .error (.fault .malformed)
  | _, _ => .error (.fault .malformed)

def levels : Nat := 127

def text {α : Type} (read : Reader α) (s : String) : Except ReadError α :=
  let (d, rest) := Draft.scan s.toList
  do
    let a ← read levels d
    if (Scan.skipBlanks rest).isEmpty then return a else .error (.fault .malformed)

end Read
end Waybill
