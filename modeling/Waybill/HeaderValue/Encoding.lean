import Waybill.HeaderValue.Basic
import Waybill.Json.Compact

/-! The written form of a header value: an object with its type and its value, or its type alone for null. A
channel lives in one process and has no written form. Reading accepts the two members in either order among
others, and the list of the two. When the value comes first it is read whole before its type is known, and is
then held to the rules for values already read: inside it a list in place of an object may name its type by
number, and must have no third element. -/
namespace Waybill

inductive HeaderValue.Shape
  | null
  | bool
  | int
  | str
  | id
  | list
  | json
  deriving DecidableEq

namespace HeaderValue

mutual
/-- `none` when there is a channel in the value, at any depth. -/
def doc? : HeaderValue → Option Doc
  | .null => some (.object [("type", .text "Null")])
  | .bool b => some (.object [("type", .text "Bool"), ("value", .bool b)])
  | .int n => some (.object [("type", .text "Int"), ("value", .number (.whole (Whole.ofInt64 n)))])
  | .str s => some (.object [("type", .text "Str"), ("value", .text s)])
  | .id x => some (.object [("type", .text "Id"), ("value", .text x.text)])
  | .list items => (docs? items).map fun ds => .object [("type", .text "List"), ("value", .array ds)]
  | .json j => some (.object [("type", .text "Json"), ("value", j.doc)])
  | .channel _ => none

def docs? : List HeaderValue → Option (List Doc)
  | [] => some []
  | v :: more => do return (← v.doc?) :: (← docs? more)
end

def channelMessage : String := "the enum variant HeaderValue::Channel cannot be serialized"

namespace Shape

def known : List (String × Shape) :=
  [("Null", .null), ("Bool", .bool), ("Int", .int), ("Str", .str), ("Id", .id), ("List", .list), ("Json", .json)]

def expected : String := "adjacently tagged enum HeaderValue"

/-- Whether a value is read as it comes, or again after it was read whole. -/
inductive Pass
  | first
  | again
  deriving DecidableEq

def read (pass : Pass) (room : Nat) (d : Draft) : Except ReadError Shape :=
  match pass with
  | .first => Read.choice known room d
  | .again =>
    match d with
    | .text (.clean name) => Read.variant known name
    | .object (.member (.clean name) d .closed) => do
      let shape ← Read.variant known name
      match d with
      | .object .closed => return shape
      | d => Read.unit room d; return shape
    | .object _ => .error (.wrongValue .map "map with a single key")
    | d => .error (d.mismatch "string or map")

def readFirst (pass : Pass) (d : Draft) : Except ReadError Shape :=
  match pass, d with
  | _, .text (.clean name) => Read.variant known name
  | .again, .number (.whole n) =>
    if n.toInt < 0 then .error (d.mismatch "variant identifier")
    else
      match known[n.toInt.toNat]? with
      | some entry => .ok entry.2
      | none => .error (.wrongValue (.number (.whole n)) "variant index 0 <= i < 7")
  | _, d => .error (d.mismatch "variant identifier")

end Shape

inductive Side
  | type
  | value
  deriving DecidableEq

def nextSide : Members → Except ReadError (Option (Side × Draft × Members))
  | .closed => .ok none
  | .broken fault => .error (.fault fault)
  | .dangling fault => .error (.fault fault)
  | .member (.spoiled reading _) _ _ => .error (.fault reading)
  | .member (.clean name) d more =>
    if name = "type" then .ok (some (.type, d, more))
    else if name = "value" then .ok (some (.value, d, more))
    else
      match d.skipping with
      | some fault => .error (.fault fault)
      | none => nextSide more

def sidesDone (v : HeaderValue) (members : Members) : Except ReadError HeaderValue := do
  match ← nextSide members with
  | none => return v
  | some (.type, _, _) => .error (.duplicateField "type")
  | some (.value, _, _) => .error (.duplicateField "value")

def readShaped (inner : Draft → Except ReadError HeaderValue) (room : Nat) (shape : Shape) (d : Draft) :
    Except ReadError HeaderValue :=
  match shape with
  | .null =>
    match d, room with
    | .null, _ => .ok .null
    | .array _, 0 => .error (.fault .malformed)
    | .object _, 0 => .error (.fault .malformed)
    | d, _ => .error (d.mismatch "unit variant HeaderValue::Null")
  | .bool => (Read.bool room d).map .bool
  | .int => (Read.int64 room d).map .int
  | .str => (Read.string room d).map .str
  | .id => (MessageId.read room d).map .id
  | .list =>
    match d, room with
    | .array _, 0 => .error (.fault .malformed)
    | .array items, _ => (items.readEach inner).map .list
    | d, _ => .error (d.mismatch "a sequence")
  | .json => (Read.json room d).map .json

def readMembers (pass : Shape.Pass) (room : Nat)
    (shaped : Shape.Pass → Shape → Draft → Except ReadError HeaderValue) (members : Members) :
    Except ReadError HeaderValue := do
  match ← nextSide members with
  | none => .error (.missingField "type")
  | some (.type, d, more) =>
    let shape ← Shape.read pass room d
    match ← nextSide more with
    | none => if shape = .null then return .null else .error (.missingField "value")
    | some (.type, _, _) => .error (.duplicateField "type")
    | some (.value, d, more) =>
      let v ← shaped pass shape d
      sidesDone v more
  | some (.value, d, more) =>
    match d.read room with
    | .error fault => .error (.fault fault)
    | .ok _ =>
      match ← nextSide more with
      | none => .error (.missingField "type")
      | some (.value, _, _) => .error (.duplicateField "value")
      | some (.type, t, more) =>
        let shape ← Shape.read pass room t
        let v ← shaped .again shape d
        sidesDone v more

def surplus : Items → Nat
  | .item _ more => surplus more + 1
  | _ => 0

def readPair (pass : Shape.Pass) (shaped : Shape.Pass → Shape → Draft → Except ReadError HeaderValue)
    (items : Items) : Except ReadError HeaderValue := do
  let (shape, more) ← Read.place 0 Shape.expected (Shape.readFirst pass) items
  let (v, more) ← Read.place 1 Shape.expected (shaped pass shape) more
  match pass with
  | .first => more.finish; return v
  | .again =>
    if surplus more = 0 then return v
    else .error (.wrongLength (2 + surplus more) "2 elements in sequence")

def readIn (pass : Shape.Pass) : Reader HeaderValue
  | 0, d =>
    match d with
    | .array _ => .error (.fault .malformed)
    | .object _ => .error (.fault .malformed)
    | d => .error (d.mismatch Shape.expected)
  | room + 1, d =>
    let shaped (pass : Shape.Pass) (shape : Shape) (d : Draft) :=
      match room with
      | 0 => readShaped (fun _ => .error (.fault .malformed)) 0 shape d
      | inner + 1 => readShaped (readIn pass inner) (inner + 1) shape d
    match d with
    | .object members => readMembers pass room shaped members
    | .array items => readPair pass shaped items
    | d => .error (d.mismatch Shape.expected)

def read : Reader HeaderValue := readIn .first

end HeaderValue
end Waybill
