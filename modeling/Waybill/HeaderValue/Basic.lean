import Waybill.MessageId

/-! Header values. Null is a value of its own: written to a header it removes the header, and in a list it
marks what is missing. Values are equal when their trees are, with one exception on each side: the two zeros
inside a document are equal, and a channel equals only itself. -/
namespace Waybill

/-- A channel instance: channels may share a name, instances do not share a handle under it. -/
structure Channel where
  name : String
  handle : Int
  deriving DecidableEq

inductive HeaderValue
  | null
  | bool (b : Bool)
  | int (n : Int64)
  | str (s : String)
  | id (x : MessageId)
  | list (items : List HeaderValue)
  | json (j : Json)
  | channel (c : Channel)

namespace HeaderValue

mutual
def same : HeaderValue → HeaderValue → Bool
  | .null, .null => true
  | .bool a, .bool b => a == b
  | .int a, .int b => a == b
  | .str a, .str b => a == b
  | .id a, .id b => a == b
  | .list a, .list b => sameItems a b
  | .json a, .json b => a == b
  | .channel a, .channel b => a == b
  | _, _ => false

def sameItems : List HeaderValue → List HeaderValue → Bool
  | [], [] => true
  | a :: as, b :: bs => a.same b && sameItems as bs
  | _, _ => false
end

instance : BEq HeaderValue := ⟨same⟩

mutual
theorem same_refl (v : HeaderValue) : v.same v = true := by
  cases v with
  | list items => simp [same, sameItems_refl items]
  | _ => simp [same]

theorem sameItems_refl (items : List HeaderValue) : sameItems items items = true := by
  cases items with
  | nil => rfl
  | cons v more => simp [sameItems, same_refl v, sameItems_refl more]
end

instance : ReflBEq HeaderValue := ⟨fun {v} => same_refl v⟩

/-- A document that is null counts as null too. -/
def isNull : HeaderValue → Bool
  | .null => true
  | .json j => j.isNull
  | _ => false

def bool? : HeaderValue → Option Bool
  | .bool b => some b
  | _ => none

def int? : HeaderValue → Option Int64
  | .int n => some n
  | _ => none

def str? : HeaderValue → Option String
  | .str s => some s
  | _ => none

def id? : HeaderValue → Option MessageId
  | .id x => some x
  | _ => none

def list? : HeaderValue → Option (List HeaderValue)
  | .list items => some items
  | _ => none

def json? : HeaderValue → Option Json
  | .json j => some j
  | _ => none

def channel? : HeaderValue → Option Channel
  | .channel c => some c
  | _ => none

mutual
def describe : HeaderValue → String
  | .null => "Null"
  | .bool b => "Bool(" ++ toString b ++ ")"
  | .int n => "Int(" ++ toString n.toInt ++ ")"
  | .str s => "Str(" ++ Text.quoted s ++ ")"
  | .id x => "Id(" ++ x.describe ++ ")"
  | .list items => "List([" ++ describeItems items ++ "])"
  | .json j => "Json(" ++ j.doc.describe ++ ")"
  | .channel c => "Channel(ChannelRef(" ++ Text.quoted c.name ++ "))"

def describeItems : List HeaderValue → String
  | [] => ""
  | [v] => v.describe
  | v :: more => v.describe ++ ", " ++ describeItems more
end

end HeaderValue

class AsHeader (α : Type) where
  asHeader : α → HeaderValue

export AsHeader (asHeader)

instance : AsHeader HeaderValue := ⟨id⟩
instance : AsHeader Bool := ⟨.bool⟩
instance : AsHeader Int64 := ⟨.int⟩
instance : AsHeader Int32 := ⟨fun n => .int n.toInt64⟩
instance : AsHeader UInt32 := ⟨fun n => .int n.toUInt64.toInt64⟩
instance : AsHeader String := ⟨.str⟩
instance : AsHeader MessageId := ⟨.id⟩
instance : AsHeader (List HeaderValue) := ⟨.list⟩
instance : AsHeader Json := ⟨.json⟩
instance : AsHeader Channel := ⟨.channel⟩

instance {α : Type} [AsHeader α] : AsHeader (Option α) := ⟨fun a => (a.map asHeader).getD .null⟩

end Waybill
