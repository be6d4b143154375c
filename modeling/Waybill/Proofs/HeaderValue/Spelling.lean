import Waybill.HeaderValue.Encoding
import Waybill.Proofs.Json.Form
import Waybill.Proofs.MessageId.Text

/-! The spellings of a header value. The object with its type and its content may have the two in either order among
other members, or be the list of the two; null may go without its content. A value reads back however it and the values
in its lists are spelled, and reads alike as it comes and again after it was read whole, so that a value in front of its
type makes no difference. -/
namespace Waybill

namespace HeaderValue

def sides (members : List (String × Doc)) : List (String × Doc) :=
  members.filter fun member => member.1 = "type" ∨ member.1 = "value"

mutual
/-- What a spelling has for the type of a value and for its content. -/
inductive Content : HeaderValue → String → Doc → Prop
  | null : Content .null "Null" .null
  | bool (b : Bool) : Content (.bool b) "Bool" (.bool b)
  | int (n : Int64) : Content (.int n) "Int" (.number (.whole (Whole.ofInt64 n)))
  | str (s : String) : Content (.str s) "Str" (.text s)
  | id (x : MessageId) : Content (.id x) "Id" (.text x.text)
  | list {items : List HeaderValue} {ds : List Doc} (each : SpelledAll items ds) :
      Content (.list items) "List" (.array ds)
  | json (j : Json) : Content (.json j) "Json" j.doc

/-- The document is one of the value's spellings. -/
inductive Spelled : HeaderValue → Doc → Prop
  | bare {members : List (String × Doc)} (counted : sides members = [("type", .text "Null")]) :
      Spelled .null (.object members)
  | object {v : HeaderValue} {name : String} {d : Doc} {members : List (String × Doc)} (content : Content v name d)
      (counted : sides members = [("type", .text name), ("value", d)]) : Spelled v (.object members)
  | reversed {v : HeaderValue} {name : String} {d : Doc} {members : List (String × Doc)} (content : Content v name d)
      (counted : sides members = [("value", d), ("type", .text name)]) : Spelled v (.object members)
  | pair {v : HeaderValue} {name : String} {d : Doc} (content : Content v name d) : Spelled v (.array [.text name, d])

inductive SpelledAll : List HeaderValue → List Doc → Prop
  | nil : SpelledAll [] []
  | cons {v : HeaderValue} {d : Doc} {items : List HeaderValue} {ds : List Doc} (first : Spelled v d)
      (others : SpelledAll items ds) : SpelledAll (v :: items) (d :: ds)
end

def Side.name : Side → String
  | .type => "type"
  | .value => "value"

theorem Side.name_injective {a b : Side} (same : a.name = b.name) : a = b := by
  cases a <;> cases b <;> first | rfl | exact absurd same (by decide)

theorem exists_side_or (name : String) : (∃ side : Side, name = side.name) ∨ name ≠ "type" ∧ name ≠ "value" := by
  by_cases type : name = "type"
  · exact .inl ⟨.type, type⟩
  · by_cases value : name = "value"
    · exact .inl ⟨.value, value⟩
    · exact .inr ⟨type, value⟩

section Members

variable {d : Doc} {members tail : List (String × Doc)}

theorem sides_side (side : Side) (d : Doc) (members : List (String × Doc)) :
    sides ((side.name, d) :: members) = (side.name, d) :: sides members := by
  cases side <;> rfl

theorem sides_other {name : String} (other : name ≠ "type" ∧ name ≠ "value") (d : Doc)
    (members : List (String × Doc)) : sides ((name, d) :: members) = sides members := by
  simp only [sides, List.filter_cons, other.1, other.2, or_self, decide_false, Bool.false_eq_true, if_false]

theorem nextSide_side (side : Side) (d : Draft) (more : Members) :
    nextSide (.member (.clean side.name) d more) = .ok (some (side, d, more)) := by
  cases side <;> rfl

theorem nextSide_other {name : String} (other : name ≠ "type" ∧ name ≠ "value") (d : Doc) (more : Members) :
    nextSide (.member (.clean name) (Draft.ofDoc d) more) = nextSide more := by
  rw [nextSide, if_neg other.1, if_neg other.2, Draft.skipping_ofDoc]

theorem nextSide_eq_none (counted : sides members = []) : nextSide (Members.ofDocs members) = .ok none := by
  induction members with
  | nil => rfl
  | cons head more ih =>
    obtain ⟨name, e⟩ := head
    rw [Members.ofDocs]
    rcases exists_side_or name with ⟨side, rfl⟩ | other
    · rw [sides_side] at counted
      cases counted
    · rw [sides_other other] at counted
      rw [nextSide_other other, ih counted]

theorem exists_nextSide (side : Side) (counted : sides members = (side.name, d) :: tail) :
    ∃ rest, sides rest = tail ∧
      nextSide (Members.ofDocs members) = .ok (some (side, Draft.ofDoc d, Members.ofDocs rest)) := by
  induction members with
  | nil => cases counted
  | cons head more ih =>
    obtain ⟨name, e⟩ := head
    rw [Members.ofDocs]
    rcases exists_side_or name with ⟨own, rfl⟩ | other
    · rw [sides_side] at counted
      obtain ⟨same, rfl⟩ := List.cons.inj counted
      obtain ⟨named, rfl⟩ := Prod.mk.inj same
      obtain rfl := Side.name_injective named
      exact ⟨more, rfl, nextSide_side own _ _⟩
    · rw [sides_other other] at counted
      obtain ⟨rest, left, next⟩ := ih counted
      exact ⟨rest, left, (nextSide_other other _ _).trans next⟩

theorem depth_sides (members : List (String × Doc)) : Doc.depthMembers (sides members) ≤ Doc.depthMembers members := by
  induction members with
  | nil => exact Nat.le_refl _
  | cons head more ih =>
    obtain ⟨name, e⟩ := head
    rcases exists_side_or name with ⟨side, rfl⟩ | other
    · rw [sides_side, Doc.depthMembers, Doc.depthMembers]
      omega
    · rw [sides_other other, Doc.depthMembers]
      omega

end Members

def shapedAt (room : Nat) (pass : Shape.Pass) (shape : Shape) (d : Draft) : Except ReadError HeaderValue :=
  match room with
  | 0 => readShaped (fun _ => .error (.fault .malformed)) 0 shape d
  | inner + 1 => readShaped (readIn pass inner) (inner + 1) shape d

theorem readIn_object (pass : Shape.Pass) (room : Nat) (members : Members) :
    readIn pass (room + 1) (.object members) = readMembers pass room (shapedAt room) members := by
  cases room <;> rfl

theorem readIn_array (pass : Shape.Pass) (room : Nat) (items : Items) :
    readIn pass (room + 1) (.array items) = readPair pass (shapedAt room) items := by
  cases room <;> rfl

def Reads (v : HeaderValue) (name : String) (d : Doc) : Prop :=
  ∃ shape, Shape.known.lookup name = some shape ∧
    ∀ pass room, d.depth ≤ room → shapedAt room pass shape (Draft.ofDoc d) = .ok v

theorem Shape.read_text {name : String} {shape : Shape} (named : known.lookup name = some shape) (pass : Pass)
    (room : Nat) : Shape.read pass room (Draft.ofDoc (.text name)) = .ok shape := by
  cases pass <;> simp only [Draft.ofDoc, Shape.read, Read.choice, Read.variant, named]

theorem place_item {α : Type} {read : Draft → Except ReadError α} {d : Draft} {a : α} (value : read d = .ok a)
    (index : Nat) (expected : String) (more : Items) :
    Read.place index expected read (.item d more) = .ok (a, more) := by
  simp only [Read.place, Items.next?, bind, Except.bind, value]
  rfl

section Spellings

variable {v : HeaderValue} {name : String} {d : Doc} {members : List (String × Doc)} (reads : Reads v name d)
include reads

theorem Reads.object (counted : sides members = [("type", .text name), ("value", d)]) (pass : Shape.Pass) {room : Nat}
    (levels : Doc.depthMembers members ≤ room) :
    readMembers pass room (shapedAt room) (Members.ofDocs members) = .ok v := by
  obtain ⟨shape, named, value⟩ := reads
  have depth := depth_sides members
  simp only [counted, Doc.depthMembers, Doc.depth] at depth
  obtain ⟨more, counted, type⟩ := exists_nextSide .type counted
  obtain ⟨rest, counted, content⟩ := exists_nextSide .value counted
  have done := nextSide_eq_none counted
  simp only [readMembers, sidesDone, type, content, done, bind, Except.bind, Shape.read_text named,
    value pass room (show d.depth ≤ room by omega)]
  rfl

theorem Reads.reversed (counted : sides members = [("value", d), ("type", .text name)]) (pass : Shape.Pass) {room : Nat}
    (levels : Doc.depthMembers members ≤ room) :
    readMembers pass room (shapedAt room) (Members.ofDocs members) = .ok v := by
  obtain ⟨shape, named, value⟩ := reads
  have depth := depth_sides members
  simp only [counted, Doc.depthMembers, Doc.depth] at depth
  obtain ⟨more, counted, content⟩ := exists_nextSide .value counted
  obtain ⟨rest, counted, type⟩ := exists_nextSide .type counted
  have done := nextSide_eq_none counted
  simp only [readMembers, sidesDone, type, content, done, bind, Except.bind, Shape.read_text named,
    Doc.read_ofDoc d (show d.depth ≤ room by omega), value .again room (show d.depth ≤ room by omega)]
  rfl

theorem Reads.pair (pass : Shape.Pass) {room : Nat} (levels : d.depth ≤ room) :
    readPair pass (shapedAt room) (Items.ofDocs [.text name, d]) = .ok v := by
  obtain ⟨shape, named, value⟩ := reads
  have type : Shape.readFirst pass (Draft.ofDoc (.text name)) = .ok shape := by
    cases pass <;> simp only [Draft.ofDoc, Shape.readFirst, Read.variant, named]
  simp only [readPair, Items.ofDocs, place_item type, place_item (value pass room levels), bind, Except.bind]
  cases pass <;> rfl

end Spellings

theorem Spelled.readIn {v : HeaderValue} {d : Doc} (spelled : Spelled v d)
    (reads : ∀ {name c}, Content v name c → Reads v name c) (pass : Shape.Pass) {room : Nat} (levels : d.depth ≤ room) :
    readIn pass room (Draft.ofDoc d) = .ok v := by
  obtain ⟨room, rfl⟩ : ∃ inner, room = inner + 1 := by
    refine Nat.exists_eq_add_of_le' (Nat.le_trans ?_ levels)
    cases spelled <;> exact Nat.le_add_left 1 _
  cases spelled with
  | bare counted =>
    obtain ⟨rest, counted, type⟩ := exists_nextSide .type counted
    have done := nextSide_eq_none counted
    have named : Shape.known.lookup "Null" = some .null := rfl
    rw [Draft.ofDoc, readIn_object]
    simp only [readMembers, type, done, bind, Except.bind, Shape.read_text named, if_true]
    rfl
  | object content counted =>
    rw [Draft.ofDoc, readIn_object]
    exact (reads content).object counted pass (Nat.le_of_succ_le_succ levels)
  | reversed content counted =>
    rw [Draft.ofDoc, readIn_object]
    exact (reads content).reversed counted pass (Nat.le_of_succ_le_succ levels)
  | pair content =>
    have depth := Nat.le_of_succ_le_succ levels
    simp only [Doc.depthItems] at depth
    rw [Draft.ofDoc, readIn_array]
    exact (reads content).pair pass (by omega)

mutual
/-- The induction is on the value: however those in its lists are spelled, its content reads as the value. -/
theorem reads_content (v : HeaderValue) {name : String} {d : Doc} (content : Content v name d) : Reads v name d := by
  cases content with
  | null => exact ⟨.null, rfl, fun _ room _ => by cases room <;> rfl⟩
  | bool b => exact ⟨.bool, rfl, fun _ room _ => by cases room <;> rfl⟩
  | int n =>
    refine ⟨.int, rfl, fun _ room _ => ?_⟩
    have value := congrArg (Except.map HeaderValue.int) (Read.int64_ofInt64 n room)
    cases room <;> exact value
  | str s => exact ⟨.str, rfl, fun _ room _ => by cases room <;> rfl⟩
  | id x =>
    refine ⟨.id, rfl, fun _ room _ => ?_⟩
    have value := congrArg (Except.map HeaderValue.id) (x.read_text room)
    cases room <;> exact value
  | list each =>
    refine ⟨.list, rfl, fun pass room levels => ?_⟩
    obtain ⟨inner, rfl⟩ := Nat.exists_eq_add_of_le' (Nat.le_trans (Nat.le_add_left 1 _) levels)
    exact congrArg (Except.map HeaderValue.list) (readEach_spelled _ each pass (Nat.le_of_succ_le_succ levels))
  | json j =>
    refine ⟨.json, rfl, fun _ room levels => ?_⟩
    have value := congrArg (Except.map HeaderValue.json) (Read.json_ofDoc j levels)
    cases room <;> exact value

theorem readEach_spelled (items : List HeaderValue) {ds : List Doc} (each : SpelledAll items ds) (pass : Shape.Pass)
    {room : Nat} (levels : Doc.depthItems ds ≤ room) :
    (Items.ofDocs ds).readEach (readIn pass room) = .ok items := by
  cases each with
  | nil => rfl
  | cons first others =>
    have ⟨levelsFirst, levelsRest⟩ := Nat.max_le.1 levels
    rw [Items.ofDocs, Items.readEach, first.readIn (reads_content _) pass levelsFirst,
      readEach_spelled _ others pass levelsRest]
    rfl
end

theorem readIn_spelled {v : HeaderValue} {d : Doc} (spelled : Spelled v d) (pass : Shape.Pass) {room : Nat}
    (levels : d.depth ≤ room) : readIn pass room (Draft.ofDoc d) = .ok v :=
  spelled.readIn (reads_content v) pass levels

end HeaderValue
end Waybill
