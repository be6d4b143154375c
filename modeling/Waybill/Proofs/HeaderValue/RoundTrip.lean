import Waybill.Proofs.HeaderValue.Spelling

/-! Header values and their written forms. Only a channel, at any depth of the lists, keeps a value from being written.
What is written is one of the value's spellings, and any text of any of them reads back as the value, provided there is
room for its levels. The type's name decides how the content is read, so that null and the null document, a number and a
document that is one, an identity and its text, a list and a document that is one stay apart. -/
namespace Waybill

namespace HeaderValue

mutual
def hasChannel : HeaderValue → Bool
  | .channel _ => true
  | .list items => hasChannelItems items
  | _ => false

def hasChannelItems : List HeaderValue → Bool
  | [] => false
  | v :: more => v.hasChannel || hasChannelItems more
end

mutual
def isWhole : HeaderValue → Bool
  | .json j => j.doc.isWhole
  | .list items => isWholeItems items
  | _ => true

def isWholeItems : List HeaderValue → Bool
  | [] => true
  | v :: more => v.isWhole && isWholeItems more
end

mutual
theorem isSome_doc? (v : HeaderValue) : v.doc?.isSome = !v.hasChannel := by
  cases v with
  | list items => rw [doc?, Option.isSome_map, isSome_docs? items, hasChannel]
  | _ => rfl

theorem isSome_docs? (items : List HeaderValue) : (docs? items).isSome = !hasChannelItems items := by
  cases items with
  | nil => rfl
  | cons v more =>
    rw [hasChannelItems, Bool.not_or, ← isSome_doc? v, ← isSome_docs? more, docs?]
    cases v.doc? <;> cases docs? more <;> rfl
end

def pair (name : String) (d : Doc) : Doc := .object [("type", .text name), ("value", d)]

theorem isWhole_pair (name : String) (d : Doc) : (pair name d).isWhole = d.isWhole := by
  simp [pair, Doc.isWhole, Doc.isWholeMembers]

theorem docs?_cons {v : HeaderValue} {more : List HeaderValue} {ds : List Doc} (written : docs? (v :: more) = some ds) :
    ∃ d rest, ds = d :: rest ∧ v.doc? = some d ∧ docs? more = some rest := by
  rw [docs?] at written
  obtain ⟨d, first, written⟩ := Option.bind_eq_some_iff.1 written
  obtain ⟨rest, others, written⟩ := Option.bind_eq_some_iff.1 written
  exact ⟨d, rest, (Option.some.inj written).symm, first, others⟩

mutual
theorem isWhole_doc (v : HeaderValue) {d : Doc} (written : v.doc? = some d) (whole : v.isWhole = true) :
    d.isWhole = true := by
  cases v with
  | json j =>
    cases written
    exact (isWhole_pair _ _).trans whole
  | list items =>
    obtain ⟨ds, elements, rfl⟩ := Option.map_eq_some_iff.1 written
    exact (isWhole_pair _ _).trans (isWhole_docs items elements whole)
  | channel c => cases written
  | _ =>
    cases written
    rfl

theorem isWhole_docs (items : List HeaderValue) {ds : List Doc} (written : docs? items = some ds)
    (whole : isWholeItems items = true) : Doc.isWholeItems ds = true := by
  cases items with
  | nil =>
    cases written
    rfl
  | cons v more =>
    obtain ⟨d, rest, rfl, first, others⟩ := docs?_cons written
    rw [isWholeItems, Bool.and_eq_true] at whole
    rw [Doc.isWholeItems, Bool.and_eq_true]
    exact ⟨isWhole_doc v first whole.1, isWhole_docs more others whole.2⟩
end

mutual
theorem spelled_doc (v : HeaderValue) {d : Doc} (written : v.doc? = some d) : Spelled v d := by
  cases v with
  | null =>
    cases written
    exact .bare rfl
  | bool b =>
    cases written
    exact .object (.bool b) rfl
  | int n =>
    cases written
    exact .object (.int n) rfl
  | str s =>
    cases written
    exact .object (.str s) rfl
  | id x =>
    cases written
    exact .object (.id x) rfl
  | list items =>
    obtain ⟨ds, elements, rfl⟩ := Option.map_eq_some_iff.1 written
    exact .object (.list (spelledAll_docs items elements)) rfl
  | json j =>
    cases written
    exact .object (.json j) rfl
  | channel c => cases written

theorem spelledAll_docs (items : List HeaderValue) {ds : List Doc} (written : docs? items = some ds) :
    SpelledAll items ds := by
  cases items with
  | nil =>
    cases written
    exact .nil
  | cons v more =>
    obtain ⟨d, rest, rfl, first, others⟩ := docs?_cons written
    exact .cons (spelled_doc v first) (spelledAll_docs more others)
end

theorem readIn_doc (v : HeaderValue) {d : Doc} (written : v.doc? = some d) {room : Nat} (levels : d.depth ≤ room) :
    readIn .first room (Draft.ofDoc d) = .ok v :=
  readIn_spelled (spelled_doc v written) .first levels

/-- A value without channels, whose documents hold whole numbers, has a text, and every text that spells it is read as
the value: the one it has, and any with other members, contents in front of types, lists of the two in place of objects,
a content for null, or blanks between tokens, at any depth of its lists, while a text may open that many levels. -/
theorem read_text_of_spelled (v : HeaderValue) (portable : v.hasChannel = false) (whole : v.isWhole = true) :
    (∃ d, v.doc? = some d ∧ d.isWhole = true ∧ Spelled v d ∧ Laid (d.tokens []) d.compact.toList) ∧
      ∀ (d : Doc) (s : String), Spelled v d → d.isWhole = true → d.depth < 128 → Laid (d.tokens []) s.toList →
        Read.text read s = .ok v := by
  constructor
  · have written := v.isSome_doc?
    rw [portable, Bool.not_false] at written
    obtain ⟨d, written⟩ := Option.isSome_iff_exists.1 written
    exact ⟨d, written, isWhole_doc v written whole, spelled_doc v written, Laid.compact d⟩
  · intro d s spelled whole levels laid
    rw [Read.text_laid read laid, d.draft_eq whole]
    exact readIn_spelled spelled .first (Nat.le_of_lt_succ levels)

theorem read_text_of_spelled_mixed :
    let inner := "[ [ \"Null\" , null ] , \x7b \"value\" : true , \"type\" : \"Bool\" \x7d ]"
    let s := " \x7b \"x\" : [ -1 ] , \"value\" : " ++ inner ++ " , \"type\" : \"List\" \x7d "
    Read.text read s = .ok (.list [.null, .bool true]) := by
  intro inner s
  let d : Doc := .object [("x", .array [.number (.whole ⟨-1, by decide, by decide⟩)]),
    ("value", .array [.array [.text "Null", .null], .object [("value", .bool true), ("type", .text "Bool")]]),
    ("type", .text "List")]
  have spelled : Spelled (.list [.null, .bool true]) d :=
    .reversed (.list (.cons (.pair .null) (.cons (.reversed (.bool true) rfl) .nil))) rfl
  have laid : Laid (d.tokens []) s.toList := by
    have text : s.toList = Token.spaced [' '] (d.tokens []) := by decide +kernel
    rw [text]
    exact .spaced (List.forall_mem_singleton.2 rfl) _
  exact (read_text_of_spelled _ rfl rfl).2 d s spelled rfl (by decide) laid

end HeaderValue
end Waybill
