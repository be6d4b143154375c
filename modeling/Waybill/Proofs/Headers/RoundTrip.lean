import Waybill.Headers
import Waybill.Proofs.HeaderValue.RoundTrip

/-! Headers and their written form. They are written as long as no value holds a channel, and what is written reads back
as the same headers: the members come in ascending order, each name once, so that none takes another's place. -/
namespace Waybill.Headers

theorem isSome_membersDoc? (entries : List (String × HeaderValue)) :
    (membersDoc? entries).isSome = entries.all fun entry => !entry.2.hasChannel := by
  induction entries with
  | nil => rfl
  | cons entry more ih =>
    rw [List.all_cons, ← ih, ← entry.2.isSome_doc?, membersDoc?]
    cases entry.2.doc? <;> cases membersDoc? more <;> rfl

def Portable (h : Headers) : Prop := ∀ name v, h.get? name = some v → v.hasChannel = false

def Whole (h : Headers) : Prop := ∀ name v, h.get? name = some v → v.isWhole = true

theorem isSome_doc?_iff (h : Headers) : h.doc?.isSome = true ↔ h.Portable := by
  rw [doc?, Option.isSome_map, isSome_membersDoc?, List.all_eq_true, Portable, NameMap.forall_get?_iff]
  simp only [Bool.not_eq_true']

theorem isSome_text?_iff (h : Headers) : h.text?.isSome = true ↔ h.Portable := by
  rw [text?, Option.isSome_map]
  exact h.isSome_doc?_iff

theorem membersDoc?_cons {entry : String × HeaderValue} {more : List (String × HeaderValue)}
    {members : List (String × Doc)} (written : membersDoc? (entry :: more) = some members) :
    ∃ d rest, members = (entry.1, d) :: rest ∧ entry.2.doc? = some d ∧ membersDoc? more = some rest := by
  rw [membersDoc?] at written
  obtain ⟨d, first, written⟩ := Option.bind_eq_some_iff.1 written
  obtain ⟨rest, others, written⟩ := Option.bind_eq_some_iff.1 written
  exact ⟨d, rest, (Option.some.inj written).symm, first, others⟩

theorem isWhole_membersDoc {entries : List (String × HeaderValue)} {members : List (String × Doc)}
    (written : membersDoc? entries = some members) (whole : ∀ entry ∈ entries, entry.2.isWhole = true) :
    Doc.isWholeMembers members = true := by
  induction entries generalizing members with
  | nil =>
    cases written
    rfl
  | cons entry more ih =>
    obtain ⟨d, rest, rfl, first, others⟩ := membersDoc?_cons written
    rw [Doc.isWholeMembers, Bool.and_eq_true]
    exact ⟨entry.2.isWhole_doc first (whole entry List.mem_cons_self),
      ih others fun other member => whole other (List.mem_cons_of_mem entry member)⟩

theorem readEach_membersDoc {entries : List (String × HeaderValue)} {members : List (String × Doc)} {room : Nat}
    (written : membersDoc? entries = some members) (levels : Doc.depthMembers members ≤ room) :
    (Members.ofDocs members).readEach (HeaderValue.read room) = .ok entries := by
  induction entries generalizing members with
  | nil =>
    cases written
    rfl
  | cons entry more ih =>
    obtain ⟨d, rest, rfl, first, others⟩ := membersDoc?_cons written
    have ⟨levelsFirst, levelsRest⟩ := Nat.max_le.1 levels
    have value : HeaderValue.read room (Draft.ofDoc d) = .ok entry.2 := entry.2.readIn_doc first levelsFirst
    rw [Members.ofDocs, Members.readEach, value, ih others levelsRest]
    rfl

section Written

variable {h : Headers} {d : Doc} (written : h.doc? = some d)
include written

theorem isWhole_doc (whole : h.Whole) : d.isWhole = true := by
  obtain ⟨members, entries, rfl⟩ := Option.map_eq_some_iff.1 written
  exact isWhole_membersDoc entries (NameMap.forall_get?_iff.1 whole)

theorem read_doc {room : Nat} (levels : d.depth ≤ room) : read room (Draft.ofDoc d) = .ok h := by
  obtain ⟨members, entries, rfl⟩ := Option.map_eq_some_iff.1 written
  obtain ⟨inner, rfl⟩ := Nat.exists_eq_add_of_le' (Nat.le_trans (Nat.le_add_left 1 _) levels)
  have inside := readEach_membersDoc entries (Nat.le_of_succ_le_succ levels)
  change ((Members.ofDocs members).readEach (HeaderValue.read inner)).map NameMap.ofList = .ok h
  rw [inside]
  exact congrArg Except.ok h.ofList_entries

theorem read_text (whole : h.Whole) (levels : d.depth < 128) : Read.text read d.compact = .ok h := by
  rw [Read.text_compact, d.draft_eq (isWhole_doc written whole)]
  exact read_doc written (Nat.le_of_lt_succ levels)

end Written

end Waybill.Headers
