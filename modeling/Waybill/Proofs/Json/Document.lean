import Waybill.Proofs.Binary64.Text

/-! Documents and their drafts. A number that is not whole is drafted as its own text scans; a document whose numbers
are whole says in its text what was written. The draft of a document reads as the document, given room for its levels,
and is skipped without objection. -/
namespace Waybill

namespace Number

def isWhole : Number → Bool
  | .whole _ => true
  | .real _ => false

def draft (n : Number) : Draft := (Scan.scanNumber n.text).1

theorem exists_literal (n : Number) : ∃ l : Scan.Literal, l.Valid ∧ n.text = l.text := by
  cases n with
  | whole n => exact ⟨n.literal, n.valid_literal, n.text_eq_literal⟩
  | real x => exact x.exists_literal

theorem scan_text (n : Number) {rest : List Char} (closed : Scan.Closed rest) :
    Scan.scanNumber (n.text ++ rest) = (n.draft, rest) := by
  obtain ⟨l, valid, written⟩ := n.exists_literal
  have alone := Scan.scanNumber_text Scan.closed_nil valid
  rw [List.append_nil] at alone
  rw [draft, written, alone, Scan.scanNumber_text closed valid]

theorem draft_whole (n : Whole) : (Number.whole n).draft = .number (.whole n) := by
  have alone := Scan.scanNumber_text Scan.closed_nil n.valid_literal
  rw [List.append_nil] at alone
  rw [draft, text, n.text_eq_literal, alone, n.draft_literal]

end Number

namespace Doc

mutual
def depth : Doc → Nat
  | .array items => depthItems items + 1
  | .object members => depthMembers members + 1
  | _ => 0

def depthItems : List Doc → Nat
  | [] => 0
  | d :: more => max d.depth (depthItems more)

def depthMembers : List (String × Doc) → Nat
  | [] => 0
  | (_, d) :: more => max d.depth (depthMembers more)
end

mutual
def isWhole : Doc → Bool
  | .number n => n.isWhole
  | .array items => isWholeItems items
  | .object members => isWholeMembers members
  | _ => true

def isWholeItems : List Doc → Bool
  | [] => true
  | d :: more => d.isWhole && isWholeItems more

def isWholeMembers : List (String × Doc) → Bool
  | [] => true
  | (_, d) :: more => d.isWhole && isWholeMembers more
end

mutual
def draft : Doc → Draft
  | .null => .null
  | .bool b => .bool b
  | .number n => n.draft
  | .text s => .text (.clean s)
  | .array items => .array (draftItems items)
  | .object members => .object (draftMembers members)

def draftItems : List Doc → Items
  | [] => .closed
  | d :: more => .item d.draft (draftItems more)

def draftMembers : List (String × Doc) → Members
  | [] => .closed
  | (name, d) :: more => .member (.clean name) d.draft (draftMembers more)
end

mutual
/-- A text with whole numbers says what was written. -/
theorem draft_eq (d : Doc) (whole : d.isWhole = true) : d.draft = Draft.ofDoc d := by
  cases d with
  | number n =>
    cases n with
    | whole n => exact Number.draft_whole n
    | real x => cases whole
  | array items => exact congrArg Draft.array (draftItems_eq items whole)
  | object members => exact congrArg Draft.object (draftMembers_eq members whole)
  | _ => rfl

theorem draftItems_eq (items : List Doc) (whole : isWholeItems items = true) :
    draftItems items = Items.ofDocs items := by
  cases items with
  | nil => rfl
  | cons d more =>
    simp only [isWholeItems, Bool.and_eq_true] at whole
    simp only [draftItems, Items.ofDocs, draft_eq d whole.1, draftItems_eq more whole.2]

theorem draftMembers_eq (members : List (String × Doc)) (whole : isWholeMembers members = true) :
    draftMembers members = Members.ofDocs members := by
  cases members with
  | nil => rfl
  | cons head more =>
    obtain ⟨name, d⟩ := head
    simp only [isWholeMembers, Bool.and_eq_true] at whole
    simp only [draftMembers, Members.ofDocs, draft_eq d whole.1, draftMembers_eq more whole.2]
end

mutual
theorem read_ofDoc (d : Doc) {room : Nat} (levels : d.depth ≤ room) : (Draft.ofDoc d).read room = .ok d := by
  cases d with
  | array items =>
    simp only [depth] at levels
    obtain ⟨inner, rfl⟩ := Nat.exists_eq_add_of_le' (Nat.le_trans (Nat.le_add_left 1 _) levels)
    rw [Draft.ofDoc, Draft.read, readItems_ofDocs items (by omega)]
    rfl
  | object members =>
    simp only [depth] at levels
    obtain ⟨inner, rfl⟩ := Nat.exists_eq_add_of_le' (Nat.le_trans (Nat.le_add_left 1 _) levels)
    rw [Draft.ofDoc, Draft.read, readMembers_ofDocs members (by omega)]
    rfl
  | _ => rfl

theorem readItems_ofDocs (items : List Doc) {room : Nat} (levels : depthItems items ≤ room) :
    (Items.ofDocs items).read room = .ok items := by
  cases items with
  | nil => rfl
  | cons d more =>
    have ⟨first, rest⟩ := Nat.max_le.1 levels
    rw [Items.ofDocs, Items.read, read_ofDoc d first, readItems_ofDocs more rest]
    rfl

theorem readMembers_ofDocs (members : List (String × Doc)) {room : Nat} (levels : depthMembers members ≤ room) :
    (Members.ofDocs members).read room = .ok members := by
  cases members with
  | nil => rfl
  | cons head more =>
    obtain ⟨name, d⟩ := head
    have ⟨first, rest⟩ := Nat.max_le.1 levels
    rw [Members.ofDocs, Members.read, read_ofDoc d first, readMembers_ofDocs more rest]
    rfl
end

end Doc

mutual
theorem Draft.skipping_ofDoc (d : Doc) : (Draft.ofDoc d).skipping = none := by
  cases d with
  | array items => exact Items.skipping_ofDocs items
  | object members => exact Members.skipping_ofDocs members
  | _ => rfl

theorem Items.skipping_ofDocs (items : List Doc) : (Items.ofDocs items).skipping = none := by
  cases items with
  | nil => rfl
  | cons d more =>
    rw [Items.ofDocs, Items.skipping, Draft.skipping_ofDoc d, Items.skipping_ofDocs more]
    rfl

theorem Members.skipping_ofDocs (members : List (String × Doc)) : (Members.ofDocs members).skipping = none := by
  cases members with
  | nil => rfl
  | cons head more =>
    obtain ⟨name, d⟩ := head
    rw [Members.ofDocs, Members.skipping, Draft.skipping_ofDoc d, Members.skipping_ofDocs more]
    rfl
end

end Waybill
