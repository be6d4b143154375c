import Waybill.Proofs.Json.Token

/-! From the texts of a document to its draft. Whatever lays out the document's tokens and what follows them is scanned
as the draft and leaves a text that lays out what follows. The induction is on the document, with lists and objects
taken behind their first element, where a comma or the bracket comes next. Of the fuel, a text needs three for each of
its tokens. -/
namespace Waybill

namespace Scan

def begins (c : Char) : Bool := c = '-' || digit c

theorem ne_of_begins {c other : Char} (h : begins c = true) (differs : begins other = false) : c ≠ other := by
  rintro rfl
  rw [h] at differs
  cases differs

theorem Literal.Valid.exists_first {l : Literal} (valid : l.Valid) :
    ∃ c more, l.text = c :: more ∧ begins c = true := by
  cases sign : l.negative with
  | true => exact ⟨'-', _, by rw [Literal.text, sign]; rfl, rfl⟩
  | false =>
    obtain ⟨c, more, whole⟩ : ∃ c more, l.whole = c :: more := by
      rcases valid.whole.first with zero | ⟨c, more, whole, -⟩
      · exact ⟨'0', [], zero⟩
      · exact ⟨c, more, whole⟩
    have first : digit c = true := valid.whole.digits c (by rw [whole]; exact List.mem_cons_self)
    exact ⟨c, _, by rw [Literal.text, sign, whole]; rfl, by rw [begins, first, Bool.or_true]⟩

theorem exists_first_text (n : Number) : ∃ c more, n.text = c :: more ∧ begins c = true := by
  obtain ⟨l, valid, written⟩ := n.exists_literal
  rw [written]
  exact valid.exists_first

theorem blank_of_begins {c : Char} (h : begins c = true) : blank c = false := by
  simp only [blank, Bool.or_eq_false_iff, decide_eq_false_iff_not]
  exact ⟨⟨⟨ne_of_begins h rfl, ne_of_begins h rfl⟩, ne_of_begins h rfl⟩, ne_of_begins h rfl⟩

theorem continues_of_blank {c : Char} (h : blank c = true) : continues c = false := by
  simp only [blank, Bool.or_eq_true, decide_eq_true_eq] at h
  obtain ((rfl | rfl) | rfl) | rfl := h <;> rfl

theorem skipBlanks_append {blanks : List Char} (blank : ∀ c ∈ blanks, blank c = true) (s : List Char) :
    skipBlanks (blanks ++ s) = skipBlanks s :=
  List.dropWhile_append_of_pos blank

theorem skipBlanks_cons {c : Char} (printed : blank c = false) (rest : List Char) :
    skipBlanks (c :: rest) = c :: rest := by
  simp only [skipBlanks, List.dropWhile_cons, printed, Bool.false_eq_true, if_false]

theorem skipBlanks_skipBlanks (s : List Char) : skipBlanks (skipBlanks s) = skipBlanks s := by
  induction s with
  | nil => rfl
  | cons c more ih =>
    cases printed : blank c with
    | true =>
      have skipped : skipBlanks (c :: more) = skipBlanks more := List.dropWhile_cons_of_pos printed
      rw [skipped, ih]
    | false => rw [skipBlanks_cons printed, skipBlanks_cons printed]

theorem scanValue_skipBlanks (fuel : Nat) (s : List Char) : scanValue fuel (skipBlanks s) = scanValue fuel s := by
  rw [scanValue.eq_def, scanValue.eq_def fuel s, skipBlanks_skipBlanks]

theorem scanItems_skipBlanks (fuel : Nat) (first : Bool) (s : List Char) :
    scanItems fuel first (skipBlanks s) = scanItems fuel first s := by
  rw [scanItems.eq_def, scanItems.eq_def fuel first s, skipBlanks_skipBlanks]

theorem scanMembers_skipBlanks (fuel : Nat) (first : Bool) (s : List Char) :
    scanMembers fuel first (skipBlanks s) = scanMembers fuel first s := by
  rw [scanMembers.eq_def, scanMembers.eq_def fuel first s, skipBlanks_skipBlanks]

theorem scanValue_number {c : Char} (h : begins c = true) (fuel : Nat) (rest : List Char) :
    scanValue (fuel + 1) (c :: rest) = scanNumber (c :: rest) := by
  have other {x : Char} (differs : begins x = false) : c ≠ x := ne_of_begins h differs
  have number : c = '-' ∨ digit c = true := by simpa only [begins, Bool.or_eq_true, decide_eq_true_eq] using h
  unfold scanValue
  rw [skipBlanks_cons (blank_of_begins h)]
  simp only [other (x := '"') rfl, other (x := '[') rfl, other (x := '\x7b') rfl, other (x := 'n') rfl,
    other (x := 't') rfl, other (x := 'f') rfl, number, if_true, if_false]

theorem scanValue_text (fuel : Nat) {s : String} {inside : List Char} (written : Quotes s.toList inside)
    (rest : List Char) : scanValue (fuel + 1) ('"' :: (inside ++ '"' :: rest)) = (.text (.clean s), rest) := by
  unfold scanValue
  rw [skipBlanks_cons rfl]
  simp only [if_true, written.scanText, Piece.written, String.ofList_toList]

theorem scanValue_array (fuel : Nat) (s : List Char) :
    scanValue (fuel + 1) ('[' :: s) = (.array (scanItems fuel true s).1, (scanItems fuel true s).2) := rfl

theorem scanValue_object (fuel : Nat) (s : List Char) :
    scanValue (fuel + 1) ('\x7b' :: s) = (.object (scanMembers fuel true s).1, (scanMembers fuel true s).2) := rfl

section Steps

variable {fuel : Nat} {first : Bool} {s inside after rest : List Char} {d : Draft}

def Opens (s : List Char) : Prop := ∃ c more, skipBlanks s = c :: more ∧ c ≠ ']'

/-- The second text is the first, behind its comma where there must be one. -/
def Reaches (first : Bool) (s inside : List Char) : Prop := if first then s = inside else skipBlanks s = ',' :: inside

theorem scanItems_item {more : Items} (reaches : Reaches first s inside) (opens : Opens inside)
    (value : scanValue fuel inside = (d, after)) (following : scanItems fuel false after = (more, rest)) :
    scanItems (fuel + 1) first s = (.item d more, rest) := by
  obtain ⟨c, text, start, other⟩ := opens
  rw [← scanValue_skipBlanks, start] at value
  rw [scanItems.eq_def]
  cases first with
  | true =>
    obtain rfl : s = inside := reaches
    simp only [start, other, if_false, if_true, value, following]
  | false =>
    have comma : skipBlanks s = ',' :: inside := reaches
    have goes : ',' ≠ ']' := by decide
    simp only [comma, goes, Bool.false_eq_true, if_true, if_false, start, other, value, following]

theorem scanMembers_member (reaches : Reaches first s inside) (quote : skipBlanks inside = '"' :: after) :
    scanMembers (fuel + 1) first s = scanMember fuel after := by
  rw [scanMembers.eq_def]
  cases first with
  | true =>
    obtain rfl : s = inside := reaches
    rw [quote]
    rfl
  | false =>
    have comma : skipBlanks s = ',' :: inside := reaches
    have goes : ',' ≠ '\x7d' := by decide
    simp only [comma, goes, Bool.false_eq_true, if_true, if_false, quote]

theorem scanMember_text {name : String} {colon : List Char} {more : Members}
    (written : Quotes name.toList inside) (mark : skipBlanks colon = ':' :: s) (value : scanValue fuel s = (d, after))
    (following : scanMembers fuel false after = (more, rest)) :
    scanMember (fuel + 1) (inside ++ '"' :: colon) = (.member (.clean name) d more, rest) := by
  unfold scanMember
  simp only [written.scanText, mark, if_true, value, following, Piece.written, String.ofList_toList]

end Steps

end Scan

open Scan

theorem Token.Writes.exists_first {token : Token} {cs : List Char} (written : token.Writes cs) :
    ∃ c more, cs = c :: more ∧ blank c = false ∧ (token ≠ .closeArray → c ≠ ']') ∧
      ((∀ n, token ≠ .number n) → continues c = false) := by
  cases token with
  | string s =>
    obtain ⟨inside, -, rfl⟩ := written
    exact ⟨_, _, rfl, rfl, fun _ => by decide, fun _ => rfl⟩
  | number n =>
    obtain ⟨c, more, first, starts⟩ := exists_first_text n
    exact ⟨c, more, Eq.trans written first, blank_of_begins starts, fun _ => ne_of_begins starts rfl,
      fun other => absurd rfl (other n)⟩
  | bool b => cases b <;> exact ⟨_, _, written, rfl, fun _ => by decide, fun _ => rfl⟩
  | closeArray => exact ⟨_, _, written, rfl, fun other => absurd rfl other, fun _ => rfl⟩
  | _ => exact ⟨_, _, written, rfl, fun _ => by decide, fun _ => rfl⟩

namespace Laid

variable {ts : List Token} {s : List Char}

theorem exists_skipBlanks {token : Token} (laid : Laid (token :: ts) s) :
    ∃ cs rest, token.Writes cs ∧ Laid ts rest ∧ skipBlanks s = cs ++ rest := by
  cases laid with
  | cons blanks written behind =>
    obtain ⟨c, more, rfl, printed, -⟩ := written.exists_first
    exact ⟨_, _, written, behind, (skipBlanks_append blanks _).trans (skipBlanks_cons printed _)⟩

theorem exists_mark (c : Char) {token : Token} (mark : token.Writes = (· = [c])) (laid : Laid (token :: ts) s) :
    ∃ rest, skipBlanks s = c :: rest ∧ Laid ts rest := by
  obtain ⟨cs, rest, written, behind, first⟩ := laid.exists_skipBlanks
  rw [mark] at written
  obtain rfl : cs = [c] := written
  exact ⟨rest, first, behind⟩

theorem exists_quotes {name : String} (laid : Laid (.string name :: ts) s) :
    ∃ inside rest, Quotes name.toList inside ∧ skipBlanks s = '"' :: (inside ++ '"' :: rest) ∧ Laid ts rest := by
  obtain ⟨_, rest, ⟨inside, written, rfl⟩, behind, first⟩ := laid.exists_skipBlanks
  rw [List.cons_append, List.append_assoc] at first
  exact ⟨inside, rest, written, first, behind⟩

theorem exists_reaches {first : Bool} (laid : Laid (Doc.separated first ts) s) :
    ∃ inside, Reaches first s inside ∧ Laid ts inside := by
  cases first with
  | true => exact ⟨s, rfl, laid⟩
  | false => exact laid.exists_mark ',' rfl

theorem closed (laid : Laid ts s) (ends : ∀ n more, ts ≠ .number n :: more) : Closed s := by
  have blank_first {blanks rest : List Char} (blank : ∀ c ∈ blanks, blank c = true) (closed : Closed rest) :
      Closed (blanks ++ rest) := by
    cases blanks with
    | nil => exact closed
    | cons b more => exact closed_cons (continues_of_blank (blank b List.mem_cons_self)) _
  cases laid with
  | nil blanks => exact List.append_nil s ▸ blank_first blanks closed_nil
  | cons blanks written behind =>
    refine blank_first blanks ?_
    obtain ⟨c, more, rfl, -, -, number⟩ := written.exists_first
    exact closed_cons (number fun n same => ends n _ (congrArg (· :: _) same)) _

end Laid

namespace Doc

theorem exists_tokens (d : Doc) (ts : List Token) :
    ∃ token more, d.tokens ts = token :: more ∧ token ≠ .closeArray := by
  cases d <;> exact ⟨_, _, rfl, nofun⟩

theorem opens_of_laid (d : Doc) {ts : List Token} {s : List Char} (laid : Laid (d.tokens ts) s) : Opens s := by
  obtain ⟨token, more, tokens, other⟩ := d.exists_tokens ts
  rw [tokens] at laid
  obtain ⟨cs, rest, written, -, first⟩ := laid.exists_skipBlanks
  obtain ⟨c, text, rfl, -, bracket, -⟩ := written.exists_first
  exact ⟨c, text ++ rest, first, bracket other⟩

theorem itemTokens_ends (items : List Doc) (ts : List Token) (n : Number) (more : List Token) :
    itemTokens false items (.closeArray :: ts) ≠ .number n :: more := by
  cases items <;> nofun

theorem memberTokens_ends (members : List (String × Doc)) (ts : List Token) (n : Number) (more : List Token) :
    memberTokens false members (.closeObject :: ts) ≠ .number n :: more := by
  cases members <;> nofun

mutual
/-- Whatever lays out a document is scanned as its draft, and what follows is left. -/
theorem scanValue_laid (d : Doc) {ts : List Token} (ends : ∀ n more, ts ≠ .number n :: more) {s : List Char}
    (laid : Laid (d.tokens ts) s) (fuel : Nat) (enough : 3 * (d.tokens ts).length ≤ fuel) :
    ∃ rest, scanValue fuel s = (d.draft, rest) ∧ Laid ts rest := by
  have own := d.length_tokens ts
  obtain ⟨fuel, rfl⟩ := Nat.exists_eq_add_of_le' (show 1 ≤ fuel by omega)
  rw [← scanValue_skipBlanks]
  cases d with
  | null =>
    obtain ⟨_, rest, rfl, behind, first⟩ := laid.exists_skipBlanks
    exact ⟨rest, by rw [first]; rfl, behind⟩
  | bool b =>
    obtain ⟨_, rest, rfl, behind, first⟩ := laid.exists_skipBlanks
    exact ⟨rest, by rw [first]; cases b <;> rfl, behind⟩
  | number n =>
    obtain ⟨_, rest, rfl, behind, first⟩ := laid.exists_skipBlanks
    obtain ⟨c, more, text, starts⟩ := exists_first_text n
    have scanned := n.scan_text (behind.closed ends)
    refine ⟨rest, ?_, behind⟩
    rw [first, Token.text]
    rw [text, List.cons_append] at scanned ⊢
    rw [scanValue_number starts, scanned, draft]
  | text s =>
    obtain ⟨inside, rest, written, first, behind⟩ := laid.exists_quotes
    exact ⟨rest, by rw [first]; exact scanValue_text _ written rest, behind⟩
  | array items =>
    obtain ⟨inside, first, opened⟩ := laid.exists_mark '[' rfl
    rw [tokens, List.length_cons] at enough
    obtain ⟨rest, elements, behind⟩ := scanItems_laid true items opened fuel (by omega)
    exact ⟨rest, by rw [first, scanValue_array, elements]; rfl, behind⟩
  | object members =>
    obtain ⟨inside, first, opened⟩ := laid.exists_mark '\x7b' rfl
    rw [tokens, List.length_cons] at enough
    obtain ⟨rest, fields, behind⟩ := scanMembers_laid true members opened fuel (by omega)
    exact ⟨rest, by rw [first, scanValue_object, fields]; rfl, behind⟩

theorem scanItems_laid (first : Bool) (items : List Doc) {ts : List Token} {s : List Char}
    (laid : Laid (itemTokens first items (.closeArray :: ts)) s) (fuel : Nat)
    (enough : 3 * (itemTokens first items (.closeArray :: ts)).length + 2 ≤ fuel) :
    ∃ rest, scanItems fuel first s = (draftItems items, rest) ∧ Laid ts rest := by
  obtain ⟨fuel, rfl⟩ := Nat.exists_eq_add_of_le' (show 1 ≤ fuel by omega)
  cases items with
  | nil =>
    obtain ⟨rest, mark, behind⟩ := laid.exists_mark ']' rfl
    exact ⟨rest, by rw [← scanItems_skipBlanks, mark]; rfl, behind⟩
  | cons d more =>
    obtain ⟨inside, reaches, laid⟩ := laid.exists_reaches
    have counted := length_separated first (d.tokens (itemTokens false more (.closeArray :: ts)))
    have shorter := d.length_tokens (itemTokens false more (.closeArray :: ts))
    rw [itemTokens] at enough
    obtain ⟨after, value, behind⟩ := scanValue_laid d (itemTokens_ends more ts) laid fuel (by omega)
    obtain ⟨rest, following, behind⟩ := scanItems_laid false more behind fuel (by omega)
    exact ⟨rest, scanItems_item reaches (d.opens_of_laid laid) value following, behind⟩

theorem scanMembers_laid (first : Bool) (members : List (String × Doc)) {ts : List Token} {s : List Char}
    (laid : Laid (memberTokens first members (.closeObject :: ts)) s) (fuel : Nat)
    (enough : 3 * (memberTokens first members (.closeObject :: ts)).length + 2 ≤ fuel) :
    ∃ rest, scanMembers fuel first s = (draftMembers members, rest) ∧ Laid ts rest := by
  obtain ⟨fuel, rfl⟩ := Nat.exists_eq_add_of_le' (show 2 ≤ fuel by omega)
  cases members with
  | nil =>
    obtain ⟨rest, mark, behind⟩ := laid.exists_mark '\x7d' rfl
    exact ⟨rest, by rw [← scanMembers_skipBlanks, mark]; rfl, behind⟩
  | cons head more =>
    obtain ⟨name, d⟩ := head
    obtain ⟨inside, reaches, laid⟩ := laid.exists_reaches
    obtain ⟨quoted, colon, written, quote, laid⟩ := laid.exists_quotes
    obtain ⟨s, mark, laid⟩ := laid.exists_mark ':' rfl
    have counted := length_separated first
      (.string name :: .colon :: d.tokens (memberTokens false more (.closeObject :: ts)))
    have shorter := d.length_tokens (memberTokens false more (.closeObject :: ts))
    simp only [memberTokens, List.length_cons] at enough counted
    obtain ⟨after, value, behind⟩ := scanValue_laid d (memberTokens_ends more ts) laid fuel (by omega)
    obtain ⟨rest, following, behind⟩ := scanMembers_laid false more behind fuel (by omega)
    exact ⟨rest, (scanMembers_member reaches quote).trans (scanMember_text written mark value following), behind⟩
end

end Doc

namespace Laid

theorem length_le {ts : List Token} {s : List Char} (laid : Laid ts s) : ts.length ≤ s.length := by
  induction laid with
  | nil _ => exact Nat.zero_le _
  | cons _ written _ ih =>
    obtain ⟨c, more, rfl, -⟩ := written.exists_first
    simp only [List.length_cons, List.length_append]
    omega

theorem draft_scan {d : Doc} {s : List Char} (laid : Laid (d.tokens []) s) :
    ∃ rest, Draft.scan s = (d.draft, rest) ∧ skipBlanks rest = [] := by
  have short := laid.length_le
  have ends (n : Number) (more : List Token) : [] ≠ .number n :: more := (List.cons_ne_nil _ _).symm
  obtain ⟨rest, scanned, blanks⟩ := d.scanValue_laid ends laid (enough s) (by rw [enough]; omega)
  cases blanks with
  | nil blank =>
    have skipped := skipBlanks_append blank []
    rw [List.append_nil] at skipped
    exact ⟨rest, scanned, skipped⟩

end Laid

theorem Draft.scan_compact (d : Doc) : (Draft.scan d.compact.toList).1 = d.draft := by
  obtain ⟨rest, scanned, -⟩ := (Laid.compact d).draft_scan
  rw [scanned]

end Waybill
