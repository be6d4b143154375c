import Waybill.Proofs.Json.Document
import Waybill.Proofs.Json.Quotation

/-! The tokens of a document and the texts that lay them out. Between tokens, before the first and behind the last there
may be blanks, and a string may be written in any way; all else is fixed. The compact text lays out the tokens without
blanks. -/
namespace Waybill

inductive Token
  | openArray
  | closeArray
  | openObject
  | closeObject
  | comma
  | colon
  | null
  | bool (b : Bool)
  | number (n : Number)
  | string (s : String)

namespace Token

def text : Token → List Char
  | openArray => ['[']
  | closeArray => [']']
  | openObject => ['\x7b']
  | closeObject => ['\x7d']
  | comma => [',']
  | colon => [':']
  | null => ['n', 'u', 'l', 'l']
  | bool true => ['t', 'r', 'u', 'e']
  | bool false => ['f', 'a', 'l', 's', 'e']
  | number n => n.text
  | string s => Compact.string s []

def Writes : Token → List Char → Prop
  | string s, cs => ∃ inside, Scan.Quotes s.toList inside ∧ cs = '"' :: (inside ++ ['"'])
  | token, cs => cs = token.text

theorem writes_text (token : Token) : token.Writes token.text := by
  cases token with
  | string s => exact ⟨_, Scan.quotes_flatMap_escaped s.toList, rfl⟩
  | _ => rfl

def spaced (gap : List Char) : List Token → List Char
  | [] => gap
  | token :: more => gap ++ (token.text ++ spaced gap more)

end Token

/-- The text lays out the tokens, with blanks where it likes. -/
inductive Laid : List Token → List Char → Prop
  | nil {blanks : List Char} (blank : ∀ c ∈ blanks, Scan.blank c = true) : Laid [] blanks
  | cons {blanks cs rest : List Char} {token : Token} {more : List Token}
      (blank : ∀ c ∈ blanks, Scan.blank c = true) (written : token.Writes cs) (behind : Laid more rest) :
      Laid (token :: more) (blanks ++ (cs ++ rest))

theorem Laid.spaced {gap : List Char} (blank : ∀ c ∈ gap, Scan.blank c = true) (ts : List Token) :
    Laid ts (Token.spaced gap ts) := by
  induction ts with
  | nil => exact .nil blank
  | cons token more ih => exact .cons blank token.writes_text ih

namespace Doc

def separated (first : Bool) (ts : List Token) : List Token := if first then ts else .comma :: ts

mutual
/-- The tokens of a document in front of those that follow. -/
def tokens : Doc → List Token → List Token
  | .null, rest => .null :: rest
  | .bool b, rest => .bool b :: rest
  | .number n, rest => .number n :: rest
  | .text s, rest => .string s :: rest
  | .array items, rest => .openArray :: itemTokens true items (.closeArray :: rest)
  | .object members, rest => .openObject :: memberTokens true members (.closeObject :: rest)

def itemTokens : Bool → List Doc → List Token → List Token
  | _, [], rest => rest
  | first, d :: more, rest => separated first (d.tokens (itemTokens false more rest))

def memberTokens : Bool → List (String × Doc) → List Token → List Token
  | _, [], rest => rest
  | first, (name, d) :: more, rest =>
    separated first (.string name :: .colon :: d.tokens (memberTokens false more rest))
end

theorem length_separated (first : Bool) (ts : List Token) : ts.length ≤ (separated first ts).length := by
  cases first with
  | false => exact Nat.le_succ _
  | true => exact Nat.le_refl _

mutual
theorem length_tokens (d : Doc) (rest : List Token) : rest.length < (d.tokens rest).length := by
  cases d with
  | array items =>
    have inside := length_itemTokens true items (.closeArray :: rest)
    rw [List.length_cons] at inside
    rw [tokens, List.length_cons]
    omega
  | object members =>
    have inside := length_memberTokens true members (.closeObject :: rest)
    rw [List.length_cons] at inside
    rw [tokens, List.length_cons]
    omega
  | _ => exact Nat.lt_succ_self _

theorem length_itemTokens (first : Bool) (items : List Doc) (rest : List Token) :
    rest.length ≤ (itemTokens first items rest).length := by
  cases items with
  | nil => exact Nat.le_refl _
  | cons d more =>
    have inside := Nat.lt_of_le_of_lt (length_itemTokens false more rest) (length_tokens d _)
    exact Nat.le_trans (Nat.le_of_lt inside) (length_separated first _)

theorem length_memberTokens (first : Bool) (members : List (String × Doc)) (rest : List Token) :
    rest.length ≤ (memberTokens first members rest).length := by
  cases members with
  | nil => exact Nat.le_refl _
  | cons head more =>
    obtain ⟨name, d⟩ := head
    have inside := Nat.lt_of_le_of_lt (length_memberTokens false more rest) (length_tokens d _)
    refine Nat.le_trans ?_ (length_separated first _)
    simp only [List.length_cons]
    omega
end

end Doc

namespace Compact

def elementsAfter : List Doc → List Char → List Char
  | [], rest => rest
  | d :: more, rest => ',' :: elements (d :: more) rest

def membersAfter : List (String × Doc) → List Char → List Char
  | [], rest => rest
  | m :: more, rest => ',' :: members (m :: more) rest

theorem elements_cons (d : Doc) (more : List Doc) (rest : List Char) :
    elements (d :: more) rest = doc d (elementsAfter more rest) := by
  cases more <;> simp only [elements, elementsAfter]

theorem members_cons (name : String) (d : Doc) (more : List (String × Doc)) (rest : List Char) :
    members ((name, d) :: more) rest = string name (':' :: doc d (membersAfter more rest)) := by
  cases more <;> simp only [members, membersAfter]

theorem string_append (s : String) (rest : List Char) : string s rest = string s [] ++ rest := by
  simp only [string_eq, List.cons_append, List.append_assoc, List.nil_append]

mutual
theorem doc_spaced (d : Doc) (ts : List Token) : doc d (Token.spaced [] ts) = Token.spaced [] (d.tokens ts) := by
  cases d with
  | null => rfl
  | bool b => cases b <;> rfl
  | number n => rfl
  | text s => exact string_append s _
  | array items =>
    cases items with
    | nil => rfl
    | cons d more =>
      have closed : ']' :: Token.spaced [] ts = Token.spaced [] (.closeArray :: ts) := rfl
      rw [doc, elements_cons, closed, elementsAfter_spaced more, doc_spaced d]
      rfl
  | object ms =>
    cases ms with
    | nil => rfl
    | cons head more =>
      obtain ⟨name, d⟩ := head
      have closed : '\x7d' :: Token.spaced [] ts = Token.spaced [] (.closeObject :: ts) := rfl
      rw [doc, members_cons, closed, membersAfter_spaced more, doc_spaced d, string_append]
      rfl

theorem elementsAfter_spaced (items : List Doc) (ts : List Token) :
    elementsAfter items (Token.spaced [] ts) = Token.spaced [] (Doc.itemTokens false items ts) := by
  cases items with
  | nil => rfl
  | cons d more =>
    rw [elementsAfter, elements_cons, elementsAfter_spaced more, doc_spaced d]
    rfl

theorem membersAfter_spaced (ms : List (String × Doc)) (ts : List Token) :
    membersAfter ms (Token.spaced [] ts) = Token.spaced [] (Doc.memberTokens false ms ts) := by
  cases ms with
  | nil => rfl
  | cons head more =>
    obtain ⟨name, d⟩ := head
    rw [membersAfter, members_cons, membersAfter_spaced more, doc_spaced d, string_append]
    rfl
end

end Compact

theorem Doc.compact_eq (d : Doc) : d.compact = String.ofList (Token.spaced [] (d.tokens [])) :=
  congrArg String.ofList (Compact.doc_spaced d [])

theorem Laid.compact (d : Doc) : Laid (d.tokens []) d.compact.toList := by
  rw [d.compact_eq, String.toList_ofList]
  exact .spaced (List.forall_mem_nil _) _

end Waybill
