import Waybill.Json.Value

/-! The compact text of a document: no blanks, members in the order they have. Each function puts its text in
front of the text that follows. -/
namespace Waybill

namespace Compact

def hexDigit (n : Nat) : Char := Nat.digitChar n

def escaped (c : Char) : List Char :=
  match c with
  | '"' => ['\\', '"']
  | '\\' => ['\\', '\\']
  | '\n' => ['\\', 'n']
  | '\r' => ['\\', 'r']
  | '\t' => ['\\', 't']
  | '\x08' => ['\\', 'b']
  | '\x0c' => ['\\', 'f']
  | c =>
    if c < ' ' then ['\\', 'u', '0', '0', hexDigit (c.toNat / 16), hexDigit (c.toNat % 16)] else [c]

def string (s : String) (rest : List Char) : List Char :=
  '"' :: s.toList.flatMap escaped ++ '"' :: rest

mutual
def doc : Doc → List Char → List Char
  | .null, rest => 'n' :: 'u' :: 'l' :: 'l' :: rest
  | .bool true, rest => 't' :: 'r' :: 'u' :: 'e' :: rest
  | .bool false, rest => 'f' :: 'a' :: 'l' :: 's' :: 'e' :: rest
  | .number n, rest => n.text ++ rest
  | .text s, rest => string s rest
  | .array items, rest => '[' :: elements items (']' :: rest)
  | .object ms, rest => '{' :: members ms ('}' :: rest)

def elements : List Doc → List Char → List Char
  | [], rest => rest
  | [d], rest => doc d rest
  | d :: more, rest => doc d (',' :: elements more rest)

def members : List (String × Doc) → List Char → List Char
  | [], rest => rest
  | [(name, d)], rest => string name (':' :: doc d rest)
  | (name, d) :: more, rest => string name (':' :: doc d (',' :: members more rest))
end

end Compact

def Doc.compact (d : Doc) : String := String.ofList (Compact.doc d [])

end Waybill
