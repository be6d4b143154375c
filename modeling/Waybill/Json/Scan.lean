import Waybill.Json.Draft

/-! Texts to drafts. Blanks are the space, the tab and the two line ends. Strings and numbers are scanned once;
where reading and skipping them differ, the draft says so: a lone surrogate or a size out of range only matters
to one who reads, and a number cut off at the end is an early end to a reader and bad grammar to a skipper. -/
namespace Waybill.Scan

def blank (c : Char) : Bool := c = ' ' || c = '\n' || c = '\t' || c = '\r'

def skipBlanks (s : List Char) : List Char := s.dropWhile blank

def digit (c : Char) : Bool := '0' ≤ c && c ≤ '9'

def digitValue (c : Char) : Nat := c.toNat - '0'.toNat

def hexValue? (c : Char) : Option Nat :=
  if '0' ≤ c ∧ c ≤ '9' then some (c.toNat - '0'.toNat)
  else if 'a' ≤ c ∧ c ≤ 'f' then some (c.toNat - 'a'.toNat + 10)
  else if 'A' ≤ c ∧ c ≤ 'F' then some (c.toNat - 'A'.toNat + 10)
  else none

def quad? (a b c d : Char) : Option Nat := do
  return (((← hexValue? a) * 16 + (← hexValue? b)) * 16 + (← hexValue? c)) * 16 + (← hexValue? d)

/-- A code point escape takes the next four bytes, whatever they are. -/
def badQuad (s : List Char) : Fault :=
  if (String.ofList s).utf8ByteSize < 4 then .unfinished else .malformed

def letterEscape? (c : Char) : Option Char :=
  match c with
  | '"' => some '"'
  | '\\' => some '\\'
  | '/' => some '/'
  | 'b' => some '\x08'
  | 'f' => some '\x0c'
  | 'n' => some '\n'
  | 'r' => some '\r'
  | 't' => some '\t'
  | _ => none

structure Piece where
  chars : List Char
  reading : Option Fault
  skipping : Option Fault
  rest : List Char

namespace Piece

def push (c : Char) (p : Piece) : Piece := { p with chars := c :: p.chars }

def spoil (fault : Fault) (p : Piece) : Piece := { p with reading := some fault }

def stop (fault : Fault) : Piece := ⟨[], some fault, some fault, []⟩

def written (p : Piece) : Written :=
  match p.reading with
  | none => .clean (String.ofList p.chars)
  | some fault => .spoiled fault p.skipping

end Piece

def leading (n : Nat) : Bool := 0xD800 ≤ n && n ≤ 0xDBFF
def trailing (n : Nat) : Bool := 0xDC00 ≤ n && n ≤ 0xDFFF

def joined (high low : Nat) : Char :=
  Char.ofNat (0x10000 + (high - 0xD800) * 0x400 + (low - 0xDC00))

/-- A leading surrogate that no trailing one followed spoils the reading. -/
def Piece.settle (lead : Option Nat) (p : Piece) : Piece :=
  if lead.isSome then p.spoil .malformed else p

/-- Scans a string after its opening quote; `lead` is the leading surrogate just before. -/
def scanText (lead : Option Nat) : List Char → Piece
  | [] => .stop .unfinished
  | '"' :: rest => Piece.settle lead ⟨[], none, none, rest⟩
  | ['\\'] => .stop .unfinished
  | '\\' :: 'u' :: a :: b :: c :: d :: rest =>
    match quad? a b c d with
    | none => .stop .malformed
    | some n =>
      if trailing n then
        match lead with
        | some high => (scanText none rest).push (joined high n)
        | none => (scanText none rest).spoil .malformed
      else if leading n then Piece.settle lead (scanText (some n) rest)
      else Piece.settle lead ((scanText none rest).push (Char.ofNat n))
  | '\\' :: 'u' :: rest => .stop (badQuad rest)
  | '\\' :: c :: rest =>
    match letterEscape? c with
    | some x => Piece.settle lead ((scanText none rest).push x)
    | none => .stop .malformed
  | c :: rest =>
    if c < ' ' then .stop .malformed else Piece.settle lead ((scanText none rest).push c)

structure Literal where
  negative : Bool
  whole : List Char
  fraction : List Char
  exponent : Option (Bool × List Char)

def gather (total : Nat) : List Char → Nat × Nat
  | [] => (total, 0)
  | c :: rest =>
    let next := total * 10 + digitValue c
    if next < 0x10000000000000000 then gather next rest else (total, rest.length + 1)

def digitsValue (ds : List Char) : Nat := ds.foldl (fun total c => total * 10 + digitValue c) 0

/-- The digits beyond the first 2^64 only count as places. -/
def Literal.real? (l : Literal) : Option Binary64.Finite :=
  let (start, beyond) := gather 0 l.whole
  let (significand, dropped) := gather start l.fraction
  let places : Int := beyond - (l.fraction.length - dropped : Nat)
  let shift : Int := match l.exponent with
    | none => 0
    | some (negative, ds) => if negative then -(digitsValue ds : Int) else digitsValue ds
  Binary64.Finite.read? l.negative significand (places + shift)

def Literal.number? (l : Literal) : Option Number :=
  let n := digitsValue l.whole
  if l.fraction.isEmpty ∧ l.exponent = none ∧ ¬ (l.negative ∧ n = 0) then
    match Whole.ofInt? (if l.negative then -(n : Int) else n) with
    | some w => some (.whole w)
    | none => l.real?.map .real
  else l.real?.map .real

def Literal.draft (l : Literal) : Draft :=
  match l.number? with
  | some n => .number n
  | none => .scrap .malformed none

def cut (rest : List Char) : Draft × List Char :=
  (.scrap (if rest.isEmpty then .unfinished else .malformed) (some .malformed), [])

def scanExponent (l : Literal) (s : List Char) : Draft × List Char :=
  match s with
  | c :: rest =>
    if c = 'e' ∨ c = 'E' then
      let (negative, rest) := match rest with
        | '-' :: r => (true, r)
        | '+' :: r => (false, r)
        | r => (false, r)
      let ds := rest.takeWhile digit
      let after := rest.dropWhile digit
      if ds.isEmpty then cut after
      else (Literal.draft { l with exponent := some (negative, ds) }, after)
    else (l.draft, s)
  | [] => (l.draft, [])

def scanFraction (l : Literal) (s : List Char) : Draft × List Char :=
  match s with
  | '.' :: rest =>
    let ds := rest.takeWhile digit
    let after := rest.dropWhile digit
    if ds.isEmpty then cut after else scanExponent { l with fraction := ds } after
  | _ => scanExponent l s

def scanWhole (negative : Bool) (s : List Char) : Draft × List Char :=
  let ds := s.takeWhile digit
  let after := s.dropWhile digit
  match ds with
  | [] => cut s
  | '0' :: _ :: _ => (.scrap .malformed (some .malformed), [])
  | ds => scanFraction ⟨negative, ds, [], none⟩ after

def scanNumber (s : List Char) : Draft × List Char :=
  match s with
  | '-' :: rest => scanWhole true rest
  | s => scanWhole false s

def scanWord (d : Draft) : List Char → List Char → Draft × List Char
  | [], s => (d, s)
  | _ :: _, [] => (.scrap .unfinished (some .unfinished), [])
  | w :: word, c :: s =>
    if c = w then scanWord d word s else (.scrap .malformed (some .malformed), [])

mutual
def scanValue (fuel : Nat) (s : List Char) : Draft × List Char :=
  match fuel, skipBlanks s with
  | 0, _ => (.absent .malformed, [])
  | _, [] => (.absent .unfinished, [])
  | fuel + 1, c :: rest =>
    if c = '"' then
      let p := scanText none rest
      (.text p.written, p.rest)
    else if c = '[' then
      let (items, after) := scanItems fuel true rest
      (.array items, after)
    else if c = '{' then
      let (members, after) := scanMembers fuel true rest
      (.object members, after)
    else if c = 'n' then scanWord .null ['u', 'l', 'l'] rest
    else if c = 't' then scanWord (.bool true) ['r', 'u', 'e'] rest
    else if c = 'f' then scanWord (.bool false) ['a', 'l', 's', 'e'] rest
    else if c = '-' ∨ digit c then scanNumber (c :: rest)
    else (.absent .malformed, [])

def scanItems (fuel : Nat) (first : Bool) (s : List Char) : Items × List Char :=
  match fuel, skipBlanks s with
  | 0, _ => (.broken .malformed, [])
  | _, [] => (.broken .unfinished, [])
  | fuel + 1, c :: rest =>
    if c = ']' then (.closed, rest)
    else if first then
      let (d, after) := scanValue fuel (c :: rest)
      let (more, after) := scanItems fuel false after
      (.item d more, after)
    else if c = ',' then
      match skipBlanks rest with
      | [] => (.dangling .unfinished, [])
      | c :: rest =>
        if c = ']' then (.dangling .malformed, [])
        else
          let (d, after) := scanValue fuel (c :: rest)
          let (more, after) := scanItems fuel false after
          (.item d more, after)
    else (.broken .malformed, [])

def scanMembers (fuel : Nat) (first : Bool) (s : List Char) : Members × List Char :=
  match fuel, skipBlanks s with
  | 0, _ => (.broken .malformed, [])
  | _, [] => (.broken .unfinished, [])
  | fuel + 1, c :: rest =>
    if c = '}' then (.closed, rest)
    else if first then
      if c = '"' then scanMember fuel rest
      else (.broken .malformed, [])
    else if c = ',' then
      match skipBlanks rest with
      | [] => (.dangling .unfinished, [])
      | c :: rest => if c = '"' then scanMember fuel rest else (.dangling .malformed, [])
    else (.broken .malformed, [])

def scanMember (fuel : Nat) (s : List Char) : Members × List Char :=
  match fuel with
  | 0 => (.broken .malformed, [])
  | fuel + 1 =>
    let p := scanText none s
    match skipBlanks p.rest with
    | [] => (.member p.written (.absent .unfinished) (.broken .unfinished), [])
    | c :: rest =>
      if c = ':' then
        let (d, after) := scanValue fuel rest
        let (more, after) := scanMembers fuel false after
        (.member p.written d more, after)
      else (.member p.written (.absent .malformed) (.broken .malformed), [])
end

/-- Every step into the tree takes at least one character in three steps. -/
def enough (s : List Char) : Nat := 3 * s.length + 3

end Waybill.Scan

namespace Waybill

def Draft.scan (s : List Char) : Draft × List Char := Scan.scanValue (Scan.enough s) s

end Waybill
