/-! Names against patterns with stars. Text is held as a list of units, bytes or whole characters, and every
piece of it is cut at offsets in units. A cut fails beyond the end and inside a character, and a failed cut is an
outcome of its own, so what the search does on bytes can be compared with what it does on characters. -/
namespace Waybill.Wildcard

structure Coding (α : Type) where
  star : α
  starts : α → Bool
  /-- Units in the character that starts with this one. -/
  width : α → Nat
  width_pos : ∀ a, 0 < width a

def bytes : Coding UInt8 where
  star := 0x2A
  starts b := b < 0x80 || 0xC0 ≤ b
  width b := if b < 0x80 then 1 else if b < 0xE0 then 2 else if b < 0xF0 then 3 else 4
  width_pos b := by split <;> (try split) <;> (try split) <;> decide

def characters : Coding Char where
  star := '*'
  starts _ := true
  width _ := 1
  width_pos _ := by decide

variable {α : Type}

namespace Coding

def cuts (u : Coding α) (text : List α) (offset : Nat) : Bool :=
  if offset = 0 then true
  else
    match text[offset]? with
    | some unit => u.starts unit
    | none => offset = text.length

def upTo? (u : Coding α) (text : List α) (offset : Nat) : Option (List α) :=
  if u.cuts text offset then some (text.take offset) else none

def from? (u : Coding α) (text : List α) (offset : Nat) : Option (List α) :=
  if u.cuts text offset then some (text.drop offset) else none

theorem le_length_of_cuts {u : Coding α} {text : List α} {offset : Nat}
    (h : u.cuts text offset = true) : offset ≤ text.length := by
  simp only [cuts] at h
  split at h
  · omega
  · split at h
    next found => exact Nat.le_of_lt (List.getElem?_eq_some_iff.1 found).1
    next => exact Nat.le_of_eq (by simpa using h)

theorem from?_length {u : Coding α} {text rest : List α} {offset : Nat}
    (h : u.from? text offset = some rest) :
    offset ≤ text.length ∧ rest.length = text.length - offset := by
  simp only [from?] at h
  split at h
  next cut =>
    cases h
    exact ⟨le_length_of_cuts cut, List.length_drop⟩
  next => cases h

end Coding

def stepOf (u : Coding α) (part : List α) : Nat :=
  match part with
  | [] => 1
  | a :: _ => u.width a

theorem stepOf_pos (u : Coding α) (part : List α) : 0 < stepOf u part := by
  cases part with
  | nil => exact Nat.one_pos
  | cons a _ => exact u.width_pos a

variable [DecidableEq α]

def find? (part : List α) : List α → Option Nat
  | [] => if part.isEmpty then some 0 else none
  | a :: text => if part.isPrefixOf (a :: text) then some 0 else (find? part text).map (· + 1)

/-- Tries every occurrence of the part from an offset on, until what follows one of them is accepted. -/
def search (u : Coding α) (part : List α) (accepts : List α → Option Bool) (name : List α)
    (start : Nat) : Option Bool :=
  match _cut : u.from? name start with
  | none => none
  | some rest =>
    match find? part rest with
    | none => some false
    | some offset =>
      match u.from? name (start + offset + part.length) with
      | none => none
      | some after =>
        match accepts after with
        | none => none
        | some true => some true
        | some false => search u part accepts name (start + offset + stepOf u part)
termination_by name.length + 1 - start
decreasing_by
  have := (Coding.from?_length _cut).1
  have := stepOf_pos u part
  omega

/-- Whether a name fits a pattern; `none` if a cut failed. -/
def run (u : Coding α) (pattern name : List α) : Option Bool :=
  match pattern.idxOf? u.star with
  | none => some (pattern = name)
  | some (first + 1) =>
    match u.upTo? pattern (first + 1) with
    | none => none
    | some lead =>
      if lead.isPrefixOf name then
        match _cut : u.from? pattern (first + 1), u.from? name (first + 1) with
        | some rest, some after => run u rest after
        | _, _ => none
      else some false
  | some 0 =>
    match _cut : u.from? pattern 1 with
    | none => none
    | some rest =>
      match rest.idxOf? u.star with
      | none => some (rest.isSuffixOf name)
      | some 0 => run u rest name
      | some (next + 1) =>
        match u.upTo? rest (next + 1), _tail : u.from? rest (next + 1) with
        | some part, some tail => search u part (fun after => run u tail after) name 0
        | _, _ => none
termination_by pattern.length
decreasing_by
  · have := Coding.from?_length _cut
    omega
  · have := Coding.from?_length _cut
    omega
  · have := Coding.from?_length _cut
    have := Coding.from?_length _tail
    omega

def bytesOf (s : String) : List UInt8 := s.toList.flatMap String.utf8EncodeChar

/-- A star stands for any run of characters, none included; all else stands for itself. -/
def accepts (pattern name : String) : Bool :=
  (run bytes (bytesOf pattern) (bytesOf name)).getD false

end Waybill.Wildcard
