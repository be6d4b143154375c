import Waybill.Json.Compact
import Waybill.Json.Scan

/-! Strings in their quotes. A character may stand for itself, have a letter behind a backslash, or be given by its code
point, in two halves where it lies beyond the first 65536. However each is written, scanning gives the characters back
and stops right behind the closing quote. The compact text is one way to write them. -/
namespace Waybill

namespace Scan

/-- The second list is a way to write the characters of the first between quotes. -/
inductive Quotes : List Char → List Char → Prop
  | nil : Quotes [] []
  | plain {c : Char} {cs t : List Char} (quote : c ≠ '"') (slash : c ≠ '\\') (printed : ¬ c < ' ')
      (more : Quotes cs t) : Quotes (c :: cs) (c :: t)
  | letter {e c : Char} {cs t : List Char} (named : letterEscape? e = some c) (more : Quotes cs t) :
      Quotes (c :: cs) ('\\' :: e :: t)
  | point {w x y z : Char} {n : Nat} {cs t : List Char} (value : quad? w x y z = some n) (high : leading n = false)
      (low : trailing n = false) (more : Quotes cs t) :
      Quotes (Char.ofNat n :: cs) ('\\' :: 'u' :: w :: x :: y :: z :: t)
  | points {w x y z w' x' y' z' : Char} {n m : Nat} {cs t : List Char} (value : quad? w x y z = some n)
      (high : leading n = true) (value' : quad? w' x' y' z' = some m) (low : trailing m = true) (more : Quotes cs t) :
      Quotes (joined n m :: cs) ('\\' :: 'u' :: w :: x :: y :: z :: '\\' :: 'u' :: w' :: x' :: y' :: z' :: t)

theorem scanText_plain {c : Char} (quote : c ≠ '"') (slash : c ≠ '\\') (printed : ¬ c < ' ') (rest : List Char) :
    scanText none (c :: rest) = (scanText none rest).push c := by
  simp [scanText, slash, printed, Piece.settle]

theorem scanText_letter {e c : Char} (named : letterEscape? e = some c) (rest : List Char) :
    scanText none ('\\' :: e :: rest) = (scanText none rest).push c := by
  unfold letterEscape? at named
  split at named <;> cases named <;> rfl

theorem not_trailing_of_leading {n : Nat} (high : leading n = true) : trailing n = false := by
  simp only [leading, trailing, Bool.and_eq_true, decide_eq_true_eq, Bool.and_eq_false_iff,
    decide_eq_false_iff_not] at high ⊢
  omega

theorem scanText_point {w x y z : Char} {n : Nat} (value : quad? w x y z = some n) (high : leading n = false)
    (low : trailing n = false) (rest : List Char) :
    scanText none ('\\' :: 'u' :: w :: x :: y :: z :: rest) = (scanText none rest).push (Char.ofNat n) := by
  rw [scanText, value]
  simp [high, low, Piece.settle]

theorem scanText_points {w x y z w' x' y' z' : Char} {n m : Nat} (value : quad? w x y z = some n)
    (high : leading n = true) (value' : quad? w' x' y' z' = some m) (low : trailing m = true) (rest : List Char) :
    scanText none ('\\' :: 'u' :: w :: x :: y :: z :: '\\' :: 'u' :: w' :: x' :: y' :: z' :: rest) =
      (scanText none rest).push (joined n m) := by
  rw [scanText, value]
  simp only [not_trailing_of_leading high, high, Bool.false_eq_true, if_false, if_true]
  rw [scanText, value']
  simp [low, Piece.settle]

theorem Quotes.scanText {cs t : List Char} (written : Quotes cs t) (rest : List Char) :
    Scan.scanText none (t ++ '"' :: rest) = ⟨cs, none, none, rest⟩ := by
  induction written with
  | nil => rfl
  | plain quote slash printed _ ih => rw [List.cons_append, scanText_plain quote slash printed, ih]; rfl
  | letter named _ ih => rw [List.cons_append, List.cons_append, scanText_letter named, ih]; rfl
  | point value high low _ ih =>
    simp only [List.cons_append]
    rw [scanText_point value high low, ih]
    rfl
  | points value high value' low _ ih =>
    simp only [List.cons_append]
    rw [scanText_points value high value' low, ih]
    rfl

section Escapes

open Waybill.Compact (escaped hexDigit)

theorem quad?_control : ∀ n < 32, quad? '0' '0' (hexDigit (n / 16)) (hexDigit (n % 16)) = some n := by
  decide

theorem quotes_escaped (c : Char) {cs t : List Char} (more : Quotes cs t) : Quotes (c :: cs) (escaped c ++ t) := by
  unfold escaped
  split
  · exact .letter rfl more
  · exact .letter rfl more
  · exact .letter rfl more
  · exact .letter rfl more
  · exact .letter rfl more
  · exact .letter rfl more
  · exact .letter rfl more
  next quote slash _ _ _ _ _ =>
    split
    next control =>
      have small : c.toNat < 32 := control
      have high : leading c.toNat = false := by
        simp only [leading, Bool.and_eq_false_iff, decide_eq_false_iff_not]
        omega
      have low : trailing c.toNat = false := by
        simp only [trailing, Bool.and_eq_false_iff, decide_eq_false_iff_not]
        omega
      have point := Quotes.point (quad?_control c.toNat small) high low more
      rwa [Char.ofNat_toNat] at point
    next printed => exact .plain quote slash printed more

theorem quotes_flatMap_escaped (cs : List Char) : Quotes cs (cs.flatMap escaped) := by
  induction cs with
  | nil => exact .nil
  | cons c more ih => exact quotes_escaped c ih

end Escapes

end Scan

theorem Compact.string_eq (s : String) (rest : List Char) :
    string s rest = '"' :: (s.toList.flatMap escaped ++ '"' :: rest) := rfl

end Waybill
