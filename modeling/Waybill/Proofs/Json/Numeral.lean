import Waybill.Json.Scan

/-! Numbers as written. A literal has one text: a sign, the whole part, and a fraction and an exponent where there are
any. Scanning that text gives the literal back, as long as nothing follows that could belong to it. The text of a whole
number is that of a literal which stands for the number. -/
namespace Waybill

namespace Scan

def continues (c : Char) : Bool := digit c || c = '.' || c = 'e' || c = 'E'

/-- Nothing follows, or what no number goes on with. -/
def Closed (rest : List Char) : Prop := ∀ c, rest.head? = some c → continues c = false

theorem closed_nil : Closed [] := by
  intro c first
  cases first

theorem closed_cons {c : Char} (h : continues c = false) (rest : List Char) : Closed (c :: rest) := by
  intro d first
  cases first
  exact h

structure WholePart (ds : List Char) : Prop where
  digits : ∀ c ∈ ds, digit c = true
  first : ds = ['0'] ∨ ∃ c more, ds = c :: more ∧ c ≠ '0'

namespace Literal

def fractionText (ds : List Char) : List Char := if ds.isEmpty then [] else '.' :: ds

def exponentText : Option (Bool × List Char) → List Char
  | none => []
  | some (negative, ds) => 'e' :: (if negative then '-' else '+') :: ds

def text (l : Literal) : List Char :=
  (if l.negative then ['-'] else []) ++ (l.whole ++ (fractionText l.fraction ++ exponentText l.exponent))

structure Valid (l : Literal) : Prop where
  whole : WholePart l.whole
  fraction : ∀ c ∈ l.fraction, digit c = true
  exponent : ∀ negative ds, l.exponent = some (negative, ds) → ds ≠ [] ∧ ∀ c ∈ ds, digit c = true

end Literal

open Literal (fractionText exponentText)

theorem span_digits {ds rest : List Char} (digits : ∀ c ∈ ds, digit c = true)
    (stop : ∀ c, rest.head? = some c → digit c = false) :
    (ds ++ rest).takeWhile digit = ds ∧ (ds ++ rest).dropWhile digit = rest := by
  rw [List.takeWhile_append_of_pos digits, List.dropWhile_append_of_pos digits]
  cases rest with
  | nil => simp
  | cons c more =>
    have other : digit c = false := stop c rfl
    simp [other]

section Parts

variable {rest : List Char} (closed : Closed rest)
include closed

theorem Closed.not_digit (c : Char) (first : rest.head? = some c) : digit c = false := by
  have other := closed c first
  simp only [continues, Bool.or_eq_false_iff] at other
  exact other.1.1.1

theorem not_dot_exponentText (exponent : Option (Bool × List Char)) (more : List Char) :
    exponentText exponent ++ rest ≠ '.' :: more := by
  intro same
  cases exponent with
  | some e => cases same
  | none =>
    have other := closed '.' (congrArg List.head? same)
    cases other

theorem not_digit_exponentText (exponent : Option (Bool × List Char)) (c : Char)
    (first : (exponentText exponent ++ rest).head? = some c) : digit c = false := by
  cases exponent with
  | none => exact closed.not_digit c first
  | some e =>
    cases first
    rfl

theorem not_digit_fractionText (fraction : List Char) (exponent : Option (Bool × List Char)) (c : Char)
    (first : (fractionText fraction ++ (exponentText exponent ++ rest)).head? = some c) : digit c = false := by
  cases fraction with
  | nil => exact not_digit_exponentText closed exponent c first
  | cons d more =>
    cases first
    rfl

theorem scanExponent_text (l : Literal) (blank : l.exponent = none) {exponent : Option (Bool × List Char)}
    (digits : ∀ negative ds, exponent = some (negative, ds) → ds ≠ [] ∧ ∀ c ∈ ds, digit c = true) :
    scanExponent l (exponentText exponent ++ rest) = (Literal.draft { l with exponent }, rest) := by
  cases exponent with
  | none =>
    have same : { l with exponent := none } = l := by rw [← blank]
    rw [same]
    cases rest with
    | nil => rfl
    | cons c more =>
      have other := closed c rfl
      simp only [continues, Bool.or_eq_false_iff, decide_eq_false_iff_not] at other
      simp [exponentText, scanExponent, other]
  | some e =>
    obtain ⟨negative, ds⟩ := e
    obtain ⟨some, all⟩ := digits negative ds rfl
    obtain ⟨taken, left⟩ := span_digits all closed.not_digit
    cases negative <;> simp [exponentText, scanExponent, taken, left, some]

theorem scanFraction_text {l : Literal} (valid : l.Valid) :
    scanFraction { l with fraction := [], exponent := none }
      (fractionText l.fraction ++ (exponentText l.exponent ++ rest)) = (l.draft, rest) := by
  cases written : l.fraction with
  | nil =>
    have skipped (m : Literal) : scanFraction m (exponentText l.exponent ++ rest) =
        scanExponent m (exponentText l.exponent ++ rest) := by
      unfold scanFraction
      split
      next more same => exact absurd same (not_dot_exponentText closed l.exponent more)
      next => rfl
    rw [show fractionText [] = [] from rfl, List.nil_append, skipped,
      scanExponent_text closed _ rfl valid.exponent, ← written]
  | cons d more =>
    have digits : ∀ c ∈ d :: more, digit c = true := written ▸ valid.fraction
    obtain ⟨taken, left⟩ := span_digits digits (not_digit_exponentText closed l.exponent)
    rw [show fractionText (d :: more) = '.' :: d :: more from rfl, List.cons_append]
    simp only [scanFraction, taken, left, List.isEmpty_cons, Bool.false_eq_true, if_false]
    rw [scanExponent_text closed _ rfl valid.exponent, ← written]

theorem scanWhole_text {l : Literal} (valid : l.Valid) :
    scanWhole l.negative (l.whole ++ (fractionText l.fraction ++ (exponentText l.exponent ++ rest))) =
      (l.draft, rest) := by
  obtain ⟨taken, left⟩ := span_digits valid.whole.digits (not_digit_fractionText closed l.fraction l.exponent)
  have last := scanFraction_text closed valid
  simp only [scanWhole, taken, left]
  rcases valid.whole.first with zero | ⟨c, more, whole, nonzero⟩
  · rw [zero] at last ⊢
    exact last
  · rw [whole] at last ⊢
    split
    next none => cases none
    next lead => exact absurd (List.cons.inj lead).1 nonzero
    next => exact last

theorem scanNumber_text {l : Literal} (valid : l.Valid) : scanNumber (l.text ++ rest) = (l.draft, rest) := by
  have unsigned := scanWhole_text closed valid
  rw [Literal.text]
  simp only [List.append_assoc]
  cases sign : l.negative with
  | true =>
    rw [sign] at unsigned
    exact unsigned
  | false =>
    rw [sign] at unsigned
    rw [if_neg (by decide), List.nil_append]
    unfold scanNumber
    split
    next more minus =>
      rcases valid.whole.first with zero | ⟨c, more, whole, -⟩
      · rw [zero] at minus
        cases minus
      · have first : digit c = true := valid.whole.digits c (by rw [whole]; exact List.mem_cons_self)
        rw [whole] at minus
        obtain rfl : c = '-' := (List.cons.inj minus).1
        cases first
    next => exact unsigned

end Parts

theorem digit_of_isDigit {c : Char} (h : c.isDigit = true) : digit c = true := by
  simp only [Char.isDigit, Bool.and_eq_true, decide_eq_true_eq] at h
  simp only [digit, Bool.and_eq_true, decide_eq_true_eq]
  exact h

theorem digit_toDigits {n : Nat} {c : Char} (member : c ∈ Nat.toDigits 10 n) : digit c = true :=
  digit_of_isDigit (Nat.isDigit_of_mem_toDigits (by decide) (by decide) member)

theorem exists_first_digit {n : Nat} (positive : 0 < n) : ∃ c more, Nat.toDigits 10 n = c :: more ∧ c ≠ '0' := by
  induction n using Nat.strongRecOn with
  | ind n ih =>
    by_cases small : n < 10
    · refine ⟨n.digitChar, [], Nat.toDigits_of_lt_base small, ?_⟩
      rw [Ne, Nat.digitChar_eq_zero]
      omega
    · obtain ⟨c, more, first, nonzero⟩ := ih (n / 10) (by omega) (by omega)
      refine ⟨c, more ++ [(n % 10).digitChar], ?_, nonzero⟩
      rw [Nat.toDigits_of_base_le (by decide) (by omega), first, List.cons_append]

theorem wholePart_toDigits (n : Nat) : WholePart (Nat.toDigits 10 n) where
  digits _ member := digit_toDigits member
  first := by
    cases n with
    | zero => exact .inl (Nat.toDigits_zero 10)
    | succ n => exact .inr (exists_first_digit (Nat.succ_pos n))

theorem digitsValue_toDigits (n : Nat) : digitsValue (Nat.toDigits 10 n) = n := by
  have value := Nat.ofDigitChars_ten_toDigits (n := n)
  rw [Nat.ofDigitChars_eq_foldl] at value
  simp only [digitsValue, digitValue]
  simpa only [Nat.mul_comm] using value

end Scan

namespace Whole

open Scan

def literal (n : Whole) : Literal := ⟨decide (n.toInt < 0), Nat.toDigits 10 n.toInt.natAbs, [], none⟩

theorem text_eq_literal (n : Whole) : n.text = n.literal.text := by
  by_cases negative : n.toInt < 0 <;>
    simp [Whole.text, literal, Literal.text, Literal.fractionText, Literal.exponentText, negative]

theorem valid_literal (n : Whole) : n.literal.Valid where
  whole := wholePart_toDigits n.toInt.natAbs
  fraction _ member := absurd member List.not_mem_nil
  exponent _ _ written := by cases written

theorem draft_literal (n : Whole) : n.literal.draft = .number (.whole n) := by
  have value : digitsValue n.literal.whole = n.toInt.natAbs := digitsValue_toDigits n.toInt.natAbs
  have plain : n.literal.fraction.isEmpty ∧ n.literal.exponent = none ∧
      ¬ (n.literal.negative ∧ digitsValue n.literal.whole = 0) := by
    refine ⟨rfl, rfl, fun ⟨negative, zero⟩ => ?_⟩
    have below : n.toInt < 0 := by simpa [literal] using negative
    omega
  have signed : (if n.literal.negative then -(digitsValue n.literal.whole : Int) else digitsValue n.literal.whole) =
      n.toInt := by
    rw [value]
    by_cases negative : n.toInt < 0
    · rw [if_pos (by simpa [literal] using negative)]
      omega
    · rw [if_neg (by simpa [literal] using negative)]
      omega
  rw [Literal.draft, Literal.number?, if_pos plain, signed, Whole.ofInt?_toInt]

end Whole
end Waybill
