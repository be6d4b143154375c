import Waybill.Proofs.Json.Numeral

/-! The text of a binary64 number is that of a literal, so that it can be scanned. The search for the digits starts at
the leading one and only looks at finer grids, so what it finds has a leading digit, and stripping the zeros at the end
leaves it there; each of the three layouts then has digits on both sides of its point and behind its exponent. -/
namespace Waybill

namespace Binary64

open Scan (Literal WholePart digit)

theorem one_pos : 0 < one := by
  unfold one
  apply Nat.pow_pos
  exact Nat.two_pos

-- comparisons would otherwise write the number out
attribute [local irreducible] one

theorem units_pos {pattern : Nat} (positive : 0 < pattern) : 0 < units pattern := by
  unfold units
  split
  · exact positive
  · exact Nat.mul_pos (by omega) (Nat.pow_pos (by decide))

/-- A number of units comes up to one step of a decimal grid. -/
def Reaches (size : Nat) (exponent : Int) : Prop :=
  if exponent < 0 then one ≤ size * Nat.pow 10 exponent.natAbs else one * Nat.pow 10 exponent.toNat ≤ size

theorem lt_pow_length_toDigits (n : Nat) : n < Nat.pow 10 (Nat.toDigits 10 n).length :=
  (Nat.length_toDigits_le_iff (by decide) Nat.length_toDigits_pos).1 (Nat.le_refl _)

theorem pow_le_of_length_toDigits {n k : Nat} (positive : 0 < n) (length : (Nat.toDigits 10 n).length = k + 1) :
    Nat.pow 10 k ≤ n := by
  cases k with
  | zero => exact positive
  | succ k =>
    refine Nat.not_lt.1 fun below => ?_
    have short := (Nat.length_toDigits_le_iff (by decide) (Nat.succ_pos k)).2 below
    omega

theorem reaches_leadingExponent_of_le {size : Nat} (large : one ≤ size) : Reaches size (leadingExponent size) := by
  rw [leadingExponent, if_pos large]
  have length := Nat.sub_add_cancel (Nat.length_toDigits_pos (b := 10) (n := size / one))
  have quotient := pow_le_of_length_toDigits (Nat.div_pos large one_pos) length.symm
  generalize (Nat.toDigits 10 (size / one)).length - 1 = k at length quotient
  have exponent : ((Nat.toDigits 10 (size / one)).length : Int) - 1 = (k : Int) := by
    rw [← length]
    exact Int.add_sub_cancel k 1
  rw [exponent, Reaches, if_neg (Int.not_lt.2 (Int.natCast_nonneg k)), Int.toNat_natCast, Nat.mul_comm]
  exact (Nat.le_div_iff_mul_le one_pos).1 quotient

theorem reaches_leadingExponent_of_lt {size : Nat} (positive : 0 < size) (small : size < one) :
    Reaches size (leadingExponent size) := by
  rw [leadingExponent, if_neg (Nat.not_le.2 small)]
  have places := Nat.length_toDigits_pos (b := 10) (n := (one - 1) / size)
  have below := lt_pow_length_toDigits ((one - 1) / size)
  generalize (Nat.toDigits 10 ((one - 1) / size)).length = k at places below
  have product : one - 1 < Nat.pow 10 k * size := (Nat.div_lt_iff_lt_mul positive).1 below
  rw [Reaches, if_pos (by omega), Int.natAbs_neg, Int.natAbs_natCast, Nat.mul_comm]
  exact Nat.le_of_pred_lt product

theorem reaches_leadingExponent {size : Nat} (positive : 0 < size) : Reaches size (leadingExponent size) :=
  (Nat.lt_or_ge size one).elim (reaches_leadingExponent_of_lt positive) reaches_leadingExponent_of_le

theorem Reaches.finer {size : Nat} {high low : Int} (h : Reaches size high) (finer : low ≤ high) :
    Reaches size low := by
  have larger {j k : Nat} (le : j ≤ k) : Nat.pow 10 j ≤ Nat.pow 10 k := Nat.pow_le_pow_right (by decide) le
  unfold Reaches at *
  by_cases highNegative : high < 0
  · rw [if_pos highNegative] at h
    rw [if_pos (by omega)]
    exact Nat.le_trans h (Nat.mul_le_mul_left _ (larger (by omega)))
  · rw [if_neg highNegative] at h
    by_cases lowNegative : low < 0
    · rw [if_pos lowNegative]
      have whole : one ≤ size := Nat.le_trans (Nat.le_mul_of_pos_right _ (Nat.pow_pos (by decide))) h
      exact Nat.le_trans whole (Nat.le_mul_of_pos_right _ (Nat.pow_pos (by decide)))
    · rw [if_neg lowNegative]
      exact Nat.le_trans (Nat.mul_le_mul_left _ (larger (by omega))) h

theorem digits_floorOn_pos {size : Nat} {exponent : Int} (h : Reaches size exponent) :
    0 < (floorOn size exponent).digits := by
  unfold Reaches at h
  unfold floorOn
  split
  next negative =>
    rw [if_pos negative] at h
    exact Nat.div_pos h one_pos
  next nonnegative =>
    rw [if_neg nonnegative] at h
    exact Nat.div_pos h (Nat.mul_pos one_pos (Nat.pow_pos (by decide)))

theorem digits_onGrid? {pattern : Nat} {exponent : Int} {d : Decimal} (found : onGrid? pattern exponent = some d) :
    (floorOn (units pattern) exponent).digits ≤ d.digits := by
  simp only [onGrid?] at found
  split at found
  · cases found
    exact Nat.le_refl _
  · cases found
    exact Nat.le_succ _
  · cases found
  · split at found
    · cases found
      exact Nat.le_refl _
    · cases found
      exact Nat.le_succ _

theorem digits_shortest_pos {pattern : Nat} (positive : 0 < pattern) : 0 < (shortest pattern).digits := by
  have finer (k : Nat) : 0 < (floorOn (units pattern) (leadingExponent (units pattern) - k)).digits :=
    digits_floorOn_pos (Reaches.finer (reaches_leadingExponent (units_pos positive))
      (Int.sub_le_self _ (Int.natCast_nonneg k)))
  unfold shortest
  simp only
  cases search : (List.range 17).findSome? fun (n : Nat) =>
      onGrid? pattern (leadingExponent (units pattern) - n) with
  | none => exact finer 16
  | some d =>
    obtain ⟨n, -, found⟩ := List.exists_of_findSome?_eq_some search
    exact Nat.lt_of_lt_of_le (finer n) (digits_onGrid? found)

structure Significant (ds : List Char) : Prop where
  digits : ∀ c ∈ ds, digit c = true
  first : ∃ c more, ds = c :: more ∧ c ≠ '0'

theorem significant_toDigits {n : Nat} (positive : 0 < n) : Significant (Nat.toDigits 10 n) where
  digits _ member := Scan.digit_toDigits member
  first := Scan.exists_first_digit positive

theorem mem_stripZeros {ds : List Char} {c : Char} (member : c ∈ stripZeros ds) : c ∈ ds := by
  induction ds with
  | nil => exact member
  | cons d more ih =>
    unfold stripZeros at member
    split at member
    · split at member
      · cases member
      · rw [List.mem_singleton.1 member]
        exact List.mem_cons_self
    next kept =>
      rcases List.mem_cons.1 member with rfl | later
      · exact List.mem_cons_self
      · exact List.mem_cons_of_mem _ (ih later)

theorem Significant.stripZeros {ds : List Char} (h : Significant ds) : Significant (stripZeros ds) where
  digits _ member := h.digits _ (mem_stripZeros member)
  first := by
    obtain ⟨c, more, rfl, nonzero⟩ := h.first
    unfold Binary64.stripZeros
    split
    · exact ⟨c, [], if_neg nonzero, nonzero⟩
    · exact ⟨c, _, rfl, nonzero⟩

theorem digit_zero : digit '0' = true := rfl

theorem digit_of_mem_singleton {c : Char} (h : digit c = true) : ∀ d ∈ [c], digit d = true := by
  intro d member
  rw [List.mem_singleton.1 member]
  exact h

theorem digit_of_mem_replicate {n : Nat} {c : Char} (member : c ∈ List.replicate n '0') : digit c = true := by
  rw [(List.mem_replicate.1 member).2]
  exact digit_zero

theorem digit_of_mem_append {a b : List Char} (left : ∀ c ∈ a, digit c = true) (right : ∀ c ∈ b, digit c = true) :
    ∀ c ∈ a ++ b, digit c = true := fun c member =>
  (List.mem_append.1 member).elim (left c) (right c)

theorem exists_layout {ds : List Char} (h : Significant ds) (exponent : Int) :
    ∃ l : Literal, l.negative = false ∧ l.Valid ∧ layout ds exponent = l.text := by
  obtain ⟨c, more, rfl, nonzero⟩ := h.first
  unfold layout
  simp only
  split
  next below =>
    let places := List.replicate (exponent.natAbs - 1) '0' ++ c :: more
    refine ⟨⟨false, ['0'], places, none⟩, rfl, ⟨⟨?_, .inl rfl⟩, ?_, fun _ _ written => by cases written⟩, ?_⟩
    · exact digit_of_mem_singleton digit_zero
    · exact digit_of_mem_append (fun _ => digit_of_mem_replicate) h.digits
    · have some : places.isEmpty = false := by simp [places]
      simp [Literal.text, Literal.fractionText, Literal.exponentText, some, places]
  next =>
    split
    next =>
      let whole := (c :: more).take (exponent.toNat + 1) ++
        List.replicate (exponent.toNat + 1 - (c :: more).length) '0'
      let after := (c :: more).drop (exponent.toNat + 1)
      let fraction := if after.isEmpty then ['0'] else after
      have some : fraction.isEmpty = false := by
        simp only [fraction]
        split
        · rfl
        next more => exact Bool.eq_false_iff.2 more
      refine ⟨⟨false, whole, fraction, none⟩, rfl, ⟨⟨?_, .inr ⟨c, _, rfl, nonzero⟩⟩, ?_,
        fun _ _ written => by cases written⟩, ?_⟩
      · exact digit_of_mem_append (fun d member => h.digits d (List.mem_of_mem_take member))
          (fun _ => digit_of_mem_replicate)
      · intro d member
        simp only [fraction] at member
        split at member
        · exact digit_of_mem_singleton digit_zero d member
        · exact h.digits d (List.mem_of_mem_drop member)
      · simp only [Literal.text, Literal.fractionText, Literal.exponentText, some]
        simp [whole, fraction, after]
    next =>
      refine ⟨⟨false, [c], more, some (decide (exponent < 0), Nat.toDigits 10 exponent.natAbs)⟩, rfl,
        ⟨⟨?_, .inr ⟨c, [], rfl, nonzero⟩⟩, ?_, ?_⟩, ?_⟩
      · exact digit_of_mem_singleton (h.digits c List.mem_cons_self)
      · exact fun d member => h.digits d (List.mem_cons_of_mem c member)
      · intro negative digits written
        cases written
        exact ⟨List.ne_nil_of_length_pos Nat.length_toDigits_pos, fun _ => Scan.digit_toDigits⟩
      · cases more <;> by_cases negative : exponent < 0 <;>
          simp [Literal.text, Literal.fractionText, Literal.exponentText, negative]

theorem Finite.exists_literal (x : Finite) : ∃ l : Literal, l.Valid ∧ x.text = l.text := by
  have unsigned : ∃ l : Literal, l.negative = false ∧ l.Valid ∧ { x with negative := false }.text = l.text := by
    by_cases zero : x.pattern = 0
    · refine ⟨⟨false, ['0'], ['0'], none⟩, rfl, ⟨⟨?_, .inl rfl⟩, ?_, fun _ _ written => by cases written⟩, ?_⟩
      · exact digit_of_mem_singleton digit_zero
      · exact digit_of_mem_singleton digit_zero
      · simp [Finite.text, zero, Literal.text, Literal.fractionText, Literal.exponentText]
    · have significant := significant_toDigits (digits_shortest_pos (Nat.pos_of_ne_zero zero))
      simpa [Finite.text, zero] using exists_layout significant.stripZeros _
  obtain ⟨l, plain, valid, written⟩ := unsigned
  refine ⟨{ l with negative := x.negative }, ⟨valid.whole, valid.fraction, valid.exponent⟩, ?_⟩
  have bare : l.text = l.whole ++ (Literal.fractionText l.fraction ++ Literal.exponentText l.exponent) := by
    simp [Literal.text, plain]
  rw [bare] at written
  simp only [Finite.text, Bool.false_eq_true, if_false] at written
  cases sign : x.negative <;> simp [Finite.text, Literal.text, sign, written]

end Binary64
end Waybill
