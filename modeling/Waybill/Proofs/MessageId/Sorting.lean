import Waybill.Proofs.Json.Form
import Waybill.Proofs.MessageId.Text
import Waybill.Proofs.Order.Groups

/-! Identities and their texts. The alphabet ascends and all texts are of one length, so identities sort as their texts
do, bare, in quotes, or behind the mark that is shown to people. A text is read in either case of its letters, and two
bits of its first digit are dropped; nothing else can differ between a text that is read and the text of what it
says. -/
namespace Waybill.MessageId

section Places

theorem digit_lt_digit_iff (n m : Nat) : digit n < digit m ↔ n % 32 < m % 32 := by
  have all : ∀ a < 32, ∀ b < 32, alphabet.getD a '0' < alphabet.getD b '0' ↔ a < b := by decide
  exact all (n % 32) (Nat.mod_lt n (by decide)) (m % 32) (Nat.mod_lt m (by decide))

theorem digit_inj {n m : Nat} (same : digit n = digit m) : n % 32 = m % 32 := by
  have read := congrArg digitValue? same
  rw [digitValue?_digit, digitValue?_digit] at read
  exact Option.some.inj read

theorem digit_mod (n : Nat) : digit (n % 32) = digit n := by rw [digit, digit, Nat.mod_mod]

theorem digits_congr {places n m : Nat} (same : n % Nat.pow 32 places = m % Nat.pow 32 places) :
    digits places n = digits places m := by
  induction places with
  | zero => rfl
  | succ places ih =>
    have unit : 0 < Nat.pow 32 places := Nat.pow_pos (by decide)
    have lower : n % Nat.pow 32 places = m % Nat.pow 32 places := by
      have cut (k : Nat) : k % Nat.pow 32 (places + 1) % Nat.pow 32 places = k % Nat.pow 32 places :=
        Nat.mod_mod_of_dvd k (Nat.pow_dvd_pow 32 (Nat.le_succ places))
      rw [← cut n, ← cut m, same]
    rw [mod_succ_places, mod_succ_places, lower] at same
    have leading : n / Nat.pow 32 places % 32 = m / Nat.pow 32 places % 32 :=
      Nat.eq_of_mul_eq_mul_left unit (Nat.add_left_cancel same)
    rw [digits, digits, ih lower, ← digit_mod, leading, digit_mod]

theorem digits_lt_digits_iff (places n m : Nat) :
    digits places n < digits places m ↔ n % Nat.pow 32 places < m % Nat.pow 32 places := by
  induction places with
  | zero => simp [digits, Nat.mod_one]
  | succ places ih =>
    rw [digits, digits, List.cons_lt_cons_iff, ih, digit_lt_digit_iff, mod_succ_places, mod_succ_places]
    have unit : 0 < Nat.pow 32 places := Nat.pow_pos (by decide)
    have low := Nat.mod_lt n unit
    have high := Nat.mod_lt m unit
    have leading : digit (n / Nat.pow 32 places) = digit (m / Nat.pow 32 places) ↔
        n / Nat.pow 32 places % 32 = m / Nat.pow 32 places % 32 :=
      ⟨digit_inj, fun same => by rw [← digit_mod, same, digit_mod]⟩
    rw [leading]
    generalize n / Nat.pow 32 places % 32 = a
    generalize m / Nat.pow 32 places % 32 = b
    generalize n % Nat.pow 32 places = x at low ⊢
    generalize m % Nat.pow 32 places = y at high ⊢
    generalize Nat.pow 32 places = weight at low high ⊢
    rcases Nat.lt_trichotomy a b with less | rfl | more
    · have step : weight * (a + 1) ≤ weight * b := Nat.mul_le_mul_left weight less
      rw [Nat.mul_add] at step
      omega
    · simp
    · have step : weight * (b + 1) ≤ weight * a := Nat.mul_le_mul_left weight more
      rw [Nat.mul_add] at step
      omega

end Places

section Texts

theorem toList_text (x : MessageId) : x.text.toList = digits 26 x.number := String.toList_ofList

theorem text_lt_text_iff (x y : MessageId) : x.text < y.text ↔ x < y := by
  change x.text.toList < y.text.toList ↔ _
  rw [toList_text, toList_text, digits_lt_digits_iff, fits_places, fits_places, lt_iff]

theorem text_le_text_iff (x y : MessageId) : x.text ≤ y.text ↔ x.number ≤ y.number := by
  rw [← String.not_lt, text_lt_text_iff, lt_iff, Nat.not_lt]

theorem framed_lt_framed_iff (front back : List Char) {s t : List Char} (same : s.length = t.length) :
    front ++ (s ++ back) < front ++ (t ++ back) ↔ s < t := by
  have behind : s ++ back < t ++ back ↔ s < t := by
    induction s generalizing t with
    | nil =>
      obtain rfl := List.length_eq_zero_iff.1 same.symm
      exact iff_of_false (List.lt_irrefl _) (List.lt_irrefl _)
    | cons c s ih =>
      obtain ⟨d, t, rfl⟩ := List.exists_cons_of_length_eq_add_one same.symm
      rw [List.cons_append, List.cons_append, List.cons_lt_cons_iff, List.cons_lt_cons_iff,
        ih (Nat.succ.inj same)]
  induction front with
  | nil => exact behind
  | cons c front ih => simpa [List.cons_lt_cons_iff, Char.lt_irrefl] using ih

theorem lt_iff_of_framed {x y : MessageId} {s t : String} (front back : List Char)
    (first : s.toList = front ++ (x.text.toList ++ back)) (second : t.toList = front ++ (y.text.toList ++ back)) :
    s < t ↔ x < y := by
  have length (z : MessageId) : z.text.toList.length = 26 := by rw [toList_text, length_digits]
  rw [← text_lt_text_iff]
  change s.toList < t.toList ↔ x.text.toList < y.text.toList
  rw [first, second]
  exact framed_lt_framed_iff front back ((length x).trans (length y).symm)

theorem toList_display (x : MessageId) : x.display.toList = ['m', 's', 'g', '-'] ++ (x.text.toList ++ []) := by
  rw [display, String.toList_append, List.append_nil]
  rfl

theorem escaped_digit (n : Nat) : Compact.escaped (digit n) = [digit n] :=
  digit_of_alphabet (p := fun c => Compact.escaped c = [c]) (by decide) n

theorem flatMap_escaped_digits (places n : Nat) : (digits places n).flatMap Compact.escaped = digits places n := by
  induction places with
  | zero => rfl
  | succ places ih => rw [digits, List.flatMap_cons, escaped_digit, ih, List.singleton_append]

theorem toList_compact (x : MessageId) : (Doc.text x.text).compact.toList = ['"'] ++ (x.text.toList ++ ['"']) := by
  rw [Doc.compact, String.toList_ofList, Compact.doc, Compact.string_eq, toList_text, flatMap_escaped_digits]
  rfl

end Texts

section Reading

theorem toUpper_digit (n : Nat) : (digit n).toUpper = digit n :=
  digit_of_alphabet (p := fun c => c.toUpper = c) (by decide) n

theorem map_toUpper_digits (places n : Nat) : (digits places n).map Char.toUpper = digits places n := by
  induction places with
  | zero => rfl
  | succ places ih => rw [digits, List.map_cons, toUpper_digit, ih]

theorem utf8Size_of_toUpper {c : Char} (narrow : c.toUpper.utf8Size = 1) : c.utf8Size = 1 := by
  rw [Char.utf8Size_eq_one_iff] at narrow ⊢
  delta Char.toUpper at narrow
  split at narrow
  next lower => exact UInt32.le_trans lower.2 (by decide)
  next => exact narrow

theorem narrow_of_map_toUpper {cs : List Char} {places n : Nat} (same : cs.map Char.toUpper = digits places n) :
    ∀ c ∈ cs, c.utf8Size = 1 := by
  intro c member
  have inside : c.toUpper ∈ digits places n := same ▸ List.mem_map_of_mem member
  exact utf8Size_of_toUpper (utf8Size_of_mem_digits inside)

theorem value?_of_map_toUpper {cs ds : List Char} (same : cs.map Char.toUpper = ds.map Char.toUpper) (total : Nat) :
    value? total cs = value? total ds := by
  induction cs generalizing ds total with
  | nil => rw [List.map_eq_nil_iff.1 same.symm]
  | cons c cs ih =>
    obtain ⟨d, ds, rfl, upper, rest⟩ := List.map_eq_cons_iff.1 same.symm
    have value : digitValue? c = digitValue? d := congrArg alphabet.idxOf? upper.symm
    rw [value?, value?, value]
    exact congrArg (Option.bind (digitValue? d)) (funext fun k => ih rest.symm _)

theorem utf8ByteSize_of_map_toUpper {s : String} {places n : Nat}
    (same : s.toList.map Char.toUpper = digits places n) : s.utf8ByteSize = s.toList.length := by
  have bytes := utf8ByteSize_ofList_of_narrow (narrow_of_map_toUpper same)
  rwa [String.ofList_toList] at bytes

theorem ofText_of_map_toUpper {s : String} {x : MessageId} (same : s.toList.map Char.toUpper = x.text.toList) :
    ofText s = .ok x := by
  have upper : s.toList.map Char.toUpper = x.text.toList.map Char.toUpper := by
    rw [same, toList_text, map_toUpper_digits]
  have size : s.utf8ByteSize = x.text.utf8ByteSize := by
    have length := congrArg List.length same
    rw [List.length_map, toList_text, length_digits] at length
    rw [utf8ByteSize_of_map_toUpper (same.trans (toList_text x)), length]
    exact (utf8ByteSize_digits 26 x.number).symm
  rw [← ofText_text x, ofText, ofText, size, value?_of_map_toUpper upper]

theorem digit_of_digitValue? {c : Char} {d : Nat} (read : digitValue? c = some d) : digit d = c.toUpper ∧ d < 32 := by
  obtain ⟨inside, here, -⟩ := List.idxOf?_eq_some_iff.1 read
  have small : d < 32 := inside
  refine ⟨?_, small⟩
  rw [digit, Nat.mod_eq_of_lt small, List.getD_eq_getElem?_getD, List.getElem?_eq_getElem inside, here]
  rfl

/-- What has been read stands in the number behind the total, digit by digit. -/
theorem digits_of_value? {cs : List Char} {total n : Nat} (read : value? total cs = some n) :
    n / Nat.pow 32 cs.length = total ∧ digits cs.length n = cs.map Char.toUpper := by
  induction cs generalizing total with
  | nil =>
    cases read
    exact ⟨Nat.div_one _, rfl⟩
  | cons c rest ih =>
    rw [value?] at read
    obtain ⟨d, value, read⟩ := Option.bind_eq_some_iff.1 read
    obtain ⟨upper, small⟩ := digit_of_digitValue? value
    obtain ⟨above, same⟩ := ih read
    constructor
    · rw [List.length_cons, show Nat.pow 32 (rest.length + 1) = Nat.pow 32 rest.length * 32 from rfl,
        ← Nat.div_div_eq_div_mul, above]
      omega
    · rw [List.length_cons, digits, above, same, List.map_cons, ← upper, ← digit_mod]
      congr 2
      omega

theorem exists_text_of_ofText {s : String} {x : MessageId} (reads : ofText s = .ok x) :
    ∃ c rest d, s.toList = c :: rest ∧ rest.length = 25 ∧ digitValue? c = some d ∧
      x.text.toList = digit (d % 8) :: rest.map Char.toUpper := by
  rw [ofText] at reads
  split at reads
  next => cases reads
  next size =>
    split at reads
    next n value =>
      have bytes := utf8ByteSize_of_map_toUpper (digits_of_value? value).2.symm
      rw [Decidable.not_not.1 size] at bytes
      obtain ⟨c, rest, split⟩ := List.exists_cons_of_length_eq_add_one bytes.symm
      rw [split, List.length_cons] at bytes
      have length : rest.length = 25 := by omega
      rw [split, value?] at value
      obtain ⟨d, first, value⟩ := Option.bind_eq_some_iff.1 value
      obtain ⟨above, others⟩ := digits_of_value? value
      rw [length] at above others
      refine ⟨c, rest, d, split, length, first, ?_⟩
      obtain rfl := Except.ok.inj reads
      have weight : Nat.pow 32 25 = 42535295865117307932921825928971026432 := rfl
      have number : (ofNumber n).number = n % 0x100000000000000000000000000000000 := rfl
      have kept : (ofNumber n).number % Nat.pow 32 25 = n % Nat.pow 32 25 := by
        rw [weight, number]
        omega
      have leading : (ofNumber n).number / Nat.pow 32 25 = d % 8 := by
        rw [weight] at above ⊢
        rw [number]
        omega
      rw [toList_text, digits, leading, digits_congr kept, others]
    next => cases reads

end Reading

theorem sort_ascending (ids : List MessageId) : ((sort ids).map text).Pairwise (· ≤ ·) := by
  rw [List.pairwise_map]
  refine (List.pairwise_mergeSort ?_ ?_ ids).imp fun {x y} less => (text_le_text_iff x y).2 (of_decide_eq_true less)
  · intro x y z first second
    exact decide_eq_true (Nat.le_trans (of_decide_eq_true first) (of_decide_eq_true second))
  · intro x y
    simpa using Nat.le_total x.number y.number

/-- The text of an identity reads back as the identity, whatever the case of its letters, identities compare as their
texts do, and a text that is read differs from what is written again at most in the case of its letters and in the two
upper bits of its first digit. Groups and sorted identities are in the order of their texts. -/
theorem text_sortable (x : MessageId) :
    (∀ s : String, s = x.text ∨ s.toList.map Char.toUpper = x.text.toList →
      ofText s = .ok x ∧ Read.text read (Doc.text s).compact = .ok x) ∧
    (∀ y : MessageId, (x < y ↔ x.text < y.text) ∧ (x < y ↔ (Doc.text x.text).compact < (Doc.text y.text).compact) ∧
      (x < y ↔ x.display < y.display)) ∧
    (∀ s, ofText s = .ok x → ∃ c rest d, s.toList = c :: rest ∧ rest.length = 25 ∧ digitValue? c = some d ∧
      x.text.toList = digit (d % 8) :: rest.map Char.toUpper) ∧
    (∀ ids, (sort ids).Perm ids ∧ ((sort ids).map text).Pairwise (· ≤ ·)) ∧
    ∀ messages, ((Aggregate.groups messages).map fun g => g.correlation.text).Pairwise (· < ·) := by
  refine ⟨fun s spelled => ?_, fun y => ⟨?_, ?_, ?_⟩, fun s => exists_text_of_ofText, fun ids => ?_, fun messages => ?_⟩
  · have reads : ofText s = .ok x := by
      rcases spelled with rfl | same
      · exact ofText_text x
      · exact ofText_of_map_toUpper same
    refine ⟨reads, ?_⟩
    rw [Read.text_compact]
    exact read_of_ofText reads Read.levels
  · exact (text_lt_text_iff x y).symm
  · exact (lt_iff_of_framed ['"'] ['"'] (toList_compact x) (toList_compact y)).symm
  · exact (lt_iff_of_framed ['m', 's', 'g', '-'] [] (toList_display x) (toList_display y)).symm
  · exact ⟨List.mergeSort_perm ids _, sort_ascending ids⟩
  · rw [Aggregate.groups_eq_map_ids, List.map_map, List.pairwise_map]
    exact (Aggregate.ids_ascending messages).imp fun {x y} less => (text_lt_text_iff x y).2 less

theorem text_sortable_extremes :
    let least : MessageId := .ofNumber 0
    let greatest : MessageId := .ofNumber 0xFFFFFFFFFFFFFFFFFFFFFFFFFFFFFFFF
    ofText "7zzzzzzzzzzzzzzzzzzzzzzzzz" = .ok greatest ∧ least < greatest ∧ least.text < greatest.text ∧
      ∃ d, digitValue? 'z' = some d ∧ greatest.text.toList = digit (d % 8) :: (List.replicate 25 'Z') := by
  intro least greatest
  have reads : ofText "zzzzzzzzzzzzzzzzzzzzzzzzzz" = .ok greatest := rfl
  have less : least < greatest := by decide
  refine ⟨((text_sortable greatest).1 _ (.inr (by decide))).1, less, ((text_sortable least).2.1 greatest).1.1 less, ?_⟩
  obtain ⟨c, rest, d, split, -, first, again⟩ := (text_sortable greatest).2.2.1 _ reads
  obtain ⟨rfl, rfl⟩ := List.cons.inj split
  exact ⟨d, first, again⟩

end Waybill.MessageId
