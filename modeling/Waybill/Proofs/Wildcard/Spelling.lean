import Waybill.Wildcard

/-! Text as it is spelled in units. In a spelling every character is one unit that starts it, followed by as many
others as that unit announces, and no two characters are spelled alike. So no character's spelling is the beginning of
another's, a unit that starts a character tells where text may be cut, and a part occurs in a text, as units, only where
it occurs as characters. UTF-8 is such a spelling. -/
namespace Waybill.Wildcard

variable {α : Type}

/-- The units of a single character: the first one may start it and says how many there are, the others may not. -/
def Coding.Whole (u : Coding α) (units : List α) : Prop :=
  ∃ first more, units = first :: more ∧ u.starts first = true ∧ (∀ a ∈ more, u.starts a = false) ∧
    u.width first = more.length + 1

structure Spelling (u : Coding α) where
  units : Char → List α
  whole : ∀ c, u.Whole (units c)
  injective : ∀ c d, units c = units d → c = d
  units_star : units '*' = [u.star]

namespace Spelling

variable {u : Coding α} (w : Spelling u)

def text (s : List Char) : List α := s.flatMap w.units

@[simp] theorem text_nil : w.text [] = [] := rfl

@[simp] theorem text_cons (c : Char) (s : List Char) : w.text (c :: s) = w.units c ++ w.text s := rfl

@[simp] theorem text_append (s t : List Char) : w.text (s ++ t) = w.text s ++ w.text t := List.flatMap_append

theorem text_star (s : List Char) : w.text ('*' :: s) = u.star :: w.text s := by
  rw [text_cons, units_star]
  rfl

theorem units_ne_nil (c : Char) : w.units c ≠ [] := by
  obtain ⟨first, more, spelled, -⟩ := w.whole c
  simp [spelled]

theorem exists_first {s : List Char} (nonempty : s ≠ []) :
    ∃ first more, w.text s = first :: more ∧ u.starts first = true := by
  obtain ⟨c, rest, rfl⟩ := List.exists_cons_of_ne_nil nonempty
  obtain ⟨first, more, spelled, starts, -⟩ := w.whole c
  exact ⟨first, more ++ w.text rest, by rw [text_cons, spelled, List.cons_append], starts⟩

theorem exists_length_text {s : List Char} (nonempty : s ≠ []) : ∃ k, (w.text s).length = k + 1 := by
  obtain ⟨first, more, spelled, -⟩ := w.exists_first nonempty
  exact ⟨more.length, by rw [spelled, List.length_cons]⟩

theorem stepOf_text_cons (c : Char) (s : List Char) : stepOf u (w.text (c :: s)) = (w.units c).length := by
  obtain ⟨first, more, spelled, -, -, width⟩ := w.whole c
  rw [text_cons, spelled, List.cons_append, stepOf, width, List.length_cons]

theorem append_inj {c d : Char} {after rest : List α} (same : w.units c ++ after = w.units d ++ rest) :
    c = d ∧ after = rest := by
  obtain ⟨first, more, spelled, -, -, width⟩ := w.whole c
  obtain ⟨first', more', spelled', -, -, width'⟩ := w.whole d
  have head : first = first' := by
    rw [spelled, spelled'] at same
    exact (List.cons.inj same).1
  have long : (w.units c).length = (w.units d).length := by
    rw [spelled, spelled', List.length_cons, List.length_cons, ← width, ← width', head]
  obtain ⟨units, rests⟩ := List.append_inj same long
  exact ⟨w.injective c d units, rests⟩

theorem text_prefix_iff {s t : List Char} : w.text s <+: w.text t ↔ s <+: t := by
  induction s generalizing t with
  | nil => exact iff_of_true (List.nil_prefix) (List.nil_prefix)
  | cons c s ih =>
    cases t with
    | nil => simp [units_ne_nil]
    | cons d t =>
      rw [List.cons_prefix_cons, ← ih, text_cons, text_cons]
      constructor
      · rintro ⟨after, same⟩
        rw [List.append_assoc] at same
        obtain ⟨here, rest⟩ := w.append_inj same
        exact ⟨here, after, rest⟩
      · rintro ⟨rfl, rest⟩
        exact (List.prefix_append_right_inj _).2 rest

theorem text_inj {s t : List Char} : w.text s = w.text t ↔ s = t := by
  refine ⟨fun same => ?_, fun same => same ▸ rfl⟩
  have forth : s <+: t := w.text_prefix_iff.1 (same ▸ List.prefix_rfl)
  have back : t <+: s := w.text_prefix_iff.1 (same ▸ List.prefix_rfl)
  exact forth.eq_of_length_le back.length_le

theorem exists_split_of_starts {s : List Char} {before after : List α} {a : α} (starts : u.starts a = true)
    (cut : w.text s = before ++ a :: after) : ∃ p q, s = p ++ q ∧ before = w.text p ∧ a :: after = w.text q := by
  induction s generalizing before with
  | nil => simp at cut
  | cons c s ih =>
    rcases List.append_eq_append_iff.1 cut with ⟨between, rfl, rest⟩ | ⟨end', spelled, rest⟩
    · obtain ⟨p, q, rfl, rfl, tail⟩ := ih rest
      exact ⟨c :: p, q, rfl, rfl, tail⟩
    · obtain ⟨first, more, units, -, others, -⟩ := w.whole c
      cases end' with
      | nil => exact ⟨[c], s, rfl, by simpa using spelled.symm, rest⟩
      | cons b end' =>
        obtain ⟨rfl, -⟩ := List.cons.inj rest
        cases before with
        | nil => exact ⟨[], c :: s, rfl, rfl, cut.symm⟩
        | cons _ before =>
          rw [units, List.cons_append] at spelled
          have inside : a ∈ more := (List.cons.inj spelled).2 ▸ by simp
          exact absurd starts (by simp [others a inside])

theorem exists_occurrence {s part : List Char} {before after : List α} (nonempty : part ≠ [])
    (found : w.text s = before ++ (w.text part ++ after)) :
    ∃ p q, s = p ++ (part ++ q) ∧ before = w.text p := by
  obtain ⟨first, more, spelled, starts⟩ := w.exists_first nonempty
  rw [spelled, List.cons_append] at found
  obtain ⟨p, rest, rfl, start, tail⟩ := w.exists_split_of_starts starts found
  have opens : w.text part <+: w.text rest := by
    rw [← tail, ← List.cons_append, ← spelled]
    exact List.prefix_append _ _
  obtain ⟨q, rfl⟩ := w.text_prefix_iff.1 opens
  exact ⟨p, q, rfl, start⟩

theorem text_suffix_iff {s t : List Char} : w.text s <:+ w.text t ↔ s <:+ t := by
  constructor
  · rintro ⟨before, same⟩
    rcases Classical.em (s = []) with rfl | nonempty
    · exact List.nil_suffix
    · have found : w.text t = before ++ (w.text s ++ []) := by rw [List.append_nil, same]
      obtain ⟨p, q, rfl, rfl⟩ := w.exists_occurrence nonempty found
      rw [text_append, List.append_right_inj, text_inj] at same
      exact ⟨p, same ▸ rfl⟩
  · rintro ⟨p, rfl⟩
    exact ⟨w.text p, (w.text_append p s).symm⟩

theorem mem_text_star {s : List Char} : u.star ∈ w.text s ↔ '*' ∈ s := by
  obtain ⟨first, more, spelled, starts, -⟩ := w.whole '*'
  obtain ⟨rfl, rfl⟩ : u.star = first ∧ [] = more := by simpa [w.units_star] using spelled
  refine ⟨fun member => ?_, fun member => List.mem_flatMap.2 ⟨'*', member, by simp [w.units_star]⟩⟩
  obtain ⟨before, after, cut⟩ := List.append_of_mem member
  obtain ⟨p, q, rfl, -, tail⟩ := w.exists_split_of_starts starts cut
  have opens : w.text ['*'] <+: w.text q := ⟨after, by rw [← tail, text_star]; rfl⟩
  obtain ⟨rest, rfl⟩ := w.text_prefix_iff.1 opens
  simp

section Cuts

theorem cuts_text (p q : List Char) : u.cuts (w.text (p ++ q)) (w.text p).length = true := by
  rw [text_append, Coding.cuts]
  split
  · rfl
  · cases q with
    | nil => simp
    | cons c q =>
      obtain ⟨first, more, spelled, starts⟩ := w.exists_first (List.cons_ne_nil c q)
      simp [spelled, starts]

/-- Where the first characters of a text end. -/
def offset (s : List Char) (k : Nat) : Nat := (w.text (s.take k)).length

@[simp] theorem offset_zero (s : List Char) : w.offset s 0 = 0 := rfl

theorem text_take_append_drop (s : List Char) (k : Nat) : w.text (s.take k) ++ w.text (s.drop k) = w.text s := by
  rw [← text_append, List.take_append_drop]

theorem take_offset (s : List Char) (k : Nat) : (w.text s).take (w.offset s k) = w.text (s.take k) := by
  rw [← w.text_take_append_drop s k, offset, List.take_left]

theorem drop_offset (s : List Char) (k : Nat) : (w.text s).drop (w.offset s k) = w.text (s.drop k) := by
  rw [← w.text_take_append_drop s k, offset, List.drop_left]

theorem cuts_offset (s : List Char) (k : Nat) : u.cuts (w.text s) (w.offset s k) = true := by
  have cut := w.cuts_text (s.take k) (s.drop k)
  rwa [List.take_append_drop] at cut

theorem offset_add (s : List Char) (i j : Nat) : w.offset s (i + j) = w.offset s i + w.offset (s.drop i) j := by
  rw [offset, List.take_add, text_append, List.length_append, offset, offset]

theorem offset_append (s t : List Char) : w.offset (s ++ t) s.length = (w.text s).length := by
  rw [offset, List.take_left]

theorem exists_offset_succ {s : List Char} (nonempty : s ≠ []) (k : Nat) : ∃ j, w.offset s (k + 1) = j + 1 :=
  w.exists_length_text (by simp [nonempty])

theorem stepOf_text {s : List Char} (nonempty : s ≠ []) : stepOf u (w.text s) = w.offset s 1 := by
  obtain ⟨c, s, rfl⟩ := List.exists_cons_of_ne_nil nonempty
  rw [stepOf_text_cons, offset, List.take_succ_cons, List.take_zero, text_cons, text_nil, List.append_nil]

end Cuts

variable [DecidableEq α]

theorem idxOf?_plain {s : List Char} (plain : '*' ∉ s) : (w.text s).idxOf? u.star = none :=
  List.idxOf?_eq_none_iff.2 fun member => plain (w.mem_text_star.1 member)

theorem idxOf?_star {lead : List Char} (plain : '*' ∉ lead) (rest : List Char) :
    (w.text (lead ++ '*' :: rest)).idxOf? u.star = some (w.text lead).length := by
  have absent : u.star ∉ w.text lead := fun member => plain (w.mem_text_star.1 member)
  rw [text_append, text_star, List.idxOf?_eq_some_iff]
  refine ⟨by simp, by simp, fun place before same => absent ?_⟩
  rw [List.getElem_append_left before] at same
  exact same ▸ List.getElem_mem before

end Spelling

section Bytes

theorem starts_ofNat {n : Nat} (small : n < 256) : bytes.starts (UInt8.ofNat n) = true ↔ n < 128 ∨ 192 ≤ n := by
  simp [bytes, UInt8.lt_iff_toNat_lt, UInt8.le_iff_toNat_le, Nat.mod_eq_of_lt small]

theorem width_ofNat {n : Nat} (small : n < 256) :
    bytes.width (UInt8.ofNat n) = if n < 128 then 1 else if n < 224 then 2 else if n < 240 then 3 else 4 := by
  simp [bytes, UInt8.lt_iff_toNat_lt, Nat.mod_eq_of_lt small]

theorem whole_ofNat {n : Nat} (small : n < 256) (starts : n < 128 ∨ 192 ≤ n) (more : List Nat)
    (width : (if n < 128 then 1 else if n < 224 then 2 else if n < 240 then 3 else 4) = more.length + 1) :
    bytes.Whole (UInt8.ofNat n :: more.map fun bits => UInt8.ofNat (bits % 64 + 128)) := by
  refine ⟨_, _, rfl, (starts_ofNat small).2 starts, fun b member => ?_, ?_⟩
  · obtain ⟨bits, -, rfl⟩ := List.mem_map.1 member
    rw [Bool.eq_false_iff, ne_eq, starts_ofNat (by omega)]
    omega
  · rw [width_ofNat small, width, List.length_map]

theorem whole_utf8EncodeChar (c : Char) : bytes.Whole (String.utf8EncodeChar c) := by
  have bound : c.val.toNat < 0x110000 := by
    have valid := c.valid
    simp only [UInt32.isValidChar, Nat.isValidChar] at valid
    omega
  unfold String.utf8EncodeChar
  generalize c.val.toNat = n at bound
  dsimp only
  split
  · exact whole_ofNat (by omega) (by omega) [] (by grind)
  · split
    · exact whole_ofNat (by omega) (by omega) [n] (by grind)
    · split
      · exact whole_ofNat (by omega) (by omega) [n / 64, n] (by grind)
      · exact whole_ofNat (by omega) (by omega) [n / 4096, n / 64, n] (by grind)

theorem utf8EncodeChar_inj {c d : Char} (same : String.utf8EncodeChar c = String.utf8EncodeChar d) : c = d := by
  have encoded : [c].utf8Encode = [d].utf8Encode := by
    rw [List.utf8Encode_singleton, List.utf8Encode_singleton, same]
  simpa using congrArg (fun text => text.utf8DecodeChar? 0) encoded

def utf8 : Spelling bytes where
  units := String.utf8EncodeChar
  whole := whole_utf8EncodeChar
  injective _ _ := utf8EncodeChar_inj
  units_star := by decide

theorem bytesOf_eq (s : String) : bytesOf s = utf8.text s.toList := rfl

end Bytes

end Waybill.Wildcard
