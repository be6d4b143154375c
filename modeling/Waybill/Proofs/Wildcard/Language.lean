import Mathlib.Data.List.Forall2
import Waybill.Proofs.Wildcard.Characters

/-! The language of a pattern: a star stands for any run of characters, every other character for itself. The search
decides it, on bytes as on any other spelling, and none of its cuts fails. Each moment of a match is about a statement, a
call that the name fits and a round that the part leads to what the rest of the pattern accepts, and what comes of the
moment settles it. A search for a part goes on one character after the last occurrence, so it misses none. -/
namespace Waybill.Wildcard

/-- One piece for each character of the pattern, any piece for a star. -/
def Fits (pattern name : List Char) : Prop :=
  ∃ pieces : List (List Char), List.Forall₂ (fun c piece => c ≠ '*' → piece = [c]) pattern pieces ∧
    pieces.flatten = name

section Fitting

variable {p n : List Char}

theorem fits_nil : Fits [] n ↔ n = [] := by
  constructor
  · rintro ⟨pieces, stands, rfl⟩
    cases stands
    rfl
  · rintro rfl
    exact ⟨[], .nil, rfl⟩

theorem fits_cons {c : Char} :
    Fits (c :: p) n ↔ ∃ piece rest, (c ≠ '*' → piece = [c]) ∧ n = piece ++ rest ∧ Fits p rest := by
  constructor
  · rintro ⟨_, stands, rfl⟩
    cases stands with
    | cons first more => exact ⟨_, _, first, rfl, _, more, rfl⟩
  · rintro ⟨piece, _, first, rfl, pieces, more, rfl⟩
    exact ⟨piece :: pieces, .cons first more, rfl⟩

theorem fits_star : Fits ('*' :: p) n ↔ ∃ skipped rest, n = skipped ++ rest ∧ Fits p rest := by
  simp [fits_cons]

theorem fits_append {lead : List Char} (plain : '*' ∉ lead) :
    Fits (lead ++ p) n ↔ ∃ rest, n = lead ++ rest ∧ Fits p rest := by
  induction lead generalizing n with
  | nil => simp
  | cons c lead ih =>
    simp only [List.mem_cons, not_or] at plain
    have self : c ≠ '*' := Ne.symm plain.1
    rw [List.cons_append, fits_cons]
    constructor
    · rintro ⟨piece, after, stands, rfl, fits⟩
      obtain ⟨rest, rfl, tail⟩ := (ih plain.2).1 fits
      exact ⟨rest, by rw [stands self]; rfl, tail⟩
    · rintro ⟨rest, rfl, fits⟩
      exact ⟨[c], lead ++ rest, fun _ => rfl, rfl, (ih plain.2).2 ⟨rest, rfl, fits⟩⟩

theorem fits_plain (plain : '*' ∉ p) : Fits p n ↔ p = n := by
  have whole := fits_append (p := []) (n := n) plain
  rw [List.append_nil] at whole
  simp [whole, fits_nil, eq_comm]

theorem fits_star_plain (plain : '*' ∉ p) : Fits ('*' :: p) n ↔ p <:+ n := by
  simp [fits_star, fits_plain plain, List.IsSuffix, eq_comm]

theorem fits_star_star : Fits ('*' :: '*' :: p) n ↔ Fits ('*' :: p) n := by
  rw [fits_star]
  constructor
  · rintro ⟨skipped, _, rfl, fits⟩
    obtain ⟨more, rest, rfl, tail⟩ := fits_star.1 fits
    exact fits_star.2 ⟨skipped ++ more, rest, (List.append_assoc ..).symm, tail⟩
  · intro fits
    exact ⟨[], n, rfl, fits⟩

end Fitting

def Leads (part : List Char) (accepted : List Char → Prop) (s : List Char) : Prop :=
  ∃ before after, s = before ++ (part ++ after) ∧ accepted after

theorem fits_star_append {part q n : List Char} (plain : '*' ∉ part) :
    Fits ('*' :: (part ++ q)) n ↔ Leads part (Fits q) n := by
  rw [fits_star]
  constructor
  · rintro ⟨before, _, rfl, fits⟩
    obtain ⟨after, rfl, tail⟩ := (fits_append plain).1 fits
    exact ⟨before, after, rfl, tail⟩
  · rintro ⟨before, after, rfl, fits⟩
    exact ⟨before, part ++ after, rfl, (fits_append plain).2 ⟨after, rfl, fits⟩⟩

/-- What is not found at the first occurrence is found behind its first character. -/
theorem leads_of_first {c : Char} {part before after : List Char} {accepted : List Char → Prop}
    (first : ∀ other rest, before ++ (c :: part ++ after) = other ++ (c :: part ++ rest) →
      before.length ≤ other.length) (refused : ¬ accepted after) :
    Leads (c :: part) accepted (before ++ (c :: part ++ after)) ↔ Leads (c :: part) accepted (part ++ after) := by
  constructor
  · rintro ⟨other, rest, same, good⟩
    have within : before <+: other :=
      List.prefix_of_prefix_length_le ⟨_, rfl⟩ ⟨_, same.symm⟩ (first other rest same)
    obtain ⟨between, rfl⟩ := within
    rw [List.append_assoc, List.append_right_inj] at same
    cases between with
    | nil =>
      obtain rfl : after = rest := List.append_cancel_left same
      exact absurd good refused
    | cons d between => exact ⟨between, rest, (List.cons.inj same).2, good⟩
  · rintro ⟨other, rest, same, good⟩
    exact ⟨before ++ c :: other, rest, by simp [same], good⟩

def Decides (answer : Option Bool) (statement : Prop) : Prop := ∃ yes, answer = some yes ∧ (yes = true ↔ statement)

theorem Decides.of_not {answer : Option Bool} {p : Prop} (decides : Decides answer p) (refuted : ¬ p) :
    answer = some false := by
  obtain ⟨yes, came, right⟩ := decides
  rw [came, Bool.eq_false_iff.2 fun good => refuted (right.1 good)]

namespace Moment

def Asks : Moment Char → Prop
  | call pattern name => Fits pattern name
  | round part tail name start => Leads part (Fits tail) (name.drop start)

end Moment

def Outcome.Asks : Outcome Char → Prop
  | answer yes => yes = true
  | follow next => next.Asks
  | attempt first second => first.Asks ∨ second.Asks

namespace Moment

theorem asks_call_star (rest name : List Char) :
    (call ('*' :: rest) name).Asks ↔ ((call ('*' :: rest) name).turn characters).outcome.Asks := by
  have here := idxOf?_cons_self '*' rest
  rcases again : rest.idxOf? '*' with _ | _ | next
  · simp only [turn, star_characters, here, List.tail_cons, again, Asks, Outcome.Asks,
      fits_star_plain (List.idxOf?_eq_none_iff.1 again), List.isSuffixOf_iff_suffix]
  · obtain ⟨rest, rfl⟩ := exists_cons_of_idxOf? again
    simp only [turn, star_characters, here, List.tail_cons, again, Asks, Outcome.Asks, fits_star_star]
  · obtain ⟨part, tail, rfl, long, plain⟩ := exists_split_of_idxOf? again
    simp only [turn, star_characters, here, List.tail_cons, again]
    simp only [← long, List.take_left, List.drop_left, Asks, Outcome.Asks, List.drop_zero, fits_star_append plain]

theorem asks_call (pattern name : List Char) :
    (call pattern name).Asks ↔ ((call pattern name).turn characters).outcome.Asks := by
  rcases found : pattern.idxOf? '*' with _ | _ | first
  · simp only [turn, star_characters, found, Asks, Outcome.Asks, fits_plain (List.idxOf?_eq_none_iff.1 found),
      decide_eq_true_iff]
  · obtain ⟨rest, rfl⟩ := exists_cons_of_idxOf? found
    exact asks_call_star rest name
  · obtain ⟨lead, rest, rfl, long, plain⟩ := exists_split_of_idxOf? found
    simp only [turn, star_characters, found]
    simp only [← long, List.take_left, List.drop_left, Asks, fits_append plain]
    split
    next opens =>
      obtain ⟨after, rfl⟩ := List.isPrefixOf_iff_prefix.1 opens
      simp [Outcome.Asks, Asks]
    next differ =>
      refine iff_of_false ?_ Bool.false_ne_true
      rintro ⟨after, rfl, -⟩
      exact differ (List.isPrefixOf_iff_prefix.2 (List.prefix_append _ _))

theorem asks_round {part : List Char} (nonempty : part ≠ []) (tail name : List Char) (start : Nat) :
    (round part tail name start).Asks ↔ ((round part tail name start).turn characters).outcome.Asks := by
  rcases found : find? part (name.drop start) with _ | offset
  · simp only [turn, found, Asks, Outcome.Asks]
    refine iff_of_false ?_ Bool.false_ne_true
    rintro ⟨before, after, same, -⟩
    exact not_infix_of_find? found ⟨before, after, by rw [same, List.append_assoc]⟩
  · obtain ⟨c, part, rfl⟩ := List.exists_cons_of_ne_nil nonempty
    obtain ⟨⟨before, after, cut, rfl⟩, first⟩ := first_of_find? found
    have here : name.drop (start + before.length) = c :: part ++ after := by
      rw [← List.drop_drop, cut, List.drop_left]
    have behind : name.drop (start + before.length + (c :: part).length) = after := by
      rw [← List.drop_drop, here, List.drop_left]
    have further : name.drop (start + before.length + 1) = part ++ after := by
      rw [← List.drop_drop, here]
      rfl
    simp only [turn, found, stepOf_characters, Asks, Outcome.Asks, behind, further]
    by_cases good : Fits tail after
    · exact iff_of_true ⟨before, after, cut, good⟩ (.inl good)
    · rw [cut] at first ⊢
      rw [leads_of_first first good, or_iff_right good]

theorem asks_turn {m : Moment Char} (sound : m.Sound) : m.Asks ↔ (m.turn characters).outcome.Asks := by
  cases m with
  | call pattern name => exact asks_call pattern name
  | round part tail name start => exact asks_round sound.1 tail name start

theorem decides_resolve {o : Outcome Char} (decides : ∀ m ∈ o.moments, Decides (m.answer characters) m.Asks) :
    Decides (o.resolve (answer characters)) o.Asks := by
  cases o with
  | answer yes => exact ⟨yes, rfl, Iff.rfl⟩
  | follow next => exact decides next List.mem_cons_self
  | attempt first second =>
    obtain ⟨yes, came, right⟩ := decides first List.mem_cons_self
    rw [Outcome.resolve, came, Outcome.Asks]
    cases yes with
    | true => exact ⟨true, rfl, iff_of_true rfl (.inl (right.1 rfl))⟩
    | false =>
      have refused : ¬ first.Asks := fun good => Bool.false_ne_true (right.2 good)
      rw [or_iff_right refused]
      exact decides second (List.mem_cons_of_mem _ List.mem_cons_self)

theorem decides_answer {m : Moment Char} (sound : m.Sound) : Decides (m.answer characters) m.Asks := by
  refine sound_induct (fun m sound ih => ?_) m sound
  rw [answer_characters sound, asks_turn sound]
  exact decides_resolve ih

end Moment

theorem decides_run {α : Type} [DecidableEq α] {u : Coding α} (w : Spelling u) (p n : List Char) :
    Decides (run u (w.text p) (w.text n)) (Fits p n) := by
  rw [w.run_text]
  exact Moment.decides_answer (m := .call p n) trivial

/-- On UTF-8 no cut fails, and a name is accepted exactly if it is the pattern with some text for each star. -/
theorem accepts_iff_fits (pattern name : String) :
    run bytes (bytesOf pattern) (bytesOf name) = some (accepts pattern name) ∧
      (accepts pattern name = true ↔ Fits pattern.toList name.toList) := by
  obtain ⟨yes, came, right⟩ := decides_run utf8 pattern.toList name.toList
  rw [← bytesOf_eq, ← bytesOf_eq] at came
  have answer : accepts pattern name = yes := by rw [accepts, came, Option.getD_some]
  rw [answer]
  exact ⟨came, right⟩

-- the two ends of a name may not share a character
example : accepts "äb*bä" "äbä" = false ∧ accepts "äb*bä" "äbbä" = true := by decide +kernel

end Waybill.Wildcard
