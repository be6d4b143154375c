import Mathlib.Algebra.Order.BigOperators.Ring.Finset
import Waybill.Proofs.Wildcard.Language

/-! The search for a part never gains by a second round. What follows a later occurrence is an end of what follows the
first one, and a tail that starts with a star, if it accepts an end of a text, accepts the text. So the first round
settles the search, and all later rounds can be left out, in every search within a match; there may be as many of them as
a power of the length of the name, and the exponent grows with the number of stars. -/
namespace Waybill.Wildcard

section Ends

theorem fits_star_of_suffix {p s t : List Char} (ends : s <:+ t) (fits : Fits ('*' :: p) s) : Fits ('*' :: p) t := by
  obtain ⟨more, rfl⟩ := ends
  obtain ⟨skipped, rest, rfl, tail⟩ := fits_star.1 fits
  exact fits_star.2 ⟨more ++ skipped, rest, (List.append_assoc ..).symm, tail⟩

theorem suffix_of_later {part before after other rest : List Char}
    (same : before ++ (part ++ after) = other ++ (part ++ rest)) (later : before.length ≤ other.length) :
    rest <:+ after := by
  have long := congrArg List.length same
  simp only [List.length_append] at long
  have ends : rest <:+ before ++ (part ++ after) := ⟨other ++ part, by rw [same, List.append_assoc]⟩
  have ends' : after <:+ before ++ (part ++ after) := ⟨before ++ part, List.append_assoc ..⟩
  exact List.suffix_of_suffix_length_le ends ends' (by omega)

end Ends

def Outcome.first {α : Type} (answers : Moment α → Option Bool) : Outcome α → Option Bool
  | answer yes => some yes
  | follow next => answers next
  | attempt first _ => answers first

namespace Moment

variable {α : Type} [DecidableEq α]

/-- The match without any second attempt: the first occurrence of each part settles the search for it. -/
def once (u : Coding α) (m : Moment α) : Option Bool :=
  if _clean : m.clean u then
    match _outcome : (m.turn u).outcome with
    | .answer yes => some yes
    | .follow next => next.once u
    | .attempt first _ => first.once u
  else none
termination_by m.weight
decreasing_by
  · exact weight_lt _clean next (by rw [_outcome]; exact List.mem_cons_self)
  · exact weight_lt _clean first (by rw [_outcome]; exact List.mem_cons_self)

theorem once_eq {u : Coding α} (m : Moment α) :
    m.once u = if m.clean u then (m.turn u).outcome.first (once u) else none := by
  rw [once]
  split
  · split
    all_goals
      rename_i outcome
      rw [outcome]
      rfl
  · rfl

theorem not_asks_later {part rest name before after : List Char} {start : Nat}
    (cut : name.drop start = before ++ (part ++ after)) (refused : ¬ Fits ('*' :: rest) after) :
    ¬ (round part ('*' :: rest) name (start + before.length + 1)).Asks := by
  rintro ⟨between, behind, later, fits⟩
  rw [Nat.add_assoc, ← List.drop_drop, cut] at later
  have same : before ++ (part ++ after) =
      (before ++ (part ++ after)).take (before.length + 1) ++ between ++ (part ++ behind) := by
    rw [List.append_assoc, ← later, List.take_append_drop]
  refine refused (fits_star_of_suffix (suffix_of_later same ?_) fits)
  simp only [List.length_append, List.length_take]
  omega

theorem turn_star_part {part : List Char} (nonempty : part ≠ []) (plain : '*' ∉ part) (tail name : List Char) :
    ((call ('*' :: (part ++ '*' :: tail)) name).turn characters).outcome = .follow (round part ('*' :: tail) name 0) := by
  have here := idxOf?_cons_self '*' (part ++ '*' :: tail)
  have again : (part ++ '*' :: tail).idxOf? '*' = some part.length := by
    simpa only [text_letters, star_characters] using letters.idxOf?_star plain tail
  obtain ⟨c, part, rfl⟩ := List.exists_cons_of_ne_nil nonempty
  simp only [turn, star_characters, here, List.tail_cons, again, List.length_cons]
  rw [← List.length_cons, List.take_left, List.drop_left]

theorem resolve_eq_first {m : Moment Char} (sound : m.Sound) :
    (m.turn characters).outcome.resolve (answer characters) = (m.turn characters).outcome.first (answer characters) := by
  cases m with
  | call pattern name =>
    rcases found : pattern.idxOf? '*' with _ | _ | k
    · simp only [turn, star_characters, found, Outcome.resolve, Outcome.first]
    · rcases again : pattern.tail.idxOf? '*' with _ | _ | k
      all_goals simp only [turn, star_characters, found, again, Outcome.resolve, Outcome.first]
    · simp only [turn, star_characters, found]
      split <;> rfl
  | round part tail name start =>
    rcases found : find? part (name.drop start) with _ | offset
    · simp only [turn, found, Outcome.resolve, Outcome.first]
    · have later := sound_turn sound
      obtain ⟨-, -, ⟨rest, rfl⟩, -⟩ := sound
      obtain ⟨⟨before, after, cut, rfl⟩, -⟩ := first_of_find? found
      have behind : name.drop (start + before.length + part.length) = after := by
        rw [Nat.add_assoc, ← List.drop_drop, cut, ← List.length_append, ← List.append_assoc, List.drop_left]
      simp only [turn, found, behind, stepOf_characters, Outcome.moments, List.forall_mem_cons] at later ⊢
      obtain ⟨yes, came, right⟩ := decides_answer later.1
      rw [Outcome.resolve, Outcome.first, came]
      cases yes with
      | true => rfl
      | false =>
        have refused : ¬ Fits ('*' :: rest) after := fun fits => Bool.false_ne_true (right.2 fits)
        exact (decides_answer later.2.1).of_not (not_asks_later cut refused)

end Moment

namespace Spelling

variable {α : Type} {u : Coding α} (w : Spelling u)

theorem first_outcome {answers : Moment α → Option Bool} {answers' : Moment Char → Option Bool} {o : Outcome Char}
    (same : ∀ m ∈ o.moments, answers (w.moment m) = answers' m) : (w.outcome o).first answers = o.first answers' := by
  cases o with
  | answer yes => rfl
  | follow next => exact same next List.mem_cons_self
  | attempt first second => exact same first List.mem_cons_self

variable [DecidableEq α]

theorem answer_eq_first {m : Moment Char} (sound : m.Sound) :
    (w.moment m).answer u = ((w.moment m).turn u).outcome.first (Moment.answer u) := by
  rw [w.answer_moment sound, Moment.answer_characters sound, Moment.resolve_eq_first sound, w.turn_moment sound]
  exact (w.first_outcome fun m' later => w.answer_moment (Moment.sound_turn sound m' later)).symm

theorem once_moment {m : Moment Char} (sound : m.Sound) : (w.moment m).once u = (w.moment m).answer u := by
  refine Moment.sound_induct (fun m sound ih => ?_) m sound
  rw [Moment.once_eq, if_pos (w.clean_moment sound), w.answer_eq_first sound, w.turn_moment sound, turn]
  exact (w.first_outcome ih).trans (w.first_outcome fun _ _ => rfl).symm

theorem search_text {part : List Char} (nonempty : part ≠ []) (plain : '*' ∉ part) (tail name : List Char) :
    search u (w.text part) (run u (w.text ('*' :: tail))) (w.text name) 0 =
      match find? (w.text part) (w.text name) with
      | none => some false
      | some offset => run u (w.text ('*' :: tail)) ((w.text name).drop (offset + (w.text part).length)) := by
  have settled := w.answer_eq_first (m := .round part ('*' :: tail) name 0) ⟨nonempty, plain, ⟨tail, rfl⟩, Nat.zero_le _⟩
  simp only [moment, offset_zero, Moment.answer, Moment.turn, List.drop_zero, Nat.zero_add] at settled
  rw [settled]
  cases find? (w.text part) (w.text name) <;> rfl

theorem run_star_part {part : List Char} (nonempty : part ≠ []) (plain : '*' ∉ part) (tail name : List Char) :
    run u (w.text ('*' :: (part ++ '*' :: tail))) (w.text name) =
      search u (w.text part) (run u (w.text ('*' :: tail))) (w.text name) 0 := by
  have sound : (Moment.round part ('*' :: tail) name 0).Sound := ⟨nonempty, plain, ⟨tail, rfl⟩, Nat.zero_le _⟩
  have follows : run characters ('*' :: (part ++ '*' :: tail)) name =
      (Moment.round part ('*' :: tail) name 0).answer characters := by
    have begins := Moment.answer_characters (m := .call ('*' :: (part ++ '*' :: tail)) name) trivial
    rwa [Moment.turn_star_part nonempty plain] at begins
  rw [w.run_text, follows, ← w.answer_moment sound]
  rfl

end Spelling

namespace Moment

variable {α : Type} [DecidableEq α]

def isRetry : Moment α → Bool
  | call _ _ => false
  | round _ _ _ start => start ≠ 0

def retries (u : Coding α) (m : Moment α) : Nat := (m.trace u).countP isRetry

theorem retries_eq {u : Coding α} (m : Moment α) :
    m.retries u = ((m.next u).map (retries u)).sum + if m.isRetry then 1 else 0 := by
  rw [retries, trace_eq, List.countP_cons, List.countP_flatMap]
  rfl

end Moment

theorem Spelling.retries_moment {α : Type} [DecidableEq α] {u : Coding α} (w : Spelling u) {m : Moment Char}
    (sound : m.Sound) : (w.moment m).retries u = m.retries characters := by
  rw [Moment.retries, w.trace_moment sound, List.countP_map, Moment.retries]
  refine List.countP_congr fun m' passed => ?_
  have sound' := Moment.forall_mem_trace (fun _ => Moment.sound_next) sound m' passed
  cases m' with
  | call pattern name => rfl
  | round part tail name start =>
    obtain ⟨-, -, -, within⟩ := sound'
    cases start with
    | zero => rfl
    | succ start =>
      have nonempty : name ≠ [] := List.ne_nil_of_length_pos (Nat.lt_of_lt_of_le (Nat.succ_pos start) within)
      obtain ⟨k, long⟩ := w.exists_offset_succ nonempty start
      simp [moment, Moment.isRetry, long]

section Ladder

open Moment

/-- Stars, each but the last in front of the same character. -/
def ladder : Nat → List Char
  | 0 => ['*', 'b']
  | k + 1 => '*' :: 'a' :: ladder k

theorem exists_ladder (k : Nat) : ∃ rest, ladder k = '*' :: rest := by
  cases k with
  | zero => exact ⟨_, rfl⟩
  | succ k => exact ⟨_, rfl⟩

theorem count_ladder (k : Nat) : (ladder k).count '*' = k + 1 := by
  induction k with
  | zero => rfl
  | succ k ih => simp [ladder, ih]

theorem mem_of_fits_ladder {k : Nat} {n : List Char} (fits : Fits (ladder k) n) : 'b' ∈ n := by
  induction k generalizing n with
  | zero => exact ((fits_star_plain (by decide)).1 fits).subset (List.mem_singleton_self _)
  | succ k ih =>
    obtain ⟨skipped, rest, rfl, fits'⟩ := fits_star.1 fits
    obtain ⟨piece, rest, -, rfl, tail⟩ := fits_cons.1 fits'
    exact List.mem_append_right _ (List.mem_append_right _ (ih tail))

theorem answer_ladder (k n : Nat) : (call (ladder k) (List.replicate n 'a')).answer characters = some false := by
  have decides := decides_answer (m := call (ladder k) (List.replicate n 'a')) trivial
  refine decides.of_not fun fits => ?_
  have member : 'b' ∈ List.replicate n 'a' := mem_of_fits_ladder fits
  simp at member

def climbs (k n : Nat) : Nat := (call (ladder k) (List.replicate n 'a')).retries characters

theorem climbs_zero (n : Nat) : climbs 0 n = 0 := by
  rw [climbs, retries_eq, next_characters (m := call (ladder 0) (List.replicate n 'a')) trivial]
  rfl

theorem retries_round (k i r : Nat) :
    (round ['a'] (ladder k) (List.replicate (i + r) 'a') i).retries characters =
      (∑ j ∈ Finset.range r, (climbs k j + 1)) + if i = 0 then 0 else 1 := by
  have sound (i r : Nat) : (round ['a'] (ladder k) (List.replicate (i + r) 'a') i).Sound :=
    ⟨by decide, by decide, exists_ladder k, by simp⟩
  induction r generalizing i with
  | zero =>
    rw [retries_eq, next_characters (sound i 0)]
    simp [turn, find?, Outcome.due, isRetry]
  | succ r ih =>
    have begins : (List.replicate (i + (r + 1)) 'a').drop i = 'a' :: List.replicate r 'a' := by
      rw [List.drop_replicate, Nat.add_sub_cancel_left, List.replicate_succ]
    have found : find? ['a'] ('a' :: List.replicate r 'a') = some 0 := by simp [find?]
    have behind : (List.replicate (i + (r + 1)) 'a').drop (i + 0 + ['a'].length) = List.replicate r 'a' := by
      rw [List.drop_replicate]
      congr 1
      simp only [List.length_singleton]
      omega
    have next : (round ['a'] (ladder k) (List.replicate (i + (r + 1)) 'a') i).next characters =
        [call (ladder k) (List.replicate r 'a'), round ['a'] (ladder k) (List.replicate (i + 1 + r) 'a') (i + 1)] := by
      rw [next_characters (sound i (r + 1))]
      simp only [turn, begins, found, behind, stepOf_characters, Outcome.due, answer_ladder, if_true]
      rw [Nat.add_assoc i 1 r, Nat.add_comm 1 r]
    have inner : (call (ladder k) (List.replicate r 'a')).retries characters = climbs k r := rfl
    rw [retries_eq, next, List.map_cons, List.map_singleton, List.sum_cons, List.sum_singleton, inner, ih (i + 1),
      if_neg (Nat.succ_ne_zero i), Finset.sum_range_succ]
    simp only [isRetry, decide_eq_true_eq, ne_eq, ite_not]
    omega

theorem climbs_succ (k n : Nat) : climbs (k + 1) n = ∑ j ∈ Finset.range n, (climbs k j + 1) := by
  obtain ⟨rest, starts⟩ := exists_ladder k
  have begins : (call (ladder (k + 1)) (List.replicate n 'a')).next characters =
      [round ['a'] (ladder k) (List.replicate n 'a') 0] := by
    rw [next_characters (m := call (ladder (k + 1)) (List.replicate n 'a')) trivial, ladder, starts]
    have follows : ((call ('*' :: 'a' :: '*' :: rest) (List.replicate n 'a')).turn characters).outcome =
        .follow (round ['a'] ('*' :: rest) (List.replicate n 'a') 0) :=
      turn_star_part (List.cons_ne_nil 'a' []) (by decide) rest (List.replicate n 'a')
    rw [follows]
    rfl
  have whole := retries_round k 0 n
  rw [Nat.zero_add] at whole
  rw [climbs, retries_eq, begins, List.map_singleton, List.sum_singleton, whole]
  rfl

theorem climbs_mono (k : Nat) : Monotone (climbs k) := by
  cases k with
  | zero => exact fun n n' _ => by rw [climbs_zero, climbs_zero]
  | succ k =>
    intro n n' le
    rw [climbs_succ, climbs_succ]
    exact Finset.sum_le_sum_of_subset (Finset.range_subset_range.2 le)

theorem mul_le_climbs (k n m : Nat) : m * (climbs k n + 1) ≤ climbs (k + 1) (n + m) := by
  induction m with
  | zero => simp
  | succ m ih =>
    have grown := climbs_mono k (Nat.le_add_right n m)
    rw [climbs_succ] at ih ⊢
    rw [← Nat.add_assoc, Finset.sum_range_succ, Nat.succ_mul]
    omega

theorem pow_le_climbs (k m : Nat) : m ^ (k + 1) ≤ climbs (k + 1) (m * (k + 1)) := by
  have step (k : Nat) : m * (climbs k (m * k) + 1) ≤ climbs (k + 1) (m * (k + 1)) := mul_le_climbs k (m * k) m
  induction k with
  | zero => simpa [climbs_zero] using step 0
  | succ k ih =>
    calc m ^ (k + 1 + 1) = m * m ^ (k + 1) := Nat.pow_succ'
      _ ≤ m * (climbs (k + 1) (m * (k + 1)) + 1) := Nat.mul_le_mul_left m (Nat.le_succ_of_le ih)
      _ ≤ climbs (k + 1 + 1) (m * (k + 1 + 1)) := step (k + 1)

end Ladder

theorem accepts_eq_false_iff (pattern name : String) :
    accepts pattern name = false ↔ ¬ Fits pattern.toList name.toList := by
  obtain ⟨yes, came, right⟩ := decides_run utf8 pattern.toList name.toList
  rw [← bytesOf_eq, ← bytesOf_eq] at came
  rw [accepts, came, Option.getD_some, ← right, Bool.not_eq_true]

/-- What the first occurrence of a part leads to settles a search; so a match needs no round after the first. There may be
many: with enough stars in the pattern, any power of a fixed share of the length of the name. -/
theorem first_round_settles :
    (∀ part tail name : String, part ≠ "" → '*' ∉ part.toList →
      (∀ before after other rest : String, name = before ++ part ++ after →
        (∀ earlier behind : String, name = earlier ++ part ++ behind → before.length ≤ earlier.length) →
        accepts ("*" ++ tail) after = false → name = other ++ part ++ rest → accepts ("*" ++ tail) rest = false) ∧
      run bytes (bytesOf ("*" ++ part ++ "*" ++ tail)) (bytesOf name) =
        search bytes (bytesOf part) (run bytes (bytesOf ("*" ++ tail))) (bytesOf name) 0 ∧
      search bytes (bytesOf part) (run bytes (bytesOf ("*" ++ tail))) (bytesOf name) 0 =
        match find? (bytesOf part) (bytesOf name) with
        | none => some false
        | some offset =>
          run bytes (bytesOf ("*" ++ tail)) ((bytesOf name).drop (offset + (bytesOf part).length))) ∧
    (∀ pattern name : String, (Moment.call (bytesOf pattern) (bytesOf name)).once bytes =
      run bytes (bytesOf pattern) (bytesOf name)) ∧
    ∀ k m : Nat, ∃ pattern name : String, pattern.toList.count '*' = k + 2 ∧ name.length = m * (k + 1) ∧
      m ^ (k + 1) ≤ (Moment.call (bytesOf pattern) (bytesOf name)).retries bytes := by
  refine ⟨fun part tail name nonempty plain => ⟨?_, ?_, ?_⟩, fun pattern name => ?_, fun k m => ?_⟩
  · rintro before after other rest whole first refused same
    rw [accepts_eq_false_iff, String.toList_append] at refused ⊢
    have both : before.toList ++ (part.toList ++ after.toList) = other.toList ++ (part.toList ++ rest.toList) := by
      simpa only [String.toList_append, List.append_assoc] using congrArg String.toList (whole.symm.trans same)
    exact fun fits => refused (fits_star_of_suffix (suffix_of_later both (first other rest same)) fits)
  · have pattern : ("*" ++ part ++ "*" ++ tail).toList = '*' :: (part.toList ++ '*' :: tail.toList) := by simp
    rw [bytesOf_eq, bytesOf_eq, bytesOf_eq, bytesOf_eq, pattern, String.toList_append]
    exact utf8.run_star_part (by simpa using nonempty) plain tail.toList name.toList
  · rw [bytesOf_eq, bytesOf_eq, bytesOf_eq, String.toList_append]
    exact utf8.search_text (by simpa using nonempty) plain tail.toList name.toList
  · exact utf8.once_moment (m := .call pattern.toList name.toList) trivial
  · refine ⟨.ofList (ladder (k + 1)), .ofList (List.replicate (m * (k + 1)) 'a'), ?_, ?_, ?_⟩
    · rw [String.toList_ofList, count_ladder]
    · simp
    · have counted := utf8.retries_moment (m := .call (ladder (k + 1)) (List.replicate (m * (k + 1)) 'a')) trivial
      rw [bytesOf_eq, bytesOf_eq, String.toList_ofList, String.toList_ofList]
      exact (pow_le_climbs k m).trans_eq counted.symm

theorem first_round_settles_overlapping :
    "xäbäbäb" = "x" ++ "äbä" ++ "bäb" ∧ "xäbäbäb" = "xäb" ++ "äbä" ++ "b" ∧
      accepts "*c" "bäb" = false ∧ accepts "*c" "b" = false := by
  have whole : "xäbäbäb" = "x" ++ "äbä" ++ "bäb" := by decide
  have later : "xäbäbäb" = "xäb" ++ "äbä" ++ "b" := by decide
  have first (earlier behind : String) (same : "xäbäbäb" = earlier ++ "äbä" ++ behind) :
      "x".length ≤ earlier.length := by
    have spelled := congrArg String.toList same
    rw [String.toList_append, String.toList_append] at spelled
    cases start : earlier.toList with
    | nil =>
      rw [start] at spelled
      exact absurd (List.cons.inj spelled).1 (by decide)
    | cons c more =>
      rw [← String.length_toList, ← String.length_toList, start]
      exact Nat.succ_le_succ (Nat.zero_le _)
  have refused : accepts "*c" "bäb" = false := by decide +kernel
  have settled := (first_round_settles.1 "äbä" "c" "xäbäbäb" (by decide) (by decide)).1
  exact ⟨whole, later, refused, settled "x" "bäb" "xäb" "b" whole first refused later⟩

end Waybill.Wildcard
