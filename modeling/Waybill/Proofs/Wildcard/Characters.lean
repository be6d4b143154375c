import Mathlib.Data.List.Infix
import Waybill.Proofs.Wildcard.Moment
import Waybill.Proofs.Wildcard.Spelling

/-! A match on spelled text goes, moment by moment, as the match on its characters goes. A star and the first occurrence
of a part are found at the offsets where the characters are found, and behind an occurrence the search goes on with the
next character of the name, for the name has the part's own first character there. So every cut of the one match is a cut
of the other, between two characters, and both have one answer. -/
namespace Waybill.Wildcard

variable {α : Type}

section Finding

variable [DecidableEq α] {part text : List α}

theorem not_infix_of_find? (absent : find? part text = none) : ¬ part <:+: text := by
  induction text with
  | nil =>
    cases part with
    | nil => simp [find?] at absent
    | cons a part => simp
  | cons a text ih =>
    simp only [find?] at absent
    split at absent
    · cases absent
    next later =>
      rw [List.infix_cons_iff, not_or]
      exact ⟨fun opens => later (List.isPrefixOf_iff_prefix.2 opens), ih (Option.map_eq_none_iff.1 absent)⟩

theorem first_of_find? {offset : Nat} (found : find? part text = some offset) :
    (∃ before after, text = before ++ (part ++ after) ∧ before.length = offset) ∧
    ∀ other rest, text = other ++ (part ++ rest) → offset ≤ other.length := by
  induction text generalizing offset with
  | nil =>
    cases part with
    | nil =>
      cases found
      exact ⟨⟨[], [], rfl, rfl⟩, fun _ _ _ => Nat.zero_le _⟩
    | cons a part => simp [find?] at found
  | cons a text ih =>
    simp only [find?] at found
    split at found
    next here =>
      cases found
      obtain ⟨after, same⟩ := List.isPrefixOf_iff_prefix.1 here
      exact ⟨⟨[], after, same.symm, rfl⟩, fun _ _ _ => Nat.zero_le _⟩
    next later =>
      obtain ⟨place, inside, rfl⟩ := Option.map_eq_some_iff.1 found
      obtain ⟨⟨before, after, rfl, rfl⟩, least⟩ := ih inside
      refine ⟨⟨a :: before, after, rfl, rfl⟩, fun other rest same => ?_⟩
      cases other with
      | nil => exact absurd (List.isPrefixOf_iff_prefix.2 ⟨rest, same.symm⟩) later
      | cons b other => exact Nat.succ_le_succ (least other rest (List.cons.inj same).2)

theorem find?_of_first {before after : List α} (cut : text = before ++ (part ++ after))
    (least : ∀ other rest, text = other ++ (part ++ rest) → before.length ≤ other.length) :
    find? part text = some before.length := by
  cases found : find? part text with
  | none => exact absurd ⟨before, after, by rw [cut, List.append_assoc]⟩ (not_infix_of_find? found)
  | some offset =>
    obtain ⟨⟨other, rest, cut', rfl⟩, least'⟩ := first_of_find? found
    rw [Nat.le_antisymm (least' before after cut) (least other rest cut')]

theorem exists_split_of_idxOf? {a : α} {k : Nat} (found : text.idxOf? a = some k) :
    ∃ lead rest, text = lead ++ a :: rest ∧ lead.length = k ∧ a ∉ lead := by
  obtain ⟨within, rfl, first⟩ := List.idxOf?_eq_some_iff.1 found
  refine ⟨text.take k, text.drop (k + 1), ?_, List.length_take_of_le (Nat.le_of_lt within), fun member => ?_⟩
  · rw [List.getElem_cons_drop, List.take_append_drop]
  · obtain ⟨i, inside, same⟩ := List.mem_take_iff_getElem.1 member
    exact first i (by omega) same

theorem idxOf?_cons_self (a : α) (text : List α) : (a :: text).idxOf? a = some 0 := by
  rw [List.idxOf?_cons, if_pos (beq_self_eq_true a)]

theorem exists_cons_of_idxOf? {a : α} (found : text.idxOf? a = some 0) : ∃ rest, text = a :: rest := by
  obtain ⟨lead, rest, rfl, long, -⟩ := exists_split_of_idxOf? found
  exact ⟨rest, by rw [List.eq_nil_of_length_eq_zero long, List.nil_append]⟩

theorem ne_nil_of_idxOf? {a : α} {k : Nat} (found : text.idxOf? a = some k) : text ≠ [] := by
  rintro rfl
  cases found

end Finding

namespace Moment

/-- A part is not empty and has no star, it is searched for inside of the name, and a star follows it. -/
def Sound : Moment Char → Prop
  | call _ _ => True
  | round part tail name start => part ≠ [] ∧ '*' ∉ part ∧ (∃ rest, tail = '*' :: rest) ∧ start ≤ name.length

@[simp] theorem star_characters : characters.star = '*' := rfl

theorem stepOf_characters (part : List Char) : stepOf characters part = 1 := by
  cases part <;> rfl

theorem sound_turn {m : Moment Char} (sound : m.Sound) : ∀ m' ∈ (m.turn characters).outcome.moments, m'.Sound := by
  cases m with
  | call pattern name =>
    simp only [turn, star_characters]
    rcases found : pattern.idxOf? '*' with _ | _ | first
    · simp [Outcome.moments]
    · rcases again : pattern.tail.idxOf? '*' with _ | _ | next
      · simp [Outcome.moments]
      · simp [Outcome.moments, Sound]
      · obtain ⟨part, rest, split, long, plain⟩ := exists_split_of_idxOf? again
        simp only [split, ← long, List.take_left, List.drop_left, Outcome.moments, List.forall_mem_singleton]
        exact ⟨List.ne_nil_of_length_eq_add_one long, plain, ⟨rest, rfl⟩, Nat.zero_le _⟩
    · dsimp only
      split
      · simp [Outcome.moments, Sound]
      · simp [Outcome.moments]
  | round part tail name start =>
    obtain ⟨nonempty, plain, starred, within⟩ := sound
    rcases found : find? part (name.drop start) with _ | offset
    · simp [turn, found, Outcome.moments]
    · obtain ⟨⟨before, after, cut, rfl⟩, -⟩ := first_of_find? found
      have inside : start + before.length + 1 ≤ name.length := by
        have long := congrArg List.length cut
        have := List.length_pos_of_ne_nil nonempty
        simp only [List.length_drop, List.length_append] at long
        omega
      simp only [turn, found, Outcome.moments, stepOf_characters, List.forall_mem_cons]
      exact ⟨trivial, ⟨nonempty, plain, starred, inside⟩, List.forall_mem_nil _⟩

end Moment

namespace Spelling

variable {u : Coding α} (w : Spelling u)

section Images

def slice (s : Slice Char) : Slice α := ⟨w.text s.text, w.offset s.text s.offset⟩

def moment : Moment Char → Moment α
  | .call pattern name => .call (w.text pattern) (w.text name)
  | .round part tail name start => .round (w.text part) (w.text tail) (w.text name) (w.offset name start)

def outcome : Outcome Char → Outcome α
  | .answer yes => .answer yes
  | .follow next => .follow (w.moment next)
  | .attempt first second => .attempt (w.moment first) (w.moment second)

def turn (t : Turn Char) : Turn α := ⟨t.slices.map w.slice, w.outcome t.outcome⟩

variable {answers : Moment α → Option Bool} {answers' : Moment Char → Option Bool} {o : Outcome Char}

theorem resolve_outcome (same : ∀ m ∈ o.moments, answers (w.moment m) = answers' m) :
    (w.outcome o).resolve answers = o.resolve answers' := by
  cases o with
  | answer yes => rfl
  | follow next => exact same next List.mem_cons_self
  | attempt first second =>
    rw [outcome, Outcome.resolve, Outcome.resolve, same first List.mem_cons_self,
      same second (List.mem_cons_of_mem _ List.mem_cons_self)]

theorem due_outcome (same : ∀ m ∈ o.moments, answers (w.moment m) = answers' m) :
    (w.outcome o).due answers = (o.due answers').map w.moment := by
  cases o with
  | answer yes => rfl
  | follow next => rfl
  | attempt first second =>
    rw [outcome, Outcome.due, Outcome.due, same first List.mem_cons_self]
    split <;> rfl

end Images

variable [DecidableEq α]

section Places

theorem isPrefixOf_text (s t : List Char) : (w.text s).isPrefixOf (w.text t) = s.isPrefixOf t := by
  rw [Bool.eq_iff_iff, List.isPrefixOf_iff_prefix, List.isPrefixOf_iff_prefix, w.text_prefix_iff]

theorem isSuffixOf_text (s t : List Char) : (w.text s).isSuffixOf (w.text t) = s.isSuffixOf t := by
  rw [Bool.eq_iff_iff, List.isSuffixOf_iff_suffix, List.isSuffixOf_iff_suffix, w.text_suffix_iff]

theorem idxOf?_text (p : List Char) : (w.text p).idxOf? u.star = (p.idxOf? '*').map (w.offset p) := by
  cases found : p.idxOf? '*' with
  | none => exact w.idxOf?_plain (List.idxOf?_eq_none_iff.1 found)
  | some k =>
    obtain ⟨lead, rest, rfl, rfl, plain⟩ := exists_split_of_idxOf? found
    rw [w.idxOf?_star plain, Option.map_some, w.offset_append]

theorem find?_text {part : List Char} (nonempty : part ≠ []) (s : List Char) :
    find? (w.text part) (w.text s) = (find? part s).map (w.offset s) := by
  cases found : find? part s with
  | none =>
    cases found' : find? (w.text part) (w.text s) with
    | none => rfl
    | some offset =>
      obtain ⟨⟨before, after, cut, -⟩, -⟩ := first_of_find? found'
      obtain ⟨p, q, rfl, -⟩ := w.exists_occurrence nonempty cut
      exact absurd ⟨p, q, List.append_assoc ..⟩ (not_infix_of_find? found)
  | some k =>
    obtain ⟨⟨before, after, rfl, rfl⟩, least⟩ := first_of_find? found
    rw [Option.map_some, w.offset_append]
    refine find?_of_first (by rw [w.text_append, w.text_append]) fun other rest same => ?_
    obtain ⟨p, q, cut, rfl⟩ := w.exists_occurrence nonempty same
    obtain ⟨between, rfl⟩ : before <+: p :=
      List.prefix_of_prefix_length_le ⟨_, rfl⟩ ⟨_, cut.symm⟩ (least p q cut)
    rw [w.text_append, List.length_append]
    exact Nat.le_add_right _ _

end Places

theorem turn_call_star (rest name : List Char) : (w.moment (.call ('*' :: rest) name)).turn u =
    w.turn ((Moment.call ('*' :: rest) name).turn characters) := by
  have here := idxOf?_cons_self '*' rest
  have here' : (w.text ('*' :: rest)).idxOf? u.star = some 0 := by
    rw [idxOf?_text, here, Option.map_some, offset_zero]
  have one : w.offset ('*' :: rest) 1 = 1 := by
    rw [offset, List.take_succ_cons, List.take_zero, text_star, text_nil, List.length_singleton]
  have behind : (w.text ('*' :: rest)).tail = w.text rest := by rw [text_star, List.tail_cons]
  rcases again : rest.idxOf? '*' with _ | _ | next
  · have again' : (w.text rest).idxOf? u.star = none := by rw [idxOf?_text, again, Option.map_none]
    simp only [moment, Moment.turn, Moment.star_characters, here, here', behind, List.tail_cons, again, again', turn,
      outcome, slice, one, isSuffixOf_text, List.map_cons, List.map_nil]
  · have again' : (w.text rest).idxOf? u.star = some 0 := by rw [idxOf?_text, again, Option.map_some, offset_zero]
    simp only [moment, Moment.turn, Moment.star_characters, here, here', behind, List.tail_cons, again, again', turn,
      outcome, slice, one, List.map_cons, List.map_nil]
  · obtain ⟨k, long⟩ := w.exists_offset_succ (ne_nil_of_idxOf? again) next
    have again' : (w.text rest).idxOf? u.star = some (k + 1) := by rw [idxOf?_text, again, Option.map_some, long]
    simp only [moment, Moment.turn, Moment.star_characters, here, here', behind, List.tail_cons, again, again', turn]
    simp only [← long, take_offset, drop_offset, outcome, moment, slice, one, offset_zero, List.map_cons, List.map_nil]

theorem turn_call (pattern name : List Char) : (w.moment (.call pattern name)).turn u =
    w.turn ((Moment.call pattern name).turn characters) := by
  rcases found : pattern.idxOf? '*' with _ | _ | first
  · have found' : (w.text pattern).idxOf? u.star = none := by rw [idxOf?_text, found, Option.map_none]
    simp only [moment, Moment.turn, Moment.star_characters, found, found', turn, outcome, w.text_inj, List.map_nil]
  · obtain ⟨rest, rfl⟩ := exists_cons_of_idxOf? found
    exact w.turn_call_star rest name
  · obtain ⟨k, long⟩ := w.exists_offset_succ (ne_nil_of_idxOf? found) first
    have found' : (w.text pattern).idxOf? u.star = some (k + 1) := by rw [idxOf?_text, found, Option.map_some, long]
    simp only [moment, Moment.turn, Moment.star_characters, found, found', turn]
    rw [← long, take_offset, isPrefixOf_text]
    split
    next opens =>
      have same : w.offset name (first + 1) = w.offset pattern (first + 1) := by
        obtain ⟨lead, rest, rfl, ends, -⟩ := exists_split_of_idxOf? found
        rw [← ends, List.take_left] at opens
        obtain ⟨after, rfl⟩ := List.isPrefixOf_iff_prefix.1 opens
        rw [← ends, offset_append, offset_append]
      have after := w.drop_offset name (first + 1)
      rw [same] at after
      simp only [outcome, moment, slice, drop_offset, same, after, List.map_cons, List.map_nil]
    next => simp only [outcome, slice, List.map_cons, List.map_nil]

theorem turn_round {part : List Char} (nonempty : part ≠ []) (tail name : List Char) (start : Nat) :
    (w.moment (.round part tail name start)).turn u = w.turn ((Moment.round part tail name start).turn characters) := by
  rcases found : find? part (name.drop start) with _ | offset
  · simp only [moment, Moment.turn, drop_offset, w.find?_text nonempty, found, Option.map_none, turn, outcome, slice,
      List.map_cons, List.map_nil]
  · obtain ⟨⟨before, after, cut, rfl⟩, -⟩ := first_of_find? found
    have rest : name.drop (start + before.length) = part ++ after := by
      rw [← List.drop_drop, cut, List.drop_left]
    have behind : w.offset name start + w.offset (name.drop start) before.length + (w.text part).length =
        w.offset name (start + before.length + part.length) := by
      rw [offset_add w name (start + before.length), rest, offset_append, offset_add]
    -- one step is one character of the name, for the part stands there
    have further : w.offset name start + w.offset (name.drop start) before.length + stepOf u (w.text part) =
        w.offset name (start + before.length + 1) := by
      rw [offset_add w name (start + before.length), rest, offset_add, w.stepOf_text nonempty]
      obtain ⟨c, part, rfl⟩ := List.exists_cons_of_ne_nil nonempty
      rfl
    simp only [moment, Moment.turn, drop_offset, w.find?_text nonempty, found, Option.map_some, behind, further,
      Moment.stepOf_characters, turn, outcome, slice, List.map_cons, List.map_nil]

theorem turn_moment {m : Moment Char} (sound : m.Sound) : (w.moment m).turn u = w.turn (m.turn characters) := by
  cases m with
  | call pattern name => exact w.turn_call pattern name
  | round part tail name start => exact w.turn_round sound.1 tail name start

theorem clean_moment {m : Moment Char} (sound : m.Sound) : (w.moment m).clean u = true := by
  rw [Moment.clean, w.turn_moment sound, turn, List.all_map, List.all_eq_true]
  exact fun s _ => w.cuts_offset s.text s.offset

end Spelling

def letters : Spelling characters where
  units c := [c]
  whole c := ⟨c, [], rfl, rfl, by simp, rfl⟩
  injective _ _ same := List.singleton_inj.1 same
  units_star := rfl

theorem text_letters (s : List Char) : letters.text s = s := List.flatMap_singleton' s

namespace Moment

theorem clean_characters {m : Moment Char} (sound : m.Sound) : m.clean characters = true := by
  have self : letters.moment m = m := by
    cases m with
    | call pattern name => simp only [Spelling.moment, text_letters]
    | round part tail name start =>
      simp only [Spelling.moment, Spelling.offset, text_letters, List.length_take_of_le sound.2.2.2]
  exact self ▸ letters.clean_moment sound

theorem answer_characters {m : Moment Char} (sound : m.Sound) :
    m.answer characters = (m.turn characters).outcome.resolve (answer characters) := by
  rw [answer_eq, if_pos (clean_characters sound)]

@[elab_as_elim]
theorem sound_induct {Holds : Moment Char → Prop}
    (step : ∀ m, m.Sound → (∀ m' ∈ (m.turn characters).outcome.moments, Holds m') → Holds m) (m : Moment Char)
    (sound : m.Sound) : Holds m := by
  induction m using induct characters with | step m ih
  exact step m sound fun m' later => ih (clean_characters sound) m' later (sound_turn sound m' later)

theorem next_characters {m : Moment Char} (sound : m.Sound) :
    m.next characters = (m.turn characters).outcome.due (answer characters) := by
  rw [next, if_pos (clean_characters sound)]

theorem sound_next {m : Moment Char} (sound : m.Sound) : ∀ m' ∈ m.next characters, m'.Sound := by
  rw [next_characters sound]
  exact fun m' later => sound_turn sound m' (Outcome.mem_moments_of_mem_due later)

end Moment

namespace Spelling

variable [DecidableEq α] {u : Coding α} (w : Spelling u)

theorem answer_moment {m : Moment Char} (sound : m.Sound) : (w.moment m).answer u = m.answer characters := by
  refine Moment.sound_induct (fun m sound ih => ?_) m sound
  rw [Moment.answer_eq, if_pos (w.clean_moment sound), w.turn_moment sound, Moment.answer_characters sound]
  exact w.resolve_outcome ih

theorem next_moment {m : Moment Char} (sound : m.Sound) :
    (w.moment m).next u = (m.next characters).map w.moment := by
  rw [Moment.next, if_pos (w.clean_moment sound), w.turn_moment sound, Moment.next_characters sound]
  exact w.due_outcome fun m' later => w.answer_moment (Moment.sound_turn sound m' later)

theorem trace_moment {m : Moment Char} (sound : m.Sound) :
    (w.moment m).trace u = (m.trace characters).map w.moment := by
  refine Moment.sound_induct (fun m sound ih => ?_) m sound
  rw [Moment.trace_eq, w.next_moment sound, Moment.trace_eq m, List.map_cons, List.flatMap_map, List.map_flatMap]
  congr 1
  exact List.flatMap_congr fun m' later => ih m' (Moment.of_mem_next later).2

theorem run_text (p n : List Char) : run u (w.text p) (w.text n) = run characters p n :=
  w.answer_moment (m := .call p n) trivial

end Spelling

namespace Moment

theorem exists_answer {m : Moment Char} (sound : m.Sound) : ∃ yes, m.answer characters = some yes := by
  refine Option.ne_none_iff_exists'.1 fun failed => ?_
  obtain ⟨m', passed, foul⟩ := (answer_eq_none_iff m).1 failed
  have clean := clean_characters (forall_mem_trace (fun _ => sound_next) sound m' passed)
  rw [clean] at foul
  cases foul

end Moment

/-- On UTF-8 every cut of a match, at whatever moment, is between two characters of the text that is cut, and the answer
is that of the same match on characters. -/
theorem slices_between_characters (pattern name : String) :
    (∀ m ∈ (Moment.call (bytesOf pattern) (bytesOf name)).trace bytes, ∀ slice ∈ (m.turn bytes).slices,
      slice.offset ≤ slice.text.length ∧
        ∃ before after : String, slice.text = bytesOf (before ++ after) ∧ slice.offset = (bytesOf before).length) ∧
    run bytes (bytesOf pattern) (bytesOf name) = some (accepts pattern name) ∧
    run characters pattern.toList name.toList = some (accepts pattern name) := by
  have sound : (Moment.call pattern.toList name.toList).Sound := trivial
  refine ⟨fun m passed slice cut => ?_, ?_⟩
  · have start : Moment.call (bytesOf pattern) (bytesOf name) = utf8.moment (.call pattern.toList name.toList) := rfl
    rw [start, utf8.trace_moment sound] at passed
    obtain ⟨letter, within, rfl⟩ := List.mem_map.1 passed
    rw [utf8.turn_moment (Moment.forall_mem_trace (fun _ => Moment.sound_next) sound letter within)] at cut
    obtain ⟨⟨text, k⟩, -, rfl⟩ := List.mem_map.1 cut
    refine ⟨Coding.le_length_of_cuts (utf8.cuts_offset text k), .ofList (text.take k), .ofList (text.drop k), ?_, ?_⟩
    · rw [bytesOf_eq, String.toList_append, String.toList_ofList, String.toList_ofList, List.take_append_drop]
      rfl
    · rw [bytesOf_eq, String.toList_ofList]
      rfl
  · have same : run bytes (bytesOf pattern) (bytesOf name) = run characters pattern.toList name.toList :=
      utf8.run_text pattern.toList name.toList
    obtain ⟨answer, came⟩ := Moment.exists_answer sound
    rw [Moment.answer] at came
    rw [accepts, same, came]
    exact ⟨rfl, rfl⟩

theorem slices_between_characters_second_round :
    let round := Moment.round (bytesOf "é") (bytesOf "*x") (bytesOf "aéüé") 3
    let slice := Slice.mk (bytesOf "aéüé") 7
    round ∈ (Moment.call (bytesOf "*é*x") (bytesOf "aéüé")).trace bytes ∧ slice ∈ (round.turn bytes).slices ∧
      7 ≤ (bytesOf "aéüé").length ∧
      ∃ before after : String, bytesOf "aéüé" = bytesOf (before ++ after) ∧ 7 = (bytesOf before).length := by
  intro round slice
  have passed : round ∈ (Moment.call (bytesOf "*é*x") (bytesOf "aéüé")).trace bytes := by decide +kernel
  have cut : slice ∈ (round.turn bytes).slices := by decide +kernel
  exact ⟨passed, cut, (slices_between_characters "*é*x" "aéüé").1 round passed slice cut⟩

end Waybill.Wildcard
