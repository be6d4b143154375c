import Waybill.Wildcard

/-! A match taken apart into moments: the calls, and the rounds of the searches within them. At a moment some texts are
cut, and then there is an answer, or other moments follow. The search is no more than its moments: the answer of each is
what comes of it, once its cuts have held. So what holds at the beginning and is kept from moment to moment holds
throughout a match, and a match has no answer exactly if a cut fails at one of its moments. -/
namespace Waybill.Wildcard

variable {α : Type}

structure Slice (α : Type) where
  text : List α
  offset : Nat
deriving DecidableEq

inductive Moment (α : Type) where
  | call (pattern name : List α)
  /-- The search for a part goes on from an offset of the name; the tail of the pattern stands behind the part. -/
  | round (part tail name : List α) (start : Nat)
deriving DecidableEq

inductive Outcome (α : Type) where
  | answer (yes : Bool)
  | follow (next : Moment α)
  /-- The second comes only if the first says no. -/
  | attempt (first second : Moment α)

structure Turn (α : Type) where
  slices : List (Slice α)
  outcome : Outcome α

namespace Outcome

def moments : Outcome α → List (Moment α)
  | answer _ => []
  | follow next => [next]
  | attempt first second => [first, second]

variable (answers : Moment α → Option Bool)

def due : Outcome α → List (Moment α)
  | answer _ => []
  | follow next => [next]
  | attempt first second => if answers first = some false then [first, second] else [first]

def resolve : Outcome α → Option Bool
  | answer yes => some yes
  | follow next => answers next
  | attempt first second =>
    match answers first with
    | some false => answers second
    | decided => decided

theorem mem_moments_of_mem_due {answers : Moment α → Option Bool} {o : Outcome α} {m : Moment α}
    (later : m ∈ o.due answers) : m ∈ o.moments := by
  cases o with
  | answer yes => exact later
  | follow next => exact later
  | attempt first second =>
    rw [due] at later
    split at later
    · exact later
    · exact List.mem_cons.2 (.inl (List.mem_singleton.1 later))

theorem resolve_eq_none_iff {answers : Moment α → Option Bool} {o : Outcome α} :
    o.resolve answers = none ↔ ∃ m ∈ o.due answers, answers m = none := by
  cases o with
  | answer yes => simp [resolve, due]
  | follow next => simp [resolve, due]
  | attempt first second =>
    rw [resolve, due]
    rcases said : answers first with _ | _ | _
    all_goals simp [said]

end Outcome

namespace Moment

variable [DecidableEq α] (u : Coding α)

def turn : Moment α → Turn α
  | call pattern name =>
    match pattern.idxOf? u.star with
    | none => ⟨[], .answer (pattern = name)⟩
    | some (first + 1) =>
      if (pattern.take (first + 1)).isPrefixOf name then
        ⟨[⟨pattern, first + 1⟩, ⟨name, first + 1⟩],
          .follow (call (pattern.drop (first + 1)) (name.drop (first + 1)))⟩
      else ⟨[⟨pattern, first + 1⟩], .answer false⟩
    | some 0 =>
      match pattern.tail.idxOf? u.star with
      | none => ⟨[⟨pattern, 1⟩], .answer (pattern.tail.isSuffixOf name)⟩
      | some 0 => ⟨[⟨pattern, 1⟩], .follow (call pattern.tail name)⟩
      | some (next + 1) =>
        ⟨[⟨pattern, 1⟩, ⟨pattern.tail, next + 1⟩],
          .follow (round (pattern.tail.take (next + 1)) (pattern.tail.drop (next + 1)) name 0)⟩
  | round part tail name start =>
    match find? part (name.drop start) with
    | none => ⟨[⟨name, start⟩], .answer false⟩
    | some offset =>
      ⟨[⟨name, start⟩, ⟨name, start + offset + part.length⟩],
        .attempt (call tail (name.drop (start + offset + part.length)))
          (round part tail name (start + offset + stepOf u part))⟩

def clean (m : Moment α) : Bool := (m.turn u).slices.all fun slice => u.cuts slice.text slice.offset

def answer : Moment α → Option Bool
  | call pattern name => run u pattern name
  | round part tail name start => search u part (run u tail) name start

variable {u}

/-- A match is no more than its moments. -/
theorem answer_eq (m : Moment α) :
    m.answer u = if m.clean u then (m.turn u).outcome.resolve (answer u) else none := by
  -- a cut of the search that the turn left out would show here, where it alone fails
  cases m with
  | call pattern name =>
    rw [answer, run]
    rcases found : pattern.idxOf? u.star with _ | _ | first
    · simp [clean, turn, found, Outcome.resolve]
    · rcases again : pattern.tail.idxOf? u.star with _ | _ | next
      all_goals
        simp only [clean, turn, found, again, Outcome.resolve, answer, List.all_cons, List.all_nil, Bool.and_true]
        grind [Coding.from?, Coding.upTo?, List.drop_one]
    · simp only [clean, turn, found]
      split
      all_goals
        simp only [Outcome.resolve, answer]
        grind [Coding.from?, Coding.upTo?]
  | round part tail name start =>
    rw [answer, search]
    rcases found : find? part (name.drop start) with _ | offset
    all_goals
      simp only [clean, turn, found, Outcome.resolve, answer, List.all_cons, List.all_nil, Bool.and_true]
      grind [Coding.from?]

def weight : Moment α → Nat
  | call pattern name => 2 * pattern.length + name.length
  | round _ tail name start => 2 * tail.length + (name.length + 1 - start) + 1

theorem weight_lt {m : Moment α} (clean : m.clean u = true) :
    ∀ m' ∈ (m.turn u).outcome.moments, m'.weight < m.weight := by
  cases m with
  | call pattern name =>
    rcases found : pattern.idxOf? u.star with _ | _ | first
    · simp [turn, found, Outcome.moments]
    · rcases again : pattern.tail.idxOf? u.star with _ | _ | next
      · simp [turn, found, again, Outcome.moments]
      · simp only [Moment.clean, turn, found, again, List.all_cons, List.all_nil, Bool.and_true] at clean
        have bound := Coding.le_length_of_cuts clean
        simp only [turn, found, again, Outcome.moments, List.forall_mem_singleton, weight, List.length_tail]
        omega
      · simp only [Moment.clean, turn, found, again, List.all_cons, List.all_nil, Bool.and_true,
          Bool.and_eq_true] at clean
        have bound := Coding.le_length_of_cuts clean.1
        have bound' := Coding.le_length_of_cuts clean.2
        simp only [turn, found, again, Outcome.moments, List.forall_mem_singleton, weight, List.length_tail,
          List.length_drop] at bound' ⊢
        omega
    · simp only [Moment.clean, turn, found] at clean ⊢
      split
      next opens =>
        rw [if_pos opens, List.all_cons, Bool.and_eq_true] at clean
        have bound := Coding.le_length_of_cuts clean.1
        simp only [Outcome.moments, List.forall_mem_singleton, weight, List.length_drop]
        dsimp only at bound
        omega
      next => simp [Outcome.moments]
  | round part tail name start =>
    rcases found : find? part (name.drop start) with _ | offset
    · simp [turn, found, Outcome.moments]
    · simp only [Moment.clean, turn, found, List.all_cons, Bool.and_eq_true] at clean
      have bound := Coding.le_length_of_cuts clean.1
      have forward := stepOf_pos u part
      simp only [turn, found, Outcome.moments, List.forall_mem_cons, weight, List.length_drop]
      exact ⟨by omega, by omega, List.forall_mem_nil _⟩

variable (u) in
theorem induct {Holds : Moment α → Prop}
    (step : ∀ m, (m.clean u = true → ∀ m' ∈ (m.turn u).outcome.moments, Holds m') → Holds m) (m : Moment α) :
    Holds m := by
  induction long : m.weight using Nat.strongRecOn generalizing m with | ind k ih
  exact step m fun clean m' later => ih m'.weight (long ▸ weight_lt clean m' later) m' rfl

variable (u) in
def next (m : Moment α) : List (Moment α) := if m.clean u then (m.turn u).outcome.due (answer u) else []

theorem of_mem_next {m m' : Moment α} (later : m' ∈ m.next u) :
    m.clean u = true ∧ m' ∈ (m.turn u).outcome.moments := by
  rw [next] at later
  split at later
  next clean => exact ⟨clean, Outcome.mem_moments_of_mem_due later⟩
  next => exact absurd later List.not_mem_nil

variable (u) in
def trace (m : Moment α) : List (Moment α) := m :: (m.next u).attach.flatMap fun later => trace later.1
termination_by m.weight
decreasing_by
  obtain ⟨clean, follows⟩ := of_mem_next later.2
  exact weight_lt clean later.1 follows

theorem trace_eq (m : Moment α) : m.trace u = m :: (m.next u).flatMap (trace u) := by
  rw [trace, List.flatMap_subtype fun _ _ => rfl, List.unattach_attach]

theorem mem_trace {m m' : Moment α} : m' ∈ m.trace u ↔ m' = m ∨ ∃ next ∈ m.next u, m' ∈ next.trace u := by
  rw [trace_eq, List.mem_cons, List.mem_flatMap]

theorem forall_mem_trace {Holds : Moment α → Prop} (step : ∀ m, Holds m → ∀ m' ∈ m.next u, Holds m') {m : Moment α}
    (start : Holds m) : ∀ m' ∈ m.trace u, Holds m' := by
  induction m using induct u with | step m ih
  intro m' passed
  rcases mem_trace.1 passed with rfl | ⟨next, later, within⟩
  · exact start
  · obtain ⟨clean, follows⟩ := of_mem_next later
    exact ih clean next follows (step m start next later) m' within

theorem answer_eq_none_iff_next (m : Moment α) :
    m.answer u = none ↔ m.clean u = false ∨ ∃ m' ∈ m.next u, m'.answer u = none := by
  rw [answer_eq, next]
  cases m.clean u with
  | false => simp
  | true => simp [Outcome.resolve_eq_none_iff]

/-- There is no answer exactly if a cut fails somewhere on the way. -/
theorem answer_eq_none_iff (m : Moment α) : m.answer u = none ↔ ∃ m' ∈ m.trace u, m'.clean u = false := by
  induction m using induct u with | step m ih
  rw [answer_eq_none_iff_next]
  constructor
  · rintro (foul | ⟨next, later, failed⟩)
    · exact ⟨m, mem_trace.2 (.inl rfl), foul⟩
    · obtain ⟨clean, follows⟩ := of_mem_next later
      obtain ⟨m', within, foul⟩ := (ih clean next follows).1 failed
      exact ⟨m', mem_trace.2 (.inr ⟨next, later, within⟩), foul⟩
  · rintro ⟨m', passed, foul⟩
    rcases mem_trace.1 passed with rfl | ⟨next, later, within⟩
    · exact .inl foul
    · obtain ⟨clean, follows⟩ := of_mem_next later
      exact .inr ⟨next, later, (ih clean next follows).2 ⟨m', within, foul⟩⟩

end Moment

end Waybill.Wildcard
