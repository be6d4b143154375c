import Mathlib.Data.List.Basic
import Mathlib.Data.List.Induction
import Waybill.Sequence

/-! The stack as a codec. A frame is written as a list of three and read back from nothing else, unless its correlation
is null. A push puts a frame on any list and looks at none of its elements; a pop looks at the last one only, and puts
apart what a push has put together. Reading all frames looks at every element, which is what popping until nothing is
left does one by one, from the other end. An empty list is no stack: a push onto it goes through, a pop from it does
not, and nothing that a pop leaves is one. -/
namespace Waybill

namespace Frame

def Readable (v : HeaderValue) : Prop :=
  ∃ correlation number size, v = .list [correlation, number, size] ∧ correlation.isNull = false

theorem ofValue_of_live {f : Frame} (live : f.correlation.isNull = false) : ofValue f.toValue = .ok f := by
  rw [ofValue_toValue, live]
  rfl

theorem ofValue_of_null {f : Frame} (null : f.correlation.isNull = true) :
    ofValue f.toValue = .error (.malformedFrame f.toValue) := by
  rw [ofValue_toValue, null]
  rfl

theorem ofValue_eq_ok {v : HeaderValue} {f : Frame} (read : ofValue v = .ok f) :
    v = f.toValue ∧ f.correlation.isNull = false := by
  unfold ofValue at read
  split at read
  next correlation number size =>
    split at read
    · cases read
    next live =>
      cases read
      exact ⟨rfl, by simpa using live⟩
  next => cases read

theorem ofValue_eq_error_iff {v : HeaderValue} {e : SequenceError} :
    ofValue v = .error e ↔ ¬ Readable v ∧ e = .malformedFrame v := by
  cases read : ofValue v with
  | ok f =>
    obtain ⟨rfl, live⟩ := ofValue_eq_ok read
    simpa using fun unreadable => absurd ⟨_, _, _, rfl, live⟩ unreadable
  | error e' =>
    have unreadable : ¬ Readable v := by
      rintro ⟨c, n, s, rfl, live⟩
      cases read.symm.trans (ofValue_of_live (f := ⟨c, n, s⟩) live)
    have same : e' = .malformedFrame v := by
      unfold ofValue at read
      split at read
      · split at read
        · exact (Except.error.inj read).symm
        · cases read
      · exact (Except.error.inj read).symm
    simp [unreadable, same, eq_comm]

end Frame

namespace Sequence

section Pushing

theorem depth_remainder (stack : List HeaderValue) : depth (remainder stack) = stack.length := by
  cases stack <;> rfl

theorem push_remainder (stack : List HeaderValue) (f : Frame) :
    push (remainder stack) f = .ok (.list (stack ++ [f.toValue])) := by
  cases stack <;> rfl

theorem push_list (stack : Option (List HeaderValue)) (f : Frame) :
    push (stack.map .list) f = .ok (.list (stack.getD [] ++ [f.toValue])) := by
  cases stack <;> rfl

theorem exists_below_of_push {stack : Option HeaderValue} {f : Frame} {v : HeaderValue}
    (pushed : push stack f = .ok v) :
    ∃ below, below.length = depth stack ∧ v = .list (below ++ [f.toValue]) := by
  cases stack with
  | none =>
    cases pushed
    exact ⟨[], rfl, rfl⟩
  | some old =>
    cases old with
    | list frames =>
      cases pushed
      exact ⟨frames, rfl, rfl⟩
    | _ => cases pushed

theorem push_eq_error_iff {stack : Option HeaderValue} {f : Frame} {e : SequenceError} :
    push stack f = .error e ↔ ∃ v, stack = some v ∧ v.list? = none ∧ e = .notAList v := by
  cases stack with
  | none => simp [push]
  | some v => cases v <;> simp [push, items, HeaderValue.list?, Except.map, eq_comm]

end Pushing

section Popping

theorem remainder_append (rest : List HeaderValue) (top : HeaderValue) :
    remainder (rest ++ [top]) = some (.list (rest ++ [top])) := by
  simp [remainder]

theorem remainder_ne_append (rest : List HeaderValue) (top : HeaderValue) :
    remainder rest ≠ remainder (rest ++ [top]) := by
  rw [remainder_append]
  cases rest <;> simp [remainder]

theorem pop_concat (rest : List HeaderValue) (top : HeaderValue) :
    pop (.list (rest ++ [top])) = (Frame.ofValue top).map fun f => ⟨f, remainder rest⟩ := by
  simp only [pop, items, bind, Except.bind, List.getLast?_append, List.getLast?_singleton, Option.some_or,
    List.dropLast_concat]
  cases Frame.ofValue top <;> rfl

theorem pop_append (rest : List HeaderValue) {f : Frame} (live : f.correlation.isNull = false) :
    pop (.list (rest ++ [f.toValue])) = .ok ⟨f, remainder rest⟩ := by
  rw [pop_concat, Frame.ofValue_of_live live]
  rfl

theorem pop_append_of_null (rest : List HeaderValue) {f : Frame} (null : f.correlation.isNull = true) :
    pop (.list (rest ++ [f.toValue])) = .error (.malformedFrame f.toValue) := by
  rw [pop_concat, Frame.ofValue_of_null null]
  rfl

theorem pop_append_eq_ok_iff {rest : List HeaderValue} {f : Frame} {popped : Popped} :
    pop (.list (rest ++ [f.toValue])) = .ok popped ↔
      f.correlation.isNull = false ∧ popped = ⟨f, remainder rest⟩ := by
  cases null : f.correlation.isNull with
  | true => simp [pop_append_of_null rest null]
  | false => simp [pop_append rest null, eq_comm]

theorem pop_eq_ok_iff {v : HeaderValue} {popped : Popped} :
    pop v = .ok popped ↔ ∃ below, v = .list (below ++ [popped.frame.toValue]) ∧
      popped.frame.correlation.isNull = false ∧ popped.remaining = remainder below := by
  constructor
  · intro taken
    cases v with
    | list values =>
      rcases List.eq_nil_or_concat' values with rfl | ⟨below, top, rfl⟩
      · cases taken
      · rw [pop_concat] at taken
        cases read : Frame.ofValue top with
        | error e =>
          rw [read] at taken
          cases taken
        | ok f =>
          rw [read] at taken
          obtain ⟨rfl, live⟩ := Frame.ofValue_eq_ok read
          cases taken
          exact ⟨below, rfl, live, rfl⟩
    | _ => cases taken
  · rintro ⟨below, rfl, live, left⟩
    rw [pop_append below live, ← left]

theorem pop_eq_error_iff {v : HeaderValue} {e : SequenceError} :
    pop v = .error e ↔ (v.list? = none ∧ e = .notAList v) ∨ (v = .list [] ∧ e = .emptyStack) ∨
      ∃ below top, v = .list (below ++ [top]) ∧ ¬ Frame.Readable top ∧ e = .malformedFrame top := by
  cases v with
  | list values =>
    rcases List.eq_nil_or_concat' values with rfl | ⟨below, top, rfl⟩
    · have none : pop (.list []) = .error .emptyStack := rfl
      rw [none, Except.error.injEq]
      simp [HeaderValue.list?, eq_comm (a := e)]
    · rw [pop_concat]
      have mapped : (Frame.ofValue top).map (fun f => (⟨f, remainder below⟩ : Popped)) = .error e ↔
          Frame.ofValue top = .error e := by
        cases Frame.ofValue top <;> simp [Except.map]
      rw [mapped, Frame.ofValue_eq_error_iff]
      constructor
      · rintro ⟨unreadable, rfl⟩
        exact .inr (.inr ⟨below, top, rfl, unreadable, rfl⟩)
      · rintro (⟨noList, -⟩ | ⟨empty, -⟩ | ⟨below', top', same, unreadable, rfl⟩)
        · cases noList
        · simp at empty
        · obtain ⟨-, rfl⟩ : below = below' ∧ top = top' := by simpa using same
          exact ⟨unreadable, rfl⟩
  | _ => simp [pop, items, HeaderValue.list?, bind, Except.bind, eq_comm]

theorem depth_remaining_lt {v : HeaderValue} {popped : Popped} (taken : pop v = .ok popped) :
    depth popped.remaining < depth (some v) := by
  obtain ⟨below, rfl, -, left⟩ := pop_eq_ok_iff.1 taken
  rw [left, depth_remainder]
  simp [depth]

end Popping

section Reading

theorem mapM_ofValue_cons {v : HeaderValue} {more : List HeaderValue} {fs : List Frame} :
    (v :: more).mapM Frame.ofValue = .ok fs ↔
      ∃ f rest, Frame.ofValue v = .ok f ∧ more.mapM Frame.ofValue = .ok rest ∧ fs = f :: rest := by
  rw [List.mapM_cons]
  cases Frame.ofValue v <;> cases more.mapM Frame.ofValue <;> simp [bind, Except.bind, pure, Except.pure, eq_comm]

theorem mapM_ofValue_eq_ok_iff {values : List HeaderValue} {fs : List Frame} :
    values.mapM Frame.ofValue = .ok fs ↔
      values = fs.map Frame.toValue ∧ ∀ f ∈ fs, f.correlation.isNull = false := by
  induction values generalizing fs with
  | nil => cases fs <;> simp [pure, Except.pure]
  | cons v more ih =>
    rw [mapM_ofValue_cons]
    constructor
    · rintro ⟨f, rest, read, rests, rfl⟩
      obtain ⟨rfl, live⟩ := Frame.ofValue_eq_ok read
      obtain ⟨rfl, others⟩ := ih.1 rests
      exact ⟨rfl, List.forall_mem_cons.2 ⟨live, others⟩⟩
    · rintro ⟨same, live⟩
      cases fs with
      | nil => cases same
      | cons f rest =>
        obtain ⟨rfl, rfl⟩ := List.cons.inj same
        obtain ⟨first, others⟩ := List.forall_mem_cons.1 live
        exact ⟨f, rest, Frame.ofValue_of_live first, ih.2 ⟨rfl, others⟩, rfl⟩

theorem mapM_ofValue_reverse {values : List HeaderValue} {fs : List Frame} :
    values.reverse.mapM Frame.ofValue = .ok fs.reverse ↔ values.mapM Frame.ofValue = .ok fs := by
  simp only [mapM_ofValue_eq_ok_iff, List.map_reverse, List.reverse_inj, List.mem_reverse]

theorem elim_remainder (values : List HeaderValue) :
    (remainder values).elim (.ok []) frames = values.mapM Frame.ofValue := by
  cases values <;> rfl

/-- Pops until nothing is left: the frames in the order in which they come. -/
def unwind (stack : Option HeaderValue) : Except SequenceError (List Frame) :=
  match stack with
  | none => .ok []
  | some v =>
    match _taken : pop v with
    | .error e => .error e
    | .ok popped => (unwind popped.remaining).map fun fs => popped.frame :: fs
termination_by depth stack
decreasing_by exact depth_remaining_lt _taken

theorem unwind_none : unwind none = .ok [] := by rw [unwind]

theorem unwind_some (v : HeaderValue) :
    unwind (some v) = (pop v).bind fun popped => (unwind popped.remaining).map fun fs => popped.frame :: fs := by
  rw [unwind]
  split
  next taken => rw [taken]; rfl
  next taken => rw [taken]; rfl

theorem unwind_remainder (values : List HeaderValue) :
    unwind (remainder values) = values.reverse.mapM Frame.ofValue := by
  induction values using List.reverseRecOn with
  | nil => exact unwind_none
  | append_singleton below top ih =>
    rw [remainder_append, unwind_some, pop_concat, List.reverse_append, List.reverse_singleton,
      List.singleton_append, List.mapM_cons, ← ih]
    cases Frame.ofValue top with
    | error e => rfl
    | ok f =>
      dsimp only [Except.map, Except.bind]
      cases unwind (remainder below) <;> rfl

def pushAll (stack : Option HeaderValue) (fs : List Frame) : Except SequenceError (Option HeaderValue) :=
  fs.foldlM (fun stack f => (push stack f).map some) stack

theorem pushAll_remainder (values : List HeaderValue) (fs : List Frame) :
    pushAll (remainder values) fs = .ok (remainder (values ++ fs.map Frame.toValue)) := by
  induction fs generalizing values with
  | nil => simp [pushAll, pure, Except.pure]
  | cons f more ih =>
    have first : (push (remainder values) f).map some = .ok (remainder (values ++ [f.toValue])) := by
      rw [push_remainder, remainder_append]
      rfl
    have rest := ih (values ++ [f.toValue])
    rw [List.append_assoc] at rest
    rw [pushAll, List.foldlM_cons, first]
    exact rest

end Reading

/-- What is pushed comes back, what is popped can be put back, and reading is popping in the other direction. -/
theorem stack_codec (stack : Option (List HeaderValue)) (f : Frame) :
    (∃ pushed, push (stack.map .list) f = .ok pushed ∧ ∀ popped,
      pop pushed = .ok popped ↔ f.correlation.isNull = false ∧ popped = ⟨f, remainder (stack.getD [])⟩) ∧
    (∀ v popped, pop v = .ok popped → push popped.remaining popped.frame = .ok v) ∧
    (∀ first more fs, let v : HeaderValue := .list (first :: more)
      (frames v = .ok fs ↔ unwind (some v) = .ok fs.reverse) ∧ (frames v = .ok fs → depth (some v) = fs.length)) ∧
    ∀ fs : List Frame, ∃ whole, pushAll none fs = .ok whole ∧
      (whole.elim (.ok []) frames = .ok fs ↔ ∀ g ∈ fs, g.correlation.isNull = false) := by
  refine ⟨⟨_, push_list stack f, fun popped => pop_append_eq_ok_iff⟩, fun v popped taken => ?_,
    fun first more fs => ⟨?_, fun read => ?_⟩, fun fs => ⟨_, pushAll_remainder [] fs, ?_⟩⟩
  · obtain ⟨below, rfl, -, left⟩ := pop_eq_ok_iff.1 taken
    rw [left, push_remainder]
  · have unwound : unwind (some (.list (first :: more))) = (first :: more).reverse.mapM Frame.ofValue :=
      unwind_remainder (first :: more)
    rw [unwound, mapM_ofValue_reverse]
    rfl
  · obtain ⟨same, -⟩ := mapM_ofValue_eq_ok_iff.1 (show (first :: more).mapM Frame.ofValue = .ok fs from read)
    rw [depth, same, List.length_map]
  · rw [List.nil_append, elim_remainder, mapM_ofValue_eq_ok_iff]
    exact and_iff_right rfl

theorem stack_codec_over_malformed :
    let below : List HeaderValue := [.int 7, .list [.json Json.null, .int 1, .int 2]]
    let f : Frame := ⟨.str "a", .null, .str "two"⟩
    let g : Frame := ⟨.int 5, .int 1, .int 2⟩
    ∃ pushed, push (some (.list below)) f = .ok pushed ∧ pop pushed = .ok ⟨f, some (.list below)⟩ ∧
      push (some (.list [f.toValue])) g = .ok (.list [f.toValue, g.toValue]) ∧
      unwind (some (.list [f.toValue, g.toValue])) = .ok [g, f] ∧
      ∃ whole, pushAll none [f, g] = .ok whole ∧ whole.elim (.ok []) frames = .ok [f, g] := by
  intro below f g
  obtain ⟨⟨pushed, put, takes⟩, back, reads, builds⟩ := stack_codec (some below) f
  have taken : pop pushed = .ok ⟨f, some (.list below)⟩ := (takes _).2 ⟨rfl, rfl⟩
  have onto := back (.list [f.toValue, g.toValue]) ⟨g, some (.list [f.toValue])⟩ rfl
  have unwound := (reads f.toValue [g.toValue] [f, g]).1.1 rfl
  obtain ⟨whole, pushedAll, read⟩ := builds [f, g]
  exact ⟨pushed, put, taken, onto, unwound, whole, pushedAll, read.2 (by decide)⟩

end Sequence

end Waybill
