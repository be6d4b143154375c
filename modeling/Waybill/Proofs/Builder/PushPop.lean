import Waybill.Proofs.Builder.Context
import Waybill.Proofs.Store.Origin

/-! A push and the pop right after it, on any builder, also one derived from a message that was read and holds what no
builder writes. A push saves a correlation whenever there is one, and a pop takes back any frame whose correlation is
not null. So the pop undoes the push exactly when the correlation that was saved is not null. A null correlation
comes with a message; no step of a builder makes one. -/
namespace Waybill.Builder

variable {α : Type}

section Live

def Live (b : Builder Store α) (name : String) : Prop := ∀ v, b.header name = some v → v.isNull = false

theorem header_edit_eq_some {b : Builder Store α} {e : Edit} {name : String} {v : HeaderValue}
    (found : (b.edit e).header name = some v) : b.header name = some v ∨ v ∈ e.offers name :=
  Store.get?_edit_eq_some found

theorem Live.edit {b : Builder Store α} {name : String} (live : b.Live name) (e : Edit) : (b.edit e).Live name := by
  intro v found
  rcases header_edit_eq_some found with before | offered
  · exact live v before
  · exact (Edit.mem_offers.1 offered).2

theorem Live.editAll {b : Builder Store α} {name : String} (live : b.Live name) (es : List Edit) :
    (b.editAll es).Live name := by
  induction es generalizing b with
  | nil => exact live
  | cons e more ih => exact ih (live.edit e)

theorem Live.step {b after : Builder Store α} {name : String} (live : b.Live name) {s : Step}
    (stepped : b.step s = .ok after) : after.Live name := by
  obtain ⟨p, -, rfl⟩ := exists_plan_of_step stepped
  exact live.editAll p.edits

end Live

section Pushing

variable {b pushed : Builder Store α} {x : HeaderValue} {n s : Int64}

def saved (b : Builder Store α) (current : HeaderValue) : Frame :=
  ⟨current, (b.header HeaderName.sequenceNumber).getD .null, (b.header HeaderName.sequenceSize).getD .null⟩

theorem plan_push_of_absent (absent : b.header HeaderName.correlationId = none) (x : HeaderValue) (n s : Int64) :
    b.plan (.push x n s) = .ok ⟨[], contextEdits x n s⟩ := by
  simp only [plan, Plan.push, absent]
  rfl

theorem step_push_of_absent (absent : b.header HeaderName.correlationId = none) (x : HeaderValue) (n s : Int64) :
    b.step (.push x n s) = .ok (b.editAll (contextEdits x n s)) :=
  step_of_plan (plan_push_of_absent absent x n s)

theorem push_cases (stepped : b.step (.push x n s) = .ok pushed) :
    (b.header HeaderName.correlationId = none ∧ pushed = b.editAll (contextEdits x n s)) ∨
    ∃ c below, b.header HeaderName.correlationId = some c ∧ below.length = b.sequenceDepth ∧
      pushed = b.editAll (pushEdits below (b.saved c) x n s) := by
  obtain ⟨p, planned, rfl⟩ := exists_plan_of_step stepped
  cases there : b.header HeaderName.correlationId with
  | none =>
    rw [plan_push_of_absent there] at planned
    cases planned
    exact .inl ⟨rfl, rfl⟩
  | some c =>
    simp only [plan, Plan.push, there] at planned
    split at planned
    · cases planned
    next stack onTop =>
      obtain ⟨below, depth, rfl⟩ := Sequence.exists_below_of_push onTop
      cases planned
      exact .inr ⟨c, below, rfl, depth, rfl⟩

theorem details_contextEdits (b : Builder Store α) (x : HeaderValue) (n s : Int64) :
    (b.editAll (contextEdits x n s)).header HeaderName.sequenceDetails =
      b.header HeaderName.sequenceDetails := by
  rw [header_contextEdits, if_neg (by decide), if_neg (by decide), if_neg (by decide)]

theorem exists_top_of_push (stepped : b.step (.push x n s) = .ok pushed)
    (higher : b.sequenceDepth < pushed.sequenceDepth) :
    ∃ c below, b.header HeaderName.correlationId = some c ∧
      pushed.header HeaderName.correlationId = Store.written (some c) x ∧
      pushed.header HeaderName.sequenceDetails = some (.list (below ++ [(b.saved c).toValue])) := by
  rcases push_cases stepped with ⟨-, rfl⟩ | ⟨c, below, there, depth, rfl⟩
  · rw [sequenceDepth, sequenceDepth, details_contextEdits] at higher
    exact absurd higher (Nat.lt_irrefl _)
  · have final := header_pushEdits depth.symm (b.saved c) x n s
    refine ⟨c, below, there, ?_, ?_⟩
    · rw [final, if_neg (by decide), if_neg (by decide), if_pos rfl, there]
    · rw [final, if_neg (by decide), if_neg (by decide), if_neg (by decide), if_pos rfl]

theorem step_pop_of_absent (absent : b.header HeaderName.sequenceDetails = none) : b.step .pop = .ok b := by
  have planned : b.plan .pop = .ok ⟨[], []⟩ := by
    simp only [plan, Plan.pop, absent]
  exact step_of_plan planned

theorem step_pop_of_null {f : Frame} {below : List HeaderValue}
    (top : b.header HeaderName.sequenceDetails = some (.list (below ++ [f.toValue])))
    (null : f.correlation.isNull = true) : b.step .pop = .error (.malformedFrame f.toValue) := by
  simp only [step, plan, Plan.pop, top, Sequence.pop_append_of_null below null]
  rfl

theorem exists_pop_of_top {f : Frame} {below : List HeaderValue}
    (top : b.header HeaderName.sequenceDetails = some (.list (below ++ [f.toValue])))
    (live : f.correlation.isNull = false) :
    ∃ popped, b.step .pop = .ok popped ∧
      popped.header HeaderName.correlationId =
        Store.written (b.header HeaderName.correlationId) f.correlation ∧
      popped.header HeaderName.sequenceDetails = Sequence.remainder below := by
  let own : Context := ⟨b.header HeaderName.correlationId, b.header HeaderName.sequenceNumber,
    b.header HeaderName.sequenceSize, below ++ [f.toValue]⟩
  have holds : b.Holds own := ⟨rfl, rfl, rfl, top.trans (Sequence.remainder_append below _).symm⟩
  obtain ⟨popped, taken, left, -⟩ := exists_pop holds rfl live
  exact ⟨popped, taken, left.correlation, left.details⟩

/-- After a push that saved a frame, the pop brings the correlation back if and only if this was not null. -/
theorem exists_pop_of_push_iff (stepped : b.step (.push x n s) = .ok pushed)
    (higher : b.sequenceDepth < pushed.sequenceDepth) :
    (∃ popped, pushed.step .pop = .ok popped ∧ popped.correlationId = b.correlationId) ↔
      ∀ c, b.correlationId = some c → c.isNull = false := by
  obtain ⟨c, below, there, entered, top⟩ := exists_top_of_push stepped higher
  constructor
  · rintro ⟨popped, taken, -⟩ d current
    have same : c = d := Option.some.inj (there.symm.trans current)
    subst same
    cases null : c.isNull with
    | false => rfl
    | true =>
      rw [step_pop_of_null top null] at taken
      cases taken
  · intro allLive
    have live : c.isNull = false := allLive c there
    obtain ⟨popped, taken, back, -⟩ := exists_pop_of_top top live
    rw [entered] at back
    exact ⟨popped, taken, (back.trans (Store.written_written live x)).trans there.symm⟩

/-- The new correlation is null, and what is below the saved frame is none. -/
theorem exists_pop_of_push_over_foreign_stack :
    let m : Message String :=
      ⟨"crate", NameMap.ofList [("correlationId", .str "a"), ("sequenceDetails", .list [.int 7])], .generic⟩
    ∃ pushed, (fromMessage m).step (.push .null 1 2) = .ok pushed ∧
      (fromMessage m).sequenceDepth < pushed.sequenceDepth ∧
      ∃ popped, pushed.step .pop = .ok popped ∧ popped.correlationId = some (.str "a") := by
  intro m
  have stepped : (fromMessage m).step (.push .null 1 2) = .ok _ := rfl
  refine ⟨_, stepped, by decide, (exists_pop_of_push_iff stepped (by decide)).2 fun c current => ?_⟩
  cases current
  rfl

/-- A null correlation is saved, but not taken back. -/
theorem not_exists_pop_of_null_correlation :
    let m : Message String := ⟨"crate", NameMap.ofList [("correlationId", .null)], .generic⟩
    ∃ pushed, (fromMessage m).step (.push (.str "b") 1 2) = .ok pushed ∧
      (fromMessage m).sequenceDepth < pushed.sequenceDepth ∧ ¬ ∃ popped, pushed.step .pop = .ok popped := by
  refine ⟨_, rfl, by decide, ?_⟩
  rintro ⟨popped, taken⟩
  cases taken

end Pushing

end Waybill.Builder
