import Waybill.Proofs.Builder.PushPop

/-! What a push and a pop can come to, on a builder in any state. A push fails where there is a correlation to save and
the header of the stack is no list; without a correlation it does not look at the stack. A pop fails where there is a
header that is no list, an empty list or a list with something on top that is no frame; without the header it does
nothing. All that go through keep to the four headers of the context, and the stack is higher by the frame that was
saved, or lower by the one that was taken. -/
namespace Waybill.Builder

variable {α : Type} {b : Builder Store α}

theorem step_eq_error_iff {s : Step} {e : SequenceError} : b.step s = .error e ↔ b.plan s = .error e := by
  rw [step]
  cases b.plan s <;> simp [Except.map]

theorem step_push_eq_error_iff {x : HeaderValue} {n s : Int64} {e : SequenceError} :
    b.step (.push x n s) = .error e ↔ b.correlationId.isSome = true ∧
      ∃ v, b.header HeaderName.sequenceDetails = some v ∧ v.list? = none ∧ e = .notAList v := by
  rw [step_eq_error_iff, correlationId]
  cases there : b.header HeaderName.correlationId with
  | none =>
    rw [plan_push_of_absent there]
    simp
  | some c =>
    rw [← Sequence.push_eq_error_iff (f := b.saved c)]
    simp only [plan, Plan.push, there, Option.isSome_some, true_and, saved]
    split
    next failed => simp [failed]
    next stacked => simp [stacked]

theorem step_pop_eq_error_iff {e : SequenceError} :
    b.step .pop = .error e ↔ ∃ v, b.header HeaderName.sequenceDetails = some v ∧ Sequence.pop v = .error e := by
  rw [step_eq_error_iff]
  cases there : b.header HeaderName.sequenceDetails with
  | none => simp [plan, Plan.pop, there]
  | some v =>
    simp only [plan, Plan.pop, there, Option.some.injEq, exists_eq_left']
    cases Sequence.pop v <;> simp

theorem pop_cases {popped : Builder Store α} (stepped : b.step .pop = .ok popped) :
    (b.header HeaderName.sequenceDetails = none ∧ popped = b) ∨
    ∃ f below, b.header HeaderName.sequenceDetails = some (.list (below ++ [f.toValue])) ∧
      f.correlation.isNull = false ∧ popped = b.editAll (popEdits f below) := by
  cases there : b.header HeaderName.sequenceDetails with
  | none => exact .inl ⟨rfl, Except.ok.inj (stepped.symm.trans (step_pop_of_absent there))⟩
  | some v =>
    cases taken : Sequence.pop v with
    | error e => cases stepped.symm.trans (step_pop_eq_error_iff.2 ⟨v, there, taken⟩)
    | ok p =>
      obtain ⟨below, rfl, live, -⟩ := Sequence.pop_eq_ok_iff.1 taken
      obtain ⟨events, planned⟩ := plan_pop there live
      exact .inr ⟨p.frame, below, rfl, live, Except.ok.inj (stepped.symm.trans (step_of_plan planned))⟩

theorem beyond_push {x : HeaderValue} {n s : Int64} {pushed : Builder Store α}
    (stepped : b.step (.push x n s) = .ok pushed) : b.Beyond pushed := by
  rcases push_cases stepped with ⟨-, rfl⟩ | ⟨c, below, -, -, rfl⟩
  · exact b.beyond_editAll withinContext_contextEdits
  · exact b.beyond_editAll withinContext_pushEdits

theorem beyond_pop {popped : Builder Store α} (stepped : b.step .pop = .ok popped) : b.Beyond popped := by
  rcases pop_cases stepped with ⟨-, rfl⟩ | ⟨f, below, -, -, rfl⟩
  · exact beyond_editAll popped (List.forall_mem_nil _)
  · exact b.beyond_editAll withinContext_popEdits

theorem sequenceDepth_push {x : HeaderValue} {n s : Int64} {pushed : Builder Store α}
    (stepped : b.step (.push x n s) = .ok pushed) :
    pushed.sequenceDepth = b.sequenceDepth + if b.correlationId.isSome then 1 else 0 := by
  rcases push_cases stepped with ⟨absent, rfl⟩ | ⟨c, below, there, long, rfl⟩
  · rw [sequenceDepth, details_contextEdits, correlationId, absent]
    rfl
  · rw [sequenceDepth, header_pushEdits long.symm, correlationId, there, if_neg (by decide), if_neg (by decide),
      if_neg (by decide), if_pos rfl, ← long]
    simp [Sequence.depth]

theorem sequenceDepth_pop {popped : Builder Store α} (stepped : b.step .pop = .ok popped) :
    popped.sequenceDepth + (if (b.header HeaderName.sequenceDetails).isSome then 1 else 0) = b.sequenceDepth := by
  rcases pop_cases stepped with ⟨absent, rfl⟩ | ⟨f, below, there, -, rfl⟩
  · simp [absent]
  · rw [sequenceDepth, header_popEdits there, if_pos rfl, Sequence.depth_remainder, sequenceDepth, there]
    simp [Sequence.depth]

/-- When a push and a pop fail and with what, and what they leave alone where they do not. -/
theorem push_pop_outcome (b : Builder Store α) :
    (∀ x n s e, b.step (.push x n s) = .error e ↔ b.correlationId.isSome = true ∧
      ∃ v, b.header HeaderName.sequenceDetails = some v ∧ v.list? = none ∧ e = .notAList v) ∧
    (∀ e, b.step .pop = .error e ↔ ∃ v, b.header HeaderName.sequenceDetails = some v ∧
      ((v.list? = none ∧ e = .notAList v) ∨ (v = .list [] ∧ e = .emptyStack) ∨
        ∃ below top, v = .list (below ++ [top]) ∧ ¬ Frame.Readable top ∧ e = .malformedFrame top)) ∧
    (∀ x n s pushed, b.step (.push x n s) = .ok pushed →
      (∀ name, name ∉ HeaderName.context → pushed.header name = b.header name) ∧
      pushed.sequenceDepth = b.sequenceDepth + if b.correlationId.isSome then 1 else 0) ∧
    ∀ popped, b.step .pop = .ok popped →
      (∀ name, name ∉ HeaderName.context → popped.header name = b.header name) ∧
      popped.sequenceDepth + (if (b.header HeaderName.sequenceDetails).isSome then 1 else 0) = b.sequenceDepth := by
  refine ⟨fun x n s e => step_push_eq_error_iff, fun e => ?_, fun x n s pushed stepped => ?_, fun popped stepped => ?_⟩
  · rw [step_pop_eq_error_iff]
    simp only [Sequence.pop_eq_error_iff]
  · exact ⟨(beyond_push stepped).header, sequenceDepth_push stepped⟩
  · exact ⟨(beyond_pop stepped).header, sequenceDepth_pop stepped⟩

theorem push_pop_outcome_garbage :
    let m : Message String :=
      ⟨"crate", NameMap.ofList [("note", .str "x"), ("sequenceDetails", .int 7)], .generic⟩
    ∃ pushed, (fromMessage m).step (.push (.str "b") 1 2) = .ok pushed ∧ pushed.header "note" = some (.str "x") ∧
      pushed.sequenceDepth = 0 ∧ pushed.step (.push (.str "c") 3 4) = .error (.notAList (.int 7)) ∧
      pushed.step .pop = .error (.notAList (.int 7)) := by
  intro m
  have stepped : (fromMessage m).step (.push (.str "b") 1 2) = .ok _ := rfl
  obtain ⟨same, depth⟩ := (push_pop_outcome (fromMessage m)).2.2.1 _ _ _ _ stepped
  refine ⟨_, stepped, same "note" (by decide), depth, ?_, ?_⟩
  · exact ((push_pop_outcome _).1 _ _ _ _).2 ⟨rfl, _, rfl, rfl, rfl⟩
  · exact ((push_pop_outcome _).2.1 _).2 ⟨_, rfl, .inl ⟨rfl, rfl⟩⟩

end Waybill.Builder
