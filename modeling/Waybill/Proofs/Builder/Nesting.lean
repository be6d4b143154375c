import Waybill.Proofs.Builder.Context

/-! Nested pushes and pops. In a well-nested word every pop has its push, edits in between keep away from the context,
and anywhere between two steps the message may be built and taken up again. From a builder with a correlation such a
word always goes through and leaves correlation and stack as it found them. Number and size come back if they were
there; if not, the first push of the word has set them, and no pop takes them away again. -/
namespace Waybill

inductive Move
  | step (s : Step)
  | rebuild (stamps : Stamps)

inductive WellNested : List Move → Prop
  | nil : WellNested []
  | edit {e : Edit} : e.avoidsContext = true → WellNested [.step (.edit e)]
  | rebuild {stamps : Stamps} : WellNested [.rebuild stamps]
  | enclosed {x : HeaderValue} {n s : Int64} {inner : List Move} : x.isNull = false → WellNested inner →
      WellNested (.step (.push x n s) :: inner ++ [.step .pop])
  | append {left right : List Move} : WellNested left → WellNested right → WellNested (left ++ right)

def firstPush? (word : List Move) : Option (Int64 × Int64) :=
  word.findSome? fun
    | .step (.push _ n s) => some (n, s)
    | _ => none

/-- What a word leaves in the header of a number: what was there, unless it was absent or null and the word has a
push. -/
def settled (old : Option HeaderValue) (first : Option Int64) : Option HeaderValue :=
  if (old.getD .null).isNull then (first.map HeaderValue.int).or old else old

theorem settled_none (old : Option HeaderValue) : settled old none = old := by simp [settled]

theorem settled_int (n : Int64) (first : Option Int64) : settled (some (.int n)) first = some (.int n) := rfl

theorem settled_settled (old : Option HeaderValue) (first second : Option Int64) :
    settled (settled old first) second = settled old (first.or second) := by
  by_cases null : (old.getD .null).isNull = true
  · cases first with
    | none => rw [settled_none, Option.none_or]
    | some n =>
      have filled : settled old (some n) = some (.int n) := by simp [settled, null]
      rw [filled, settled_int, Option.some_or, filled]
  · simp [settled, null]

theorem restored_int (old : Option HeaderValue) (n : Int64) :
    Context.restored (some (.int n)) (old.getD .null) = settled old (some n) := by
  by_cases null : (old.getD .null).isNull = true
  · simp [Context.restored, settled, null]
  · cases old with
    | none => exact absurd rfl null
    | some v =>
      have live : v.isNull = false := by simpa using null
      have back : Store.written (some (.int n)) v = some v := Store.written_over_plain rfl live
      simp [Context.restored, settled, live, back]

def Context.after (k : Context) (word : List Move) : Context where
  correlation := k.correlation
  number := settled k.number ((firstPush? word).map Prod.fst)
  size := settled k.size ((firstPush? word).map Prod.snd)
  stack := k.stack

namespace Builder

variable {α : Type}

section Playing

variable [Payload α]

def move (b : Builder Store α) : Move → Except SequenceError (Builder Store α)
  | .step s => b.step s
  | .rebuild stamps => .ok (fromMessage (b.build stamps).1.message)

def play (b : Builder Store α) (word : List Move) : Except SequenceError (Builder Store α) := word.foldlM move b

theorem play_append (b : Builder Store α) (left right : List Move) :
    b.play (left ++ right) = b.play left >>= fun middle => middle.play right :=
  List.foldlM_append

theorem play_step {b after : Builder Store α} {s : Step} (stepped : b.step s = .ok after) :
    b.play [.step s] = .ok after := by
  simp only [play, List.foldlM_cons, List.foldlM_nil, move, stepped]
  rfl

theorem Holds.rebuild {b : Builder Store α} {k : Context} (holds : b.Holds k) (seeded : b.Seeded)
    (stamps : Stamps) : (fromMessage (b.build stamps).1.message).Holds k := by
  refine holds.of_header_eq fun name member => ?_
  have free := HeaderName.isReserved_of_mem_context member
  rw [header_fromMessage _ free, build_header seeded stamps free]

theorem play_wellNested {word : List Move} (nested : WellNested word) {b : Builder Store α} {k : Context}
    {c : HeaderValue} (seeded : b.Seeded) (holds : b.Holds k) (there : k.correlation = some c)
    (live : c.isNull = false) :
    ∃ after, b.play word = .ok after ∧ after.Seeded ∧ after.Holds (k.after word) := by
  induction nested generalizing b k c with
  | nil =>
    refine ⟨b, rfl, seeded, ?_⟩
    simpa [Context.after, firstPush?, settled_none] using holds
  | @edit e apart =>
    refine ⟨b.edit e, rfl, seeded.edit e, ?_⟩
    simpa [Context.after, firstPush?, settled_none] using holds.edit apart
  | @rebuild stamps =>
    refine ⟨_, rfl, seeded_fromMessage _, ?_⟩
    simpa [Context.after, firstPush?, settled_none] using holds.rebuild seeded stamps
  | @enclosed x n s inner other _ ih =>
    obtain ⟨y, entered, liveInside, back⟩ := Store.exists_written_back live other
    obtain ⟨pushed, stepped, holdsPushed, -⟩ := exists_push holds there x n s
    have seededPushed : pushed.Seeded := seeded.step stepped
    obtain ⟨middle, played, seededMiddle, holdsMiddle⟩ := ih seededPushed holdsPushed entered liveInside
    -- the inner word works above the saved frame, so the pop meets exactly this frame
    have top : ((k.push c x n s).after inner).stack = k.stack ++ [(k.frame c).toValue] := rfl
    obtain ⟨popped, closed, holdsPopped, -⟩ := exists_pop holdsMiddle top live
    refine ⟨popped, ?_, seededMiddle.step closed, ?_⟩
    · have front : b.play (.step (.push x n s) :: inner) = .ok middle := by
        rw [← List.singleton_append, play_append, play_step stepped]
        exact played
      rw [play_append, front]
      exact play_step closed
    · have ends : ((k.push c x n s).after inner).pop (k.frame c) k.stack =
          k.after (.step (.push x n s) :: inner ++ [.step .pop]) := by
        simp only [Context.pop, Context.after, Context.push, Context.frame, entered, back, settled_int,
          restored_int, there]
        rfl
      exact ends ▸ holdsPopped
  | @append left right _ _ ihLeft ihRight =>
    obtain ⟨middle, playedLeft, seededMiddle, holdsMiddle⟩ := ihLeft seeded holds there live
    obtain ⟨after, playedRight, seededAfter, holdsAfter⟩ := ihRight seededMiddle holdsMiddle there live
    refine ⟨after, ?_, seededAfter, ?_⟩
    · rw [play_append, playedLeft]
      exact playedRight
    · have joined : (k.after left).after right = k.after (left ++ right) := by
        simp only [Context.after, settled_settled, firstPush?, List.findSome?_append]
        cases List.findSome? _ left <;> rfl
      exact joined ▸ holdsAfter

/-- Every push and every pop of a well-nested word goes through. Correlation and stack are then the very values they
were, and number and size are those they were or, where nothing or null was, those of the first push. -/
theorem play_restores_context {b : Builder Store α} (seeded : b.Seeded) {c : HeaderValue}
    (there : b.header HeaderName.correlationId = some c) (live : c.isNull = false)
    (stacked : b.header HeaderName.sequenceDetails = none ∨
      ∃ first more, b.header HeaderName.sequenceDetails = some (.list (first :: more)))
    {word : List Move} (nested : WellNested word) :
    ∃ after, b.play word = .ok after ∧
      after.header HeaderName.correlationId = b.header HeaderName.correlationId ∧
      after.header HeaderName.sequenceDetails = b.header HeaderName.sequenceDetails ∧
      after.header HeaderName.sequenceNumber =
        settled (b.header HeaderName.sequenceNumber) ((firstPush? word).map Prod.fst) ∧
      after.header HeaderName.sequenceSize =
        settled (b.header HeaderName.sequenceSize) ((firstPush? word).map Prod.snd) := by
  obtain ⟨stack, details⟩ : ∃ stack, b.header HeaderName.sequenceDetails = Sequence.remainder stack := by
    rcases stacked with absent | ⟨first, more, found⟩
    · exact ⟨[], absent⟩
    · exact ⟨first :: more, found⟩
  have holds : b.Holds ⟨some c, b.header HeaderName.sequenceNumber, b.header HeaderName.sequenceSize, stack⟩ :=
    ⟨there, rfl, rfl, details⟩
  obtain ⟨after, played, -, ends⟩ := play_wellNested nested seeded holds rfl live
  exact ⟨after, played, ends.correlation.trans there.symm, ends.details.trans details.symm, ends.number,
    ends.size⟩

theorem play_restores_context_two_levels :
    let b := (withPayload "crate").editAll [.setCorrelationId (.str "a"), .setSequenceSize 4]
    let word : List Move :=
      [.step (.push (.str "b") 1 2), .rebuild (.counting 0 1), .step (.push (.int 7) 3 3),
        .step (.edit (.set "note" (.bool true))), .step .pop, .step .pop]
    ∃ after, b.play word = .ok after ∧
      after.header HeaderName.correlationId = some (.str "a") ∧
      after.header HeaderName.sequenceDetails = none ∧
      after.header HeaderName.sequenceNumber = some (.int 1) ∧
      after.header HeaderName.sequenceSize = some (.int 4) :=
  play_restores_context ((seeded_withPayload _).editAll _) (c := .str "a") rfl rfl (.inl rfl)
    (.enclosed rfl (.append .rebuild (.enclosed rfl (.edit (by decide)))))

end Playing

end Builder
end Waybill
