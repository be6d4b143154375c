import Mathlib.Data.List.Basic
import Waybill.Proofs.Builder.PushPop

/-! Builders whose stack nobody else writes. They start without a message or from a message that another one built,
take any steps but an edit that writes the stack, and may copy headers of each other's messages, also between
different payloads. Their correlation is never null, so all that they save can be read back: the stack is absent or a
list of frames, and every push and pop goes through. What pushes and pops do not keep is their pairing. A push without
a correlation saves nothing, so the pop after it takes the frame that an earlier push has saved, if there is one. -/
namespace Waybill

namespace Sequence

/-- No stack, or at least one value, and each of them is a frame. -/
def WellFormed (stack : Option HeaderValue) : Prop :=
  stack = none ∨ ∃ first more, stack = some (.list (first :: more)) ∧
    ∀ v ∈ first :: more, ∃ f, Frame.ofValue v = .ok f

theorem exists_frames {values : List HeaderValue} (readable : ∀ v ∈ values, ∃ f, Frame.ofValue v = .ok f) :
    ∃ fs : List Frame, values = fs.map Frame.toValue ∧ ∀ f ∈ fs, f.correlation.isNull = false := by
  induction values with
  | nil => exact ⟨[], rfl, fun f member => absurd member List.not_mem_nil⟩
  | cons v more ih =>
    obtain ⟨f, read⟩ := readable v List.mem_cons_self
    obtain ⟨fs, rest, live⟩ := ih fun w member => readable w (List.mem_cons_of_mem _ member)
    obtain ⟨here, first⟩ := Frame.ofValue_eq_ok read
    exact ⟨f :: fs, by rw [List.map_cons, here, rest], List.forall_mem_cons.2 ⟨first, live⟩⟩

theorem wellFormed_iff {stack : Option HeaderValue} :
    WellFormed stack ↔ ∃ fs : List Frame, (∀ f ∈ fs, f.correlation.isNull = false) ∧
      stack = remainder (fs.map Frame.toValue) := by
  constructor
  · rintro (absent | ⟨first, more, found, readable⟩)
    · exact ⟨[], fun f member => absurd member List.not_mem_nil, absent⟩
    · obtain ⟨fs, values, live⟩ := exists_frames readable
      exact ⟨fs, live, by rw [found, ← values]; rfl⟩
  · rintro ⟨fs, live, rfl⟩
    cases fs with
    | nil => exact .inl rfl
    | cons f more =>
      refine .inr ⟨f.toValue, more.map Frame.toValue, rfl, fun v member => ?_⟩
      obtain ⟨g, known, rfl⟩ := List.mem_map.1 (show v ∈ (f :: more).map Frame.toValue from member)
      exact ⟨g, Frame.ofValue_of_live (live g known)⟩

end Sequence

theorem Headers.exists_sequenceDetails {h : Headers}
    (formed : Sequence.WellFormed (h.get? HeaderName.sequenceDetails)) :
    ∃ fs, h.sequenceDetails = .ok fs ∧ fs.length = Sequence.depth (h.get? HeaderName.sequenceDetails) := by
  obtain ⟨fs, live, found⟩ := Sequence.wellFormed_iff.1 formed
  refine ⟨fs, ?_, by rw [found, Sequence.depth_remainder, List.length_map]⟩
  rw [Headers.sequenceDetails, found]
  cases fs with
  | nil => rfl
  | cons f more => exact Sequence.mapM_ofValue_eq_ok_iff.2 ⟨rfl, live⟩

def Step.offers (name : String) : Step → List HeaderValue
  | .edit e => e.offers name
  | _ => []

namespace Builder

/-- Nobody else has ever written the stack. -/
inductive Untampered : {α : Type} → [Payload α] → Builder Store α → Prop
  | withPayload {α : Type} [Payload α] (payload : α) : Untampered (withPayload payload)
  | derived {α : Type} [Payload α] {b : Builder Store α} (clean : Untampered b) (stamps : Stamps) (payload : α) :
      Untampered (fromMessageWithPayload (b.build stamps).1.message payload)
  | step {α : Type} [Payload α] {b after : Builder Store α} (clean : Untampered b) {s : Step}
      (apart : s.offers HeaderName.sequenceDetails = []) (stepped : b.step s = .ok after) : Untampered after
  /-- A copy may bring a stack, if it is the stack of a message of another one. -/
  | copied {α β : Type} [Payload α] [Payload β] {b : Builder Store α} {other : Builder Store β}
      (clean : Untampered b) (source : Untampered other) (stamps : Stamps)
      {entries : List (String × HeaderValue)} {overwrite : Bool}
      (given : ∀ v ∈ (Edit.copy entries overwrite).offers HeaderName.sequenceDetails,
        (other.build stamps).1.message.headers.get? HeaderName.sequenceDetails = some v) :
      Untampered (b.edit (.copy entries overwrite))

/-- What every step keeps. -/
structure Orderly {α : Type} (b : Builder Store α) : Prop where
  seeded : b.Seeded
  correlation : b.Live HeaderName.correlationId
  details : Sequence.WellFormed (b.header HeaderName.sequenceDetails)

section Steps

variable {α : Type} {b : Builder Store α}

theorem orderly_withPayload (payload : α) : (withPayload payload).Orderly where
  seeded := seeded_withPayload payload
  correlation _ found := by cases found
  details := .inl rfl

theorem Orderly.derived [Payload α] (orderly : b.Orderly) (stamps : Stamps) (payload : α) :
    (fromMessageWithPayload (b.build stamps).1.message payload).Orderly := by
  have same {name : String} (free : HeaderName.isReserved name = false) :
      (fromMessageWithPayload (b.build stamps).1.message payload).header name = b.header name :=
    (header_fromMessage _ free).trans (build_header orderly.seeded stamps free)
  refine ⟨seeded_fromMessageWithPayload _ _, fun v found => ?_, ?_⟩
  · rw [same (by decide)] at found
    exact orderly.correlation v found
  · rw [same (by decide)]
    exact orderly.details

theorem Orderly.edit (orderly : b.Orderly) {e : Edit}
    (formed : ∀ v ∈ e.offers HeaderName.sequenceDetails, Sequence.WellFormed (some v)) : (b.edit e).Orderly := by
  refine ⟨orderly.seeded.edit e, orderly.correlation.edit e, ?_⟩
  cases found : (b.edit e).header HeaderName.sequenceDetails with
  | none => exact .inl rfl
  | some v =>
    rcases header_edit_eq_some found with before | offered
    · exact before ▸ orderly.details
    · exact formed v offered

theorem Orderly.exists_holds (orderly : b.Orderly) :
    ∃ fs : List Frame, (∀ f ∈ fs, f.correlation.isNull = false) ∧
      b.Holds ⟨b.header HeaderName.correlationId, b.header HeaderName.sequenceNumber,
        b.header HeaderName.sequenceSize, fs.map Frame.toValue⟩ := by
  obtain ⟨fs, live, found⟩ := Sequence.wellFormed_iff.1 orderly.details
  exact ⟨fs, live, rfl, rfl, rfl, found⟩

theorem Orderly.exists_push (orderly : b.Orderly) (x : HeaderValue) (n s : Int64) :
    ∃ after, b.step (.push x n s) = .ok after ∧ after.Orderly := by
  obtain ⟨fs, live, holds⟩ := orderly.exists_holds
  cases there : b.header HeaderName.correlationId with
  | none =>
    have stepped := step_push_of_absent there x n s
    refine ⟨_, stepped, orderly.seeded.step stepped, orderly.correlation.step stepped, ?_⟩
    rw [details_contextEdits]
    exact orderly.details
  | some c =>
    obtain ⟨after, stepped, saved, -⟩ := Builder.exists_push holds there x n s
    refine ⟨after, stepped, orderly.seeded.step stepped, orderly.correlation.step stepped, ?_⟩
    have current : c.isNull = false := orderly.correlation c there
    refine Sequence.wellFormed_iff.2 ⟨fs ++ [b.saved c], fun f member => ?_, ?_⟩
    · rcases List.mem_append.1 member with below | top
      · exact live f below
      · rw [List.mem_singleton.1 top]
        exact current
    · rw [saved.details, List.map_append]
      rfl

theorem Orderly.exists_pop (orderly : b.Orderly) : ∃ after, b.step .pop = .ok after ∧ after.Orderly := by
  obtain ⟨fs, live, holds⟩ := orderly.exists_holds
  rcases List.eq_nil_or_concat' fs with rfl | ⟨rest, top, rfl⟩
  · have stepped : b.step .pop = .ok b := step_pop_of_absent holds.details
    exact ⟨b, stepped, orderly⟩
  · have stack : (rest ++ [top]).map Frame.toValue = rest.map Frame.toValue ++ [top.toValue] := List.map_append
    obtain ⟨after, stepped, left, -⟩ := Builder.exists_pop holds stack (live top (by simp))
    refine ⟨after, stepped, orderly.seeded.step stepped, orderly.correlation.step stepped, ?_⟩
    refine Sequence.wellFormed_iff.2 ⟨rest, fun f member => live f (by simp [member]), left.details⟩

theorem Orderly.step (orderly : b.Orderly) {s : Step} (apart : s.offers HeaderName.sequenceDetails = [])
    {after : Builder Store α} (stepped : b.step s = .ok after) : after.Orderly := by
  cases s with
  | edit e =>
    cases stepped
    refine orderly.edit fun v offered => ?_
    rw [show e.offers HeaderName.sequenceDetails = [] from apart] at offered
    exact absurd offered List.not_mem_nil
  | push x n s =>
    obtain ⟨next, pushed, kept⟩ := orderly.exists_push x n s
    exact Except.ok.inj (pushed.symm.trans stepped) ▸ kept
  | pop =>
    obtain ⟨next, popped, kept⟩ := orderly.exists_pop
    exact Except.ok.inj (popped.symm.trans stepped) ▸ kept

end Steps

namespace Untampered

variable {α : Type} [Payload α] {b : Builder Store α}

theorem orderly (clean : b.Untampered) : b.Orderly := by
  induction clean with
  | withPayload payload => exact orderly_withPayload payload
  | derived _ stamps payload ih => exact ih.derived stamps payload
  | step _ apart stepped ih => exact ih.step apart stepped
  | copied _ _ stamps given ih source =>
    refine ih.edit fun v offered => ?_
    rw [← given v offered, build_header source.seeded stamps (by decide)]
    exact source.details

theorem copiedAll {β : Type} [Payload β] {other : Builder Store β} (clean : b.Untampered) (source : other.Untampered)
    (stamps : Stamps) (overwrite : Bool) :
    (b.edit (.copy (other.build stamps).1.message.headers.entries overwrite)).Untampered := by
  refine .copied clean source stamps fun v offered => ?_
  obtain ⟨member, -⟩ := Edit.mem_offers.1 offered
  exact (NameMap.mem_entries_iff _ _ _).1 member

theorem run (clean : b.Untampered) {steps : List Step}
    (apart : ∀ s ∈ steps, s.offers HeaderName.sequenceDetails = []) {after : Builder Store α}
    (ran : b.run steps = .ok after) : after.Untampered :=
  run_keeps (fun s member _ _ clean stepped => clean.step (apart s member) stepped) clean ran

/-- The stack is well formed in the builder and in every message that it builds, where all frames can be read, as many
as the builder counts; and neither a push nor a pop fails. -/
theorem stack_wellFormed (clean : b.Untampered) :
    Sequence.WellFormed (b.header HeaderName.sequenceDetails) ∧
    (∀ stamps, Sequence.WellFormed ((b.build stamps).1.message.headers.get? HeaderName.sequenceDetails) ∧
      ∃ frames, (b.build stamps).1.message.headers.sequenceDetails = .ok frames ∧
        frames.length = b.sequenceDepth) ∧
    (∀ x n s, ∃ after, b.step (.push x n s) = .ok after) ∧
    ∃ after, b.step .pop = .ok after := by
  have orderly := clean.orderly
  refine ⟨orderly.details, fun stamps => ?_, fun x n s => ?_, ?_⟩
  · have same : (b.build stamps).1.message.headers.get? HeaderName.sequenceDetails =
        b.header HeaderName.sequenceDetails := build_header orderly.seeded stamps (by decide)
    have formed := same ▸ orderly.details
    obtain ⟨frames, read, counted⟩ := Headers.exists_sequenceDetails formed
    exact ⟨formed, frames, read, counted.trans (congrArg Sequence.depth same)⟩
  · exact (orderly.exists_push x n s).imp fun _ pushed => pushed.1
  · exact orderly.exists_pop.imp fun _ popped => popped.1

theorem stack_wellFormed_copied :
    ∃ b : Builder Store String,
      (Builder.withPayload "crate").run [.edit (.setCorrelationId (.str "a")), .push .null 1 2] = .ok b ∧
      let m := (b.build (.counting 0 1)).1.message
      let other := (Builder.withPayload true).edit (.copy m.headers.entries true)
      other.Untampered ∧ other.sequenceDepth = 1 ∧ ∃ after, other.step .pop = .ok after := by
  have ran : (Builder.withPayload "crate").run [.edit (.setCorrelationId (.str "a")), .push .null 1 2] = .ok _ := rfl
  refine ⟨_, ran, ?_⟩
  intro m other
  have source := (Untampered.withPayload "crate").run
    (List.forall_mem_cons.2 ⟨rfl, List.forall_mem_singleton.2 rfl⟩) ran
  have clean : other.Untampered := (Untampered.withPayload true).copiedAll source (.counting 0 1) true
  exact ⟨clean, rfl, (stack_wellFormed clean).2.2.2⟩

/-- A push and the pop after it go through and leave the stack as it was, if and only if there was a correlation to
save or no stack to take from. -/
theorem details_pop_push_iff (clean : b.Untampered) (x : HeaderValue) (n s : Int64) :
    ∃ pushed popped, b.step (.push x n s) = .ok pushed ∧ pushed.step .pop = .ok popped ∧
      (popped.header HeaderName.sequenceDetails = b.header HeaderName.sequenceDetails ↔
        (b.correlationId = none → b.header HeaderName.sequenceDetails = none)) := by
  obtain ⟨fs, live, holds⟩ := clean.orderly.exists_holds
  cases there : b.header HeaderName.correlationId with
  | some c =>
    obtain ⟨pushed, stepped, saved, -⟩ := exists_push holds there x n s
    have current : c.isNull = false := clean.orderly.correlation c there
    obtain ⟨popped, taken, left, -⟩ := Builder.exists_pop saved rfl current
    refine ⟨pushed, popped, stepped, taken, iff_of_true (left.details.trans holds.details.symm) ?_⟩
    intro absent
    cases there.symm.trans absent
  | none =>
    have stepped := step_push_of_absent there x n s
    have same : (b.editAll (contextEdits x n s)).header HeaderName.sequenceDetails =
        b.header HeaderName.sequenceDetails := details_contextEdits b x n s
    rcases List.eq_nil_or_concat' fs with rfl | ⟨rest, top, rfl⟩
    · have absent : b.header HeaderName.sequenceDetails = none := holds.details
      exact ⟨_, _, stepped, step_pop_of_absent (same.trans absent), iff_of_true same fun _ => absent⟩
    · have stack : b.header HeaderName.sequenceDetails =
          Sequence.remainder (rest.map Frame.toValue ++ [top.toValue]) :=
        holds.details.trans (congrArg Sequence.remainder List.map_append)
      have found := (same.trans stack).trans (Sequence.remainder_append _ _)
      obtain ⟨popped, taken, -, left⟩ := exists_pop_of_top found (live top (by simp))
      refine ⟨_, popped, stepped, taken, iff_of_false ?_ fun kept => ?_⟩
      · rw [left, stack]
        exact Sequence.remainder_ne_append _ _
      · have absent := kept there
        rw [stack, Sequence.remainder_append] at absent
        cases absent

theorem details_pop_push_nested :
    ∃ b pushed popped : Builder Store String,
      (Builder.withPayload "crate").run [.edit (.setCorrelationId (.str "a")), .push (.str "b") 1 2] = .ok b ∧
      b.Untampered ∧ b.step (.push .null 3 4) = .ok pushed ∧ pushed.step .pop = .ok popped ∧
      b.sequenceDepth = 1 ∧
      popped.header HeaderName.sequenceDetails = b.header HeaderName.sequenceDetails := by
  have ran : (Builder.withPayload "crate").run [.edit (.setCorrelationId (.str "a")), .push (.str "b") 1 2] = .ok _ := rfl
  have clean := (Untampered.withPayload "crate").run
    (List.forall_mem_cons.2 ⟨rfl, List.forall_mem_singleton.2 rfl⟩) ran
  obtain ⟨pushed, popped, stepped, taken, kept⟩ := details_pop_push_iff clean .null 3 4
  exact ⟨_, pushed, popped, ran, clean, stepped, taken, rfl, kept.2 fun absent => nomatch absent⟩

/-- The correlation is gone, so the push saves nothing, and the pop takes the frame of the push before. -/
theorem details_pop_push_lost :
    ∃ b pushed popped : Builder Store String,
      (Builder.withPayload "crate").run [.edit (.setCorrelationId (.str "a")), .push (.str "b") 1 2,
        .edit (.remove HeaderName.correlationId)] = .ok b ∧
      b.Untampered ∧ b.step (.push (.str "c") 3 4) = .ok pushed ∧ pushed.step .pop = .ok popped ∧
      b.header HeaderName.sequenceDetails = some (.list [.list [.str "a", .null, .null]]) ∧
      popped.header HeaderName.sequenceDetails = none := by
  have ran : (Builder.withPayload "crate").run [.edit (.setCorrelationId (.str "a")), .push (.str "b") 1 2,
      .edit (.remove HeaderName.correlationId)] = .ok _ := rfl
  have clean := (Untampered.withPayload "crate").run
    (List.forall_mem_cons.2 ⟨rfl, List.forall_mem_cons.2 ⟨rfl, List.forall_mem_singleton.2 rfl⟩⟩) ran
  exact ⟨_, _, _, ran, clean, rfl, rfl, rfl, rfl⟩

end Untampered

end Builder
end Waybill
