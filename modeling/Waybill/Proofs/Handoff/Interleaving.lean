import Waybill.Proofs.Builder.Batch

/-! Every interleaving of the two tasks of a handoff. What has been built, and what building the buffer and then the
waiting builders would add to it, is the same at every moment, so it is what building all of them in order gives. The
buffer is closed only when nothing waits, and the receiver ends only when the buffer is closed and empty, so no send
finds it gone. While one of the two has not finished one of them can act, and together they act twice for each builder
and once more each. -/
namespace Waybill.Handoff

variable {α : Type}

def remaining (h : Handoff α) : Nat :=
  2 * h.waiting.length + h.buffer.length + (if h.closed then 0 else 1) + (if h.ended then 0 else 1)

theorem remaining_start (builders : List (Builder Store α)) (stamps : Stamps) :
    (start builders stamps).remaining = 2 * builders.length + 2 := rfl

structure Orderly (h : Handoff α) : Prop where
  sent : h.closed = true → h.waiting = []
  received : h.ended = true → h.closed = true ∧ h.buffer = []

theorem orderly_start (builders : List (Builder Store α)) (stamps : Stamps) : (start builders stamps).Orderly :=
  ⟨fun closed => (nomatch closed), fun ended => (nomatch ended)⟩

theorem Orderly.waiting_of_ended {h : Handoff α} (orderly : h.Orderly) (gone : h.ended = true) : h.waiting = [] :=
  orderly.sent (orderly.received gone).1

theorem Orderly.exhausted {h : Handoff α} (orderly : h.Orderly) (finished : h.finished = true) :
    h.closed = true ∧ h.ended = true ∧ h.buffer = [] ∧ h.waiting = [] := by
  simp only [Handoff.finished, Bool.and_eq_true] at finished
  exact ⟨finished.1, finished.2, (orderly.received finished.2).2, orderly.sent finished.1⟩

variable [Payload α]

/-- Takes the turns in order; there is no such run if a task acts when it has to wait. -/
def play? (capacity : Nat) (h : Handoff α) (turns : List Turn) : Option (Handoff α) :=
  turns.foldlM (act? capacity) h

/-- What is built in the end if the receiver takes all of the buffer and then all that waits. -/
def outlook (h : Handoff α) : List (Built α) × Stamps :=
  let rest := Builder.buildAll (h.buffer ++ h.waiting) h.stamps
  (h.built ++ rest.1, rest.2)

structure Advances (before after : Handoff α) : Prop where
  orderly : after.Orderly
  outlook : after.outlook = before.outlook
  remaining : after.remaining + 1 = before.remaining

section Actions

variable {capacity : Nat} {h next : Handoff α}

theorem advances_send (orderly : h.Orderly) (acted : h.send? capacity = some next) : h.Advances next := by
  obtain ⟨waiting, buffer, closed, built, stamps, ended⟩ := h
  cases waiting with
  | nil =>
    cases closed with
    | true => cases acted
    | false =>
      have listening : ended = false := Bool.eq_false_iff.2 fun gone => nomatch (orderly.received gone).1
      subst listening
      cases acted
      exact ⟨⟨fun _ => rfl, fun gone => (nomatch gone)⟩, rfl, rfl⟩
  | cons b more =>
    have listening : ended = false := Bool.eq_false_iff.2 fun gone => nomatch orderly.waiting_of_ended gone
    subst listening
    simp only [send?, Bool.false_eq_true, if_false, Option.ite_none_right_eq_some, Option.some.injEq] at acted
    obtain ⟨-, rfl⟩ := acted
    refine ⟨⟨fun shut => (nomatch orderly.sent shut), fun gone => (nomatch gone)⟩, ?_, ?_⟩
    · simp only [outlook, List.append_assoc, List.singleton_append]
    · simp only [remaining, List.length_cons, List.length_append, List.length_nil]
      omega

theorem advances_receive (orderly : h.Orderly) (acted : h.receive? = some next) : h.Advances next := by
  obtain ⟨waiting, buffer, closed, built, stamps, ended⟩ := h
  cases ended with
  | true => cases acted
  | false =>
    cases buffer with
    | nil =>
      cases closed with
      | false => cases acted
      | true =>
        cases acted
        exact ⟨⟨orderly.sent, fun _ => ⟨rfl, rfl⟩⟩, rfl, rfl⟩
    | cons b more =>
      simp only [receive?, Bool.false_eq_true, if_false, Option.some.injEq] at acted
      subst acted
      refine ⟨⟨orderly.sent, fun gone => (nomatch gone)⟩, ?_, ?_⟩
      · simp only [outlook, List.cons_append, Builder.buildAll, List.append_assoc, List.nil_append]
      · simp only [remaining, List.length_cons]
        omega

theorem advances_act {turn : Turn} (orderly : h.Orderly) (acted : h.act? capacity turn = some next) :
    h.Advances next := by
  cases turn with
  | sender => exact advances_send orderly acted
  | receiver => exact advances_receive orderly acted

theorem play?_cons (h : Handoff α) (turn : Turn) (more : List Turn) :
    h.play? capacity (turn :: more) = (h.act? capacity turn).bind fun next => next.play? capacity more :=
  List.foldlM_cons

theorem outlook_of_play? {turns : List Turn} (orderly : h.Orderly) (played : h.play? capacity turns = some next) :
    next.Orderly ∧ next.outlook = h.outlook ∧ turns.length + next.remaining = h.remaining := by
  induction turns generalizing h with
  | nil =>
    cases played
    exact ⟨orderly, rfl, Nat.zero_add _⟩
  | cons turn more ih =>
    rw [play?_cons] at played
    obtain ⟨between, acted, rest⟩ := Option.bind_eq_some_iff.1 played
    have advances := advances_act orderly acted
    obtain ⟨kept, same, left⟩ := ih advances.orderly rest
    refine ⟨kept, same.trans advances.outlook, ?_⟩
    rw [List.length_cons, ← advances.remaining, ← left]
    omega

theorem exists_act_of_not_finished (room : 0 < capacity) (orderly : h.Orderly) (unfinished : h.finished = false) :
    ∃ turn next, h.act? capacity turn = some next := by
  obtain ⟨waiting, buffer, closed, built, stamps, ended⟩ := h
  cases ended with
  | true =>
    have closed' : closed = true := (orderly.received rfl).1
    subst closed'
    cases unfinished
  | false =>
    cases buffer with
    | cons b more => exact ⟨.receiver, _, rfl⟩
    | nil =>
      cases waiting with
      | cons b more => exact ⟨.sender, _, if_pos room⟩
      | nil =>
        cases closed with
        | true => exact ⟨.receiver, _, rfl⟩
        | false => exact ⟨.sender, _, rfl⟩

theorem finished_iff (room : 0 < capacity) (orderly : h.Orderly) :
    h.finished = true ↔ ∀ turn, h.act? capacity turn = none := by
  constructor
  · intro finished turn
    obtain ⟨closed, ended, -, waiting⟩ := orderly.exhausted finished
    cases turn with
    | sender => simp only [act?, send?, waiting, closed, if_true]
    | receiver => simp only [act?, receive?, ended, if_true]
  · intro stuck
    cases settled : h.finished with
    | true => rfl
    | false =>
      obtain ⟨turn, next, acted⟩ := exists_act_of_not_finished room orderly settled
      cases (stuck turn).symm.trans acted

theorem outlook_of_finished (orderly : h.Orderly) (finished : h.finished = true) :
    h.outlook = (h.built, h.stamps) := by
  obtain ⟨-, -, buffer, waiting⟩ := orderly.exhausted finished
  simp only [outlook, buffer, waiting, List.append_nil, Builder.buildAll]

end Actions

/-- The builder's own build. Whether it comes to the message it was derived from or to a new one was settled when it was
handed over. -/
structure Delivers (b : Builder Store α) (built : Built α) : Prop where
  own : ∃ stamps, (b.build stamps).1 = built
  settled : (∃ m, built = .kept m) ↔ b.isModified = false

theorem delivers_build (b : Builder Store α) (stamps : Stamps) : Delivers b (b.build stamps).1 := by
  refine ⟨⟨stamps, rfl⟩, ?_⟩
  cases changed : b.isModified with
  | true => simp [Builder.build_of_modified changed]
  | false =>
    obtain ⟨m, derived, -⟩ := Builder.exists_base_of_unmodified changed
    simp [Builder.build_of_unmodified changed derived]

/-- However the turns fall, no send finds the receiver gone, the turns are bounded in number, and nobody can act any more
just when both tasks have finished. Then every builder has been built, each once, in the order of the list, and all of
it is as if they had been built one after the other. -/
theorem built_of_interleaving {capacity : Nat} (room : 0 < capacity) {builders : List (Builder Store α)} {stamps : Stamps}
    {turns : List Turn} {h : Handoff α} (played : (start builders stamps).play? capacity turns = some h) :
    (h.ended = true → h.waiting = []) ∧
    turns.length ≤ 2 * builders.length + 2 ∧
    (h.finished = true ↔ ∀ turn, h.act? capacity turn = none) ∧
    (h.finished = true → List.Forall₂ Delivers builders h.built ∧
      (finish builders stamps).outcome = .ok (h.built, h.stamps)) := by
  obtain ⟨orderly, same, counted⟩ := outlook_of_play? (orderly_start builders stamps) played
  refine ⟨orderly.waiting_of_ended, ?_, finished_iff room orderly, fun finished => ?_⟩
  · rw [remaining_start] at counted
    omega
  · have all : Builder.buildAll builders stamps = (h.built, h.stamps) :=
      same.symm.trans (outlook_of_finished orderly finished)
    refine ⟨?_, (Builder.outcome_finish builders stamps).trans (congrArg Except.ok all)⟩
    have delivered := Builder.forall₂_buildAll delivers_build builders stamps
    rwa [all] at delivered

theorem built_of_interleaving_two_builders :
    let m : Message String := ⟨"crate", NameMap.ofList [("id", .int 3)], .generic⟩
    let builders : List (Builder Store String) := [Builder.withPayload "box", Builder.fromMessage m]
    ∃ h fresh, (start builders (.counting 0 1)).play? (capacity builders)
        [.sender, .receiver, .sender, .sender, .receiver, .receiver] = some h ∧
      h.finished = true ∧ h.built = [.made fresh, .kept m] ∧ List.Forall₂ Delivers builders h.built := by
  intro m builders
  have played : (start builders (.counting 0 1)).play? (capacity builders)
      [.sender, .receiver, .sender, .sender, .receiver, .receiver] = some _ := rfl
  exact ⟨_, _, played, rfl, rfl, ((built_of_interleaving (capacity_pos builders) played).2.2.2 rfl).1⟩

end Waybill.Handoff
