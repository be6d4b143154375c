import Waybill.Proofs.Builder.PushPop
import Waybill.Proofs.Builder.Reuse
import Waybill.Proofs.Message.RoundTrip

/-! What holds of every message that builders make, whatever they are told to do and however many messages lie between
a payload and it. Its two reserved headers are those of a stamp that was handed out, no header of it is null, and its
kind says whether its payload is a failure. A builder that has changed nothing returns an older message, so the stamp
and the kind may be older than the builder; they still fit the payload that comes with them. A message that was read
from a text need not have a kind that fits. It keeps it as long as nothing is changed. -/
namespace Waybill

theorem Payload.kind_eq_error_iff {α : Type} [Payload α] (payload : α) :
    kind payload = .error ↔ isFailure payload = true := by
  cases failed : isFailure payload <;> simp [kind, failed]

namespace Message

variable {α : Type} [Payload α]

def Fitting (m : Message α) : Prop := m.kind = Payload.kind m.payload

structure Finished (given : Stamp → Prop) (m : Message α) : Prop where
  stamped : ∃ stamp, given stamp ∧ m.headers.get? HeaderName.id = some (.id stamp.id) ∧
    m.headers.get? HeaderName.timestamp = some (.int stamp.timestamp)
  live : ∀ name v, m.headers.get? name = some v → v.isNull = false
  fitting : m.Fitting

end Message

namespace Builder

variable {α : Type} [Payload α]

/-- What can come of payloads alone, if the stamps drawn on the way are among the given ones: a builder for a payload,
one from a message that such a builder built, with the payload of the message or another, and all that steps make of
them. -/
inductive Grown (given : Stamp → Prop) : Builder Store α → Prop
  | withPayload (payload : α) : Grown given (withPayload payload)
  | derived {b : Builder Store α} (grown : Grown given b) {stamps : Stamps}
      (drawn : b.isModified = true → given stamps.next) (payload : α) :
      Grown given (fromMessageWithPayload (b.build stamps).1.message payload)
  | step {b after : Builder Store α} (grown : Grown given b) {s : Step} (stepped : b.step s = .ok after) :
      Grown given after

structure Sound (given : Stamp → Prop) (b : Builder Store α) : Prop where
  base : ∀ m, b.base = some m → m.Finished given
  live : ∀ name, b.Live name

variable {given : Stamp → Prop} {b : Builder Store α}

theorem finished_made (live : ∀ name, b.Live name) {stamp : Stamp} (drawn : given stamp) :
    (b.made stamp).Finished given := by
  refine ⟨⟨stamp, drawn, ?_, ?_⟩, fun name v found => ?_, rfl⟩
  · rw [get?_made, if_neg (by decide), if_pos rfl]
  · rw [get?_made, if_pos rfl]
  · rw [get?_made] at found
    split at found
    · cases found
      rfl
    · split at found
      · cases found
        rfl
      · exact live name v found

theorem Sound.finished_build (sound : b.Sound given) {stamps : Stamps} (drawn : b.isModified = true → given stamps.next) :
    (b.build stamps).1.message.Finished given := by
  cases changed : b.isModified with
  | true =>
    rw [build_of_modified changed]
    exact finished_made sound.live (drawn changed)
  | false =>
    -- stamp and kind may be older than the builder, but so is the payload that comes with them
    obtain ⟨m, derived, -⟩ := exists_base_of_unmodified changed
    rw [build_of_unmodified changed derived]
    exact sound.base m derived

theorem sound_withPayload (payload : α) : (withPayload payload).Sound given :=
  ⟨fun _ derived => (nomatch derived), fun _ _ found => (nomatch found)⟩

theorem sound_fromMessageWithPayload {m : Message α} (finished : m.Finished given) (payload : α) :
    (fromMessageWithPayload m payload).Sound given := by
  refine ⟨fun m' derived => ?_, fun name v found => ?_⟩
  · cases derived
    exact finished
  · change (Store.ofHeaders m.headers).get? name = some v at found
    rw [Store.get?_ofHeaders] at found
    split at found
    · cases found
    · exact finished.live name v found

theorem Sound.step (sound : b.Sound given) {after : Builder Store α} {s : Step} (stepped : b.step s = .ok after) :
    after.Sound given := by
  refine ⟨fun m derived => ?_, fun name => (sound.live name).step stepped⟩
  obtain ⟨p, -, rfl⟩ := exists_plan_of_step stepped
  rw [editAll_base] at derived
  exact sound.base m derived

theorem Grown.sound (grown : b.Grown given) : b.Sound given := by
  induction grown with
  | withPayload payload => exact sound_withPayload payload
  | derived _ drawn payload ih => exact sound_fromMessageWithPayload (ih.finished_build drawn) payload
  | step _ stepped ih => exact ih.step stepped

theorem Grown.run (grown : b.Grown given) {steps : List Step} {after : Builder Store α}
    (ran : b.run steps = .ok after) : after.Grown given :=
  run_keeps (fun _ _ _ _ grown stepped => grown.step stepped) grown ran

end Builder

namespace Message

variable {α : Type} [Payload α]

def Produced (given : Stamp → Prop) (m : Message α) : Prop :=
  ∃ b : Builder Store α, b.Grown given ∧
    ∃ stamps, (b.isModified = true → given stamps.next) ∧ (b.build stamps).1.message = m

theorem produced_build {given : Stamp → Prop} {b : Builder Store α} (grown : b.Grown given) {stamps : Stamps}
    (drawn : b.isModified = true → given stamps.next) : (b.build stamps).1.message.Produced given :=
  ⟨b, grown, stamps, drawn, rfl⟩

theorem Produced.finished {given : Stamp → Prop} {m : Message α} (produced : m.Produced given) : m.Finished given := by
  obtain ⟨b, grown, stamps, drawn, rfl⟩ := produced
  exact grown.sound.finished_build drawn

/-- Whatever was written, copied, removed and pushed on the way. -/
theorem Produced.wellFormed {given : Stamp → Prop} {m : Message α} (produced : m.Produced given) :
    (∃ stamp, given stamp ∧ m.headers.get? HeaderName.id = some (.id stamp.id) ∧
      m.headers.get? HeaderName.timestamp = some (.int stamp.timestamp)) ∧
    (∀ name v, m.headers.get? name = some v → v.isNull = false) ∧
    (m.kind = .error ↔ Payload.isFailure m.payload = true) := by
  have finished := produced.finished
  refine ⟨finished.stamped, finished.live, ?_⟩
  rw [finished.fitting, Payload.kind_eq_error_iff]

theorem Produced.wellFormed_returned :
    let stamps := Stamps.counting 0 1
    let forged : List Step := [.edit (.set "id" (.int 7)),
      .edit (.copy [("timestamp", .null), ("note", .json Json.null), ("kept", .int 1)] true), .push .null 1 2]
    let idle : List Edit := [.removeMatching ["id", "time*"], .copy [("id", .str "mine")] false]
    ∃ b again : Builder Store String, (Builder.withPayload "crate").run forged = .ok b ∧
      (Builder.fromMessage (b.build stamps).1.message).run (idle.map .edit) = .ok again ∧
      let m := (again.build (.counting 0 5)).1.message
      m.Produced (· = stamps.next) ∧ m.headers.get? HeaderName.id = some (.id stamps.next.id) ∧
        (∀ name v, m.headers.get? name = some v → v.isNull = false) ∧ m.kind ≠ .error := by
  intro stamps forged idle
  let b : Builder Store String := (Builder.withPayload "crate").editAll ((Builder.withPayload "crate").edits forged)
  have ran : (Builder.withPayload "crate").run forged = .ok b := rfl
  have start : (Builder.withPayload "crate").Grown (· = stamps.next) := .withPayload "crate"
  let reopened : Builder Store String := Builder.fromMessage (b.build stamps).1.message
  have derived : reopened.Grown (· = stamps.next) := (start.run ran).derived (fun _ => rfl) "crate"
  let again : Builder Store String := reopened.editAll idle
  have ranIdle : reopened.run (idle.map .edit) = .ok again := Builder.run_edits reopened idle
  have still : again.isModified = false := by decide +kernel
  have produced : (again.build (.counting 0 5)).1.message.Produced (· = stamps.next) :=
    produced_build (derived.run ranIdle) fun changed => nomatch still.symm.trans changed
  obtain ⟨⟨stamp, drawn, identity, -⟩, live, kind⟩ := wellFormed produced
  subst drawn
  exact ⟨b, again, ran, ranIdle, produced, identity, live, fun failed => (nomatch kind.1 failed)⟩

end Message

namespace Builder

variable {α : Type} [Payload α]

theorem kind_build_iff {m : Message α} {steps : List Step} {b : Builder Store α}
    (ran : (fromMessage m).run steps = .ok b) (stamps : Stamps) :
    (b.build stamps).1.message.kind = m.kind ↔ b.isModified = false ∨ m.Fitting := by
  cases changed : b.isModified with
  | true =>
    have same : b.payload = m.payload := payload_of_run ran
    rw [build_of_modified changed]
    change Payload.kind b.payload = m.kind ↔ _
    rw [same, Message.Fitting]
    exact ⟨fun fits => .inr fits.symm, fun fits => (fits.resolve_left (by decide)).symm⟩
  | false =>
    rw [build_of_unmodified changed (base_of_run ran)]
    exact iff_of_true rfl (.inl rfl)

/-- A message of a builder keeps its kind whatever is done to its headers. Any other keeps it exactly if nothing was
changed or the kind fits the payload. -/
theorem kind_build_of_run {given : Stamp → Prop} {m : Message α} {steps : List Step} {b : Builder Store α}
    (ran : (fromMessage m).run steps = .ok b) (stamps : Stamps) :
    (m.Produced given → (b.build stamps).1.message.kind = m.kind) ∧
    ((b.build stamps).1.message.kind = m.kind ↔ b.isModified = false ∨ m.Fitting) := by
  have whenever := kind_build_iff ran stamps
  exact ⟨fun produced => whenever.2 (.inr produced.finished.fitting), whenever⟩

theorem kind_build_of_run_failure :
    let m := ((withPayload (⟨3, .ofText "boom"⟩ : Failure)).build (.counting 0 1)).1.message
    ∃ b, (fromMessage m).run [.edit (.setPriority 1), .push (.str "b") 1 2] = .ok b ∧ b.isModified = true ∧
      m.Produced (· = (Stamps.counting 0 1).next) ∧ (b.build (.counting 0 2)).1.message.kind = .error := by
  intro m
  have ran : (fromMessage m).run [.edit (.setPriority 1), .push (.str "b") 1 2] = .ok _ := rfl
  have produced : m.Produced (· = (Stamps.counting 0 1).next) := Message.produced_build (.withPayload _) fun _ => rfl
  exact ⟨_, ran, rfl, produced, (kind_build_of_run ran (.counting 0 2)).1 produced⟩

/-- The text says that it is about a failure, and its payload is none; a header more, and the message is not about a
failure any longer. -/
theorem kind_build_mislabelled :
    let m : Message String := ⟨"crate", ∅, .error⟩
    ∃ text b, m.text? = some text ∧ Read.text Message.read text = .ok m ∧
      (fromMessage m).run [.edit (.setPriority 1)] = .ok b ∧
      (b.build (.counting 0 1)).1.message.kind = .generic ∧ m.kind = .error := by
  intro m
  obtain ⟨payload, same, back, -⟩ := Message.exists_read_text (JsonForm.roundTrips_string m.payload)
    (show m.doc? = some _ from rfl) (NameMap.forall_get?_iff.2 (by decide)) (by decide)
  rw [eq_of_beq same] at back
  exact ⟨_, _, rfl, back, rfl, rfl, rfl⟩

end Builder
end Waybill
