import Waybill.Proofs.Builder.Run

/-! Building from a message. The message itself comes back if and only if the new payload equals the old one and no
write of all that was done changed a header; a change that was taken back later counts. Otherwise there is a new
message with the new payload and the next stamp. Either way the builder's headers are the message's. -/
namespace Waybill.Builder

variable {α : Type}

section Runs

variable {m : Message α} {payload : α} {steps : List Step} {b : Builder Store α}
  (ran : (fromMessageWithPayload m payload).run steps = .ok b)
include ran

theorem base_of_run : b.base = some m := by
  rw [eq_editAll_of_run ran, editAll_base]
  rfl

theorem payload_of_run : b.payload = payload := by
  rw [eq_editAll_of_run ran, editAll_payload]
  rfl

theorem headers_of_run :
    b.headers = (Store.ofHeaders m.headers).run ((fromMessageWithPayload m payload).edits steps) := by
  rw [eq_editAll_of_run ran, editAll_headers]
  rfl

variable [Payload α]

theorem isModified_run_iff :
    b.isModified = false ↔ (m.payload == payload) = true ∧ (Store.ofHeaders m.headers).Still
      (((fromMessageWithPayload m payload).edits steps).flatMap Edit.writes) := by
  rw [isModified_eq_false_iff (base_of_run ran), payload_of_run ran, headers_of_run ran, Store.modified_run_iff]
  exact and_congr_right fun _ => and_iff_right rfl

/-- The message comes back exactly while nothing changed, that is, while the payloads are equal and each single
write left the headers alone; else the payload is the new one and the stamp a fresh one. -/
theorem build_of_run (stamps : Stamps) :
    ((b.build stamps).1 = .kept m ↔ b.isModified = false) ∧
    (b.isModified = false ↔ (m.payload == payload) = true ∧ (Store.ofHeaders m.headers).Still
      (((fromMessageWithPayload m payload).edits steps).flatMap Edit.writes)) ∧
    ((b.build stamps = (.kept m, stamps) ∧ (m.payload == payload) = true) ∨
      ∃ fresh, b.build stamps = (.made fresh, stamps.rest) ∧ fresh.payload = payload ∧
        fresh.headers.messageId = some stamps.next.id ∧
        fresh.headers.timestamp = some stamps.next.timestamp) ∧
    ∀ name, HeaderName.isReserved name = false →
      (b.build stamps).1.message.headers.get? name = b.header name := by
  have derived := base_of_run ran
  have seeded : b.Seeded := (seeded_fromMessageWithPayload m payload).run ran
  refine ⟨?_, isModified_run_iff ran, ?_, fun name free => build_header seeded stamps free⟩
  · cases changed : b.isModified with
    | true => simp [build_of_modified changed]
    | false => simp [build_of_unmodified changed derived]
  · cases changed : b.isModified with
    | true =>
      refine .inr ⟨b.made stamps.next, build_of_modified changed stamps, payload_of_run ran, ?_, ?_⟩
      · exact b.messageId_made stamps.next
      · exact b.timestamp_made stamps.next
    | false => exact .inl ⟨build_of_unmodified changed derived stamps, ((isModified_run_iff ran).1 changed).1⟩

end Runs

theorem build_of_run_idle_writes :
    let m : Message String := ⟨"crate", NameMap.ofList [("id", .int 3), ("note", .str "x")], .generic⟩
    let steps : List Step := [.edit (.set "note" (.str "x")), .edit (.remove "gone"),
      .edit (.copy [("id", .int 7), ("note", .str "x")] true), .pop]
    ∃ b, (fromMessageWithPayload m "crate").run steps = .ok b ∧ b.isModified = false ∧
      (b.build (.counting 0 1)).1 = .kept m := by
  intro m steps
  have ran : (fromMessageWithPayload m "crate").run steps = .ok _ := rfl
  exact ⟨_, ran, rfl, (build_of_run ran (.counting 0 1)).1.2 rfl⟩

end Waybill.Builder
