import Waybill.Message.Builder
import Waybill.Proofs.Store.Writes

/-! Runs of a builder's steps, and what it builds. A run is the edits its plans come to, carried out one after the
other; payload and base stay as they are. A builder is seeded while an unmodified staging area still holds what the
base message holds: all who derive a builder from a message owe this, no step breaks it, and with it a build shows
exactly the headers that the builder shows, whether the base is returned or a new message is made. -/
namespace Waybill.Builder

variable {α : Type}

section Running

variable {σ : Type} [Staging σ]

def run (b : Builder σ α) (steps : List Step) : Except SequenceError (Builder σ α) := steps.foldlM step b

def edits (b : Builder σ α) : List Step → List Edit
  | [] => []
  | s :: more =>
    match b.plan s with
    | .ok p => p.edits ++ edits (b.editAll p.edits) more
    | .error _ => []

theorem editAll_append (b : Builder σ α) (first second : List Edit) :
    b.editAll (first ++ second) = (b.editAll first).editAll second :=
  List.foldl_append

@[simp] theorem editAll_payload (b : Builder σ α) (es : List Edit) : (b.editAll es).payload = b.payload := by
  induction es generalizing b with
  | nil => rfl
  | cons e more ih => exact ih (b.edit e)

@[simp] theorem editAll_base (b : Builder σ α) (es : List Edit) : (b.editAll es).base = b.base := by
  induction es generalizing b with
  | nil => rfl
  | cons e more ih => exact ih (b.edit e)

theorem step_of_plan {b : Builder σ α} {s : Step} {p : Plan} (planned : b.plan s = .ok p) :
    b.step s = .ok (b.editAll p.edits) := by
  rw [step, planned]
  rfl

theorem exists_plan_of_step {b after : Builder σ α} {s : Step} (stepped : b.step s = .ok after) :
    ∃ p, b.plan s = .ok p ∧ after = b.editAll p.edits := by
  cases planned : b.plan s with
  | error e =>
    rw [step, planned] at stepped
    cases stepped
  | ok p =>
    rw [step_of_plan planned] at stepped
    exact ⟨p, rfl, (Except.ok.inj stepped).symm⟩

theorem run_cons {b next : Builder σ α} {s : Step} (steps : List Step) (stepped : b.step s = .ok next) :
    b.run (s :: steps) = next.run steps := by
  simp only [run, List.foldlM_cons, stepped]
  rfl

theorem run_edits (b : Builder σ α) (es : List Edit) : b.run (es.map .edit) = .ok (b.editAll es) := by
  induction es generalizing b with
  | nil => rfl
  | cons e more ih =>
    have stepped : b.step (.edit e) = .ok (b.edit e) := rfl
    exact (run_cons _ stepped).trans (ih (b.edit e))

theorem run_keeps {p : Builder σ α → Prop} {b after : Builder σ α} {steps : List Step}
    (keeps : ∀ s ∈ steps, ∀ b next, p b → b.step s = .ok next → p next) (holds : p b)
    (ran : b.run steps = .ok after) : p after := by
  induction steps generalizing b with
  | nil =>
    cases ran
    exact holds
  | cons s more ih =>
    cases stepped : b.step s with
    | error e =>
      simp only [run, List.foldlM_cons, stepped] at ran
      cases ran
    | ok next =>
      rw [run_cons more stepped] at ran
      have first : p next := keeps s List.mem_cons_self b next holds stepped
      exact ih (fun other member => keeps other (List.mem_cons_of_mem s member)) first ran

theorem eq_editAll_of_run {b after : Builder σ α} {steps : List Step} (ran : b.run steps = .ok after) :
    after = b.editAll (b.edits steps) := by
  induction steps generalizing b with
  | nil =>
    cases ran
    rfl
  | cons s more ih =>
    cases planned : b.plan s with
    | error e =>
      simp only [run, List.foldlM_cons, step, planned] at ran
      cases ran
    | ok p =>
      rw [run_cons more (step_of_plan planned)] at ran
      rw [edits, planned, editAll_append]
      exact ih ran

end Running

section Seeds

theorem editAll_headers (b : Builder Store α) (es : List Edit) :
    (b.editAll es).headers = b.headers.run es := by
  induction es generalizing b with
  | nil => rfl
  | cons e more ih => exact ih (b.edit e)

theorem header_set (b : Builder Store α) {name : String} (free : HeaderName.isReserved name = false)
    (v : HeaderValue) (other : String) :
    (b.edit (.set name v)).header other =
      if name = other then Store.written (b.header name) v else b.header other :=
  Store.get?_set b.headers free v other

theorem header_remove (b : Builder Store α) (name other : String) :
    (b.edit (.remove name)).header other = if name = other then none else b.header other :=
  Store.get?_remove b.headers name other

theorem header_edit_of_not_touches (b : Builder Store α) {e : Edit} {name : String}
    (apart : e.touches name = false) : (b.edit e).header name = b.header name :=
  Store.get?_edit_of_not_touches b.headers apart

theorem header_eq (b : Builder Store α) (name : String) : b.header name = b.headers.get? name := rfl

theorem header_fromMessage (m : Message α) {name : String} (free : HeaderName.isReserved name = false) :
    (fromMessage m).header name = m.headers.get? name := by
  change (Store.ofHeaders m.headers).get? name = _
  rw [Store.get?_ofHeaders, free]
  rfl

/-- An unmodified staging area holds the headers of the base, but for the reserved ones. -/
def Seeded (b : Builder Store α) : Prop :=
  ∀ m, b.base = some m → b.headers.modified = false → b.headers.staged = (Store.ofHeaders m.headers).staged

theorem seeded_withPayload (payload : α) : (withPayload payload).Seeded := by
  intro m derived
  cases derived

theorem seeded_fromMessageWithPayload (m : Message α) (payload : α) :
    (fromMessageWithPayload m payload).Seeded := by
  intro m' derived _
  cases derived
  rfl

theorem seeded_fromMessage (m : Message α) : (fromMessage m).Seeded :=
  seeded_fromMessageWithPayload m m.payload

theorem Seeded.editAll {b : Builder Store α} (seeded : b.Seeded) (es : List Edit) : (b.editAll es).Seeded := by
  intro m derived down
  rw [editAll_base] at derived
  rw [editAll_headers] at down ⊢
  have ⟨before, same⟩ := Store.staged_run_of_unmodified down
  exact same.trans (seeded m derived before)

theorem Seeded.edit {b : Builder Store α} (seeded : b.Seeded) (e : Edit) : (b.edit e).Seeded :=
  seeded.editAll [e]

theorem Seeded.run {b after : Builder Store α} (seeded : b.Seeded) {steps : List Step}
    (ran : b.run steps = .ok after) : after.Seeded :=
  eq_editAll_of_run ran ▸ seeded.editAll _

theorem Seeded.step {b after : Builder Store α} (seeded : b.Seeded) {s : Step} (stepped : b.step s = .ok after) :
    after.Seeded :=
  seeded.run (run_cons [] stepped)

theorem base_header {b : Builder Store α} (seeded : b.Seeded) {m : Message α} (derived : b.base = some m)
    (same : b.headers.modified = false) {name : String} (free : HeaderName.isReserved name = false) :
    m.headers.get? name = b.header name := by
  rw [header_eq, Store.get?, seeded m derived same, ← Store.get?, Store.get?_ofHeaders, free]
  rfl

end Seeds

section Building

variable [Payload α]

def made (b : Builder Store α) (stamp : Stamp) : Message α where
  payload := b.payload
  headers := (b.headers.staged.insert HeaderName.id (.id stamp.id)).insert HeaderName.timestamp (.int stamp.timestamp)
  kind := Payload.kind b.payload

theorem build_of_modified {b : Builder Store α} (changed : b.isModified = true) (stamps : Stamps) :
    b.build stamps = (.made (b.made stamps.next), stamps.rest) := by
  simp only [build, reusable, changed, if_true]
  rfl

theorem isModified_eq_false_iff {b : Builder Store α} {m : Message α} (derived : b.base = some m) :
    b.isModified = false ↔ (m.payload == b.payload) = true ∧ b.headers.modified = false := by
  simp only [isModified, derived, Option.isNone_some, Bool.false_or, Bool.or_eq_false_iff, payloadChanged, bne,
    Bool.not_eq_false']
  exact Iff.rfl

theorem exists_base_of_unmodified {b : Builder Store α} (same : b.isModified = false) :
    ∃ m, b.base = some m ∧ (m.payload == b.payload) = true ∧ b.headers.modified = false := by
  cases derived : b.base with
  | none => simp [isModified, derived] at same
  | some m => exact ⟨m, rfl, (isModified_eq_false_iff derived).1 same⟩

theorem build_of_unmodified {b : Builder Store α} {m : Message α} (same : b.isModified = false)
    (derived : b.base = some m) (stamps : Stamps) : b.build stamps = (.kept m, stamps) := by
  simp only [build, reusable, same, derived, Bool.false_eq_true, if_false]

theorem isModified_of_header_ne {b : Builder Store α} (seeded : b.Seeded) {m : Message α}
    (derived : b.base = some m) {name : String} (free : HeaderName.isReserved name = false)
    (differ : m.headers.get? name ≠ b.header name) : b.isModified = true := by
  cases changed : b.isModified with
  | true => rfl
  | false =>
    have down := ((isModified_eq_false_iff derived).1 changed).2
    exact absurd (base_header seeded derived down free) differ

theorem get?_made (b : Builder Store α) (stamp : Stamp) (name : String) :
    (b.made stamp).headers.get? name =
      if HeaderName.timestamp = name then some (.int stamp.timestamp)
      else if HeaderName.id = name then some (.id stamp.id)
      else b.header name := by
  rw [made, NameMap.get?_insert, NameMap.get?_insert]
  rfl

theorem made_header (b : Builder Store α) (stamp : Stamp) {name : String}
    (free : HeaderName.isReserved name = false) : (b.made stamp).headers.get? name = b.header name := by
  have notId : HeaderName.id ≠ name := fun e => by subst e; cases free
  have notTime : HeaderName.timestamp ≠ name := fun e => by subst e; cases free
  rw [get?_made, if_neg notTime, if_neg notId]

theorem messageId_made (b : Builder Store α) (stamp : Stamp) : (b.made stamp).headers.messageId = some stamp.id := by
  rw [Headers.messageId, get?_made, if_neg (by decide), if_pos rfl]
  rfl

theorem timestamp_made (b : Builder Store α) (stamp : Stamp) :
    (b.made stamp).headers.timestamp = some stamp.timestamp := by
  rw [Headers.timestamp, Headers.int?, get?_made, if_pos rfl]
  rfl

theorem build_header {b : Builder Store α} (seeded : b.Seeded) (stamps : Stamps) {name : String}
    (free : HeaderName.isReserved name = false) :
    (b.build stamps).1.message.headers.get? name = b.header name := by
  cases changed : b.isModified with
  | true =>
    rw [build_of_modified changed]
    exact b.made_header stamps.next free
  | false =>
    obtain ⟨m, derived, -, same⟩ := exists_base_of_unmodified changed
    rw [build_of_unmodified changed derived]
    exact base_header seeded derived same free

theorem build_payload [ReflBEq α] (b : Builder Store α) (stamps : Stamps) :
    ((b.build stamps).1.message.payload == b.payload) = true := by
  cases changed : b.isModified with
  | true =>
    rw [build_of_modified changed]
    exact beq_self_eq_true b.payload
  | false =>
    obtain ⟨m, derived, same, -⟩ := exists_base_of_unmodified changed
    rw [build_of_unmodified changed derived]
    exact same

end Building

end Waybill.Builder
