import Waybill.Message.Builder

/-! Computations that report events and may fail. What was reported before a failure stays reported. -/
namespace Waybill

structure Journal (α : Type) where
  events : List Event
  outcome : Except SequenceError α

namespace Journal

variable {α β : Type}

def pure (a : α) : Journal α := ⟨[], .ok a⟩

def bind (x : Journal α) (f : α → Journal β) : Journal β :=
  match x.outcome with
  | .ok a =>
    let y := f a
    ⟨x.events ++ y.events, y.outcome⟩
  | .error e => ⟨x.events, .error e⟩

instance : Monad Journal where
  pure := Journal.pure
  bind := Journal.bind

def note (events : List Event) : Journal Unit := ⟨events, .ok ()⟩

def ofExcept (x : Except SequenceError α) : Journal α := ⟨[], x⟩

def ofStep {σ α : Type} [Staging σ] (b : Builder σ α) (s : Step) : Journal (Builder σ α) :=
  ⟨b.events s, b.step s⟩

theorem outcome_pure (a : α) : (Pure.pure a : Journal α).outcome = .ok a := rfl

theorem outcome_bind (x : Journal α) (f : α → Journal β) :
    (x >>= f).outcome = x.outcome >>= fun a => (f a).outcome := by
  cases x with
  | mk events outcome => cases outcome <;> rfl

theorem outcome_bind_of_ok {x : Journal α} {a : α} (done : x.outcome = .ok a) (f : α → Journal β) :
    (x >>= f).outcome = (f a).outcome := by
  rw [outcome_bind, done]
  rfl

theorem events_bind_of_ok {x : Journal α} {a : α} (done : x.outcome = .ok a) (f : α → Journal β) :
    (x >>= f).events = x.events ++ (f a).events := by
  change (x.bind f).events = _
  rw [bind, done]

theorem events_bind_of_error {x : Journal α} {e : SequenceError} (failed : x.outcome = .error e) (f : α → Journal β) :
    (x >>= f).events = x.events := by
  change (x.bind f).events = _
  rw [bind, failed]

theorem outcome_bind_of_error {x : Journal α} {e : SequenceError} (failed : x.outcome = .error e)
    (f : α → Journal β) : (x >>= f).outcome = .error e := by
  rw [outcome_bind, failed]
  rfl

theorem exists_of_outcome_bind {x : Journal α} {f : α → Journal β} {b : β} (done : (x >>= f).outcome = .ok b) :
    ∃ a, x.outcome = .ok a ∧ (f a).outcome = .ok b := by
  rw [outcome_bind] at done
  cases outcome : x.outcome with
  | error e =>
    rw [outcome] at done
    cases done
  | ok a =>
    rw [outcome] at done
    exact ⟨a, rfl, done⟩

theorem outcome_note_bind (events : List Event) (f : Unit → Journal β) :
    (note events >>= f).outcome = (f ()).outcome := rfl

end Journal
end Waybill
