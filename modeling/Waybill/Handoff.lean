import Waybill.Journal

/-! Builders handed to another task, which builds them. The two tasks share a buffer of bounded capacity, first in
first out. The sender hands over one builder at a time and then closes the buffer; the receiver takes one at a
time and ends once the buffer is closed and empty. `finish` is the outcome of all their interleavings. -/
namespace Waybill

structure Handoff (α : Type) where
  waiting : List (Builder Store α)
  buffer : List (Builder Store α)
  closed : Bool
  built : List (Built α)
  stamps : Stamps
  ended : Bool

namespace Handoff

variable {α : Type}

def capacity (builders : List (Builder Store α)) : Nat := max builders.length 1

theorem capacity_pos (builders : List (Builder Store α)) : 0 < capacity builders :=
  Nat.lt_of_lt_of_le Nat.one_pos (Nat.le_max_right builders.length 1)

def start (builders : List (Builder Store α)) (stamps : Stamps) : Handoff α :=
  ⟨builders, [], false, [], stamps, false⟩

inductive Turn
  | sender
  | receiver

/-- The sender's next action: it waits while the buffer is full, and closes the buffer when all is sent. When it finds
the receiver gone it gives up what is still waiting. -/
def send? (capacity : Nat) (h : Handoff α) : Option (Handoff α) :=
  match h.waiting with
  | [] => if h.closed then none else some { h with closed := true }
  | b :: more =>
    if h.ended then some { h with waiting := [] }
    else if h.buffer.length < capacity then some { h with waiting := more, buffer := h.buffer ++ [b] }
    else none

def receive? [Payload α] (h : Handoff α) : Option (Handoff α) :=
  if h.ended then none
  else
    match h.buffer with
    | b :: more =>
      let (built, stamps) := b.build h.stamps
      some { h with buffer := more, built := h.built ++ [built], stamps := stamps }
    | [] => if h.closed then some { h with ended := true } else none

def act? [Payload α] (capacity : Nat) (h : Handoff α) : Turn → Option (Handoff α)
  | .sender => h.send? capacity
  | .receiver => h.receive?

def finished (h : Handoff α) : Bool := h.closed && h.ended

end Handoff

namespace Builder

variable {α : Type} [Payload α]

def buildAll : List (Builder Store α) → Stamps → List (Built α) × Stamps
  | [], stamps => ([], stamps)
  | b :: more, stamps =>
    let (built, stamps) := b.build stamps
    let (rest, stamps) := buildAll more stamps
    (built :: rest, stamps)

end Builder

def finish {α : Type} [Payload α] (builders : List (Builder Store α)) (stamps : Stamps) :
    Journal (List (Built α) × Stamps) :=
  ⟨builders.flatMap Builder.buildEvents, .ok (Builder.buildAll builders stamps)⟩

end Waybill
