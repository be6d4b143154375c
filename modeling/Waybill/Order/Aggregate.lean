import Waybill.Order.Work
import Waybill.Journal

/-! Merging children back. Messages that share an identity as their correlation form a group; groups are taken in
ascending order of that identity. A group is complete when it has as many members as its first member's size
says, the first being the one with the lowest number, and a missing number being lowest of all. Complete groups
become one message with the parent's context restored, others are reported and held back. -/
namespace Waybill

namespace Aggregate

def correlation? (m : Envelope) : Option MessageId := m.headers.correlationId.bind HeaderValue.id?

structure Group where
  correlation : MessageId
  members : List Envelope

/-- Adds a message at the end of its group, or as a group of its own where that belongs. -/
def join (x : MessageId) (m : Envelope) : List Group → List Group
  | [] => [⟨x, [m]⟩]
  | g :: rest =>
    if x < g.correlation then ⟨x, [m]⟩ :: g :: rest
    else if x = g.correlation then ⟨g.correlation, g.members ++ [m]⟩ :: rest
    else g :: join x m rest

def gather (gathered : List Group) (m : Envelope) : List Group :=
  match correlation? m with
  | some x => join x m gathered
  | none => gathered

def groups (messages : List Envelope) : List Group := messages.foldl gather []

def before : Option Int64 → Option Int64 → Bool
  | none, some _ => true
  | some a, some b => a < b
  | _, none => false

/-- The first of the messages with the lowest number. -/
def lowest (m : Envelope) : List Envelope → Envelope
  | [] => m
  | other :: rest =>
    if before other.headers.sequenceNumber m.headers.sequenceNumber then lowest other rest
    else lowest m rest

namespace Group

def first? (g : Group) : Option Envelope :=
  match g.members with
  | [] => none
  | m :: rest => some (lowest m rest)

def expected (first : Envelope) : Int64 := first.headers.sequenceSize.getD 0

def isComplete (g : Group) (first : Envelope) : Bool :=
  Int64.ofNat g.members.length == expected first

def merged (g : Group) (first : Envelope) : Journal WorkBuilder :=
  let b := Builder.fromMessageWithPayload first (.aggregated g.members.length)
  Journal.ofStep (b.edit (.remove HeaderName.errorChannel)) .pop

def release (g : Group) (stamps : Stamps) : Journal (Option (Built Work) × Stamps) :=
  match g.first? with
  | none => return (none, stamps)
  | some first =>
    if g.isComplete first then do
      let b ← g.merged first
      Journal.note b.buildEvents
      let (built, stamps) := b.build stamps
      return (some built, stamps)
    else do
      Journal.note [.incomplete g.correlation g.members.length (expected first)]
      return (none, stamps)

end Group

def releaseAll : List Group → Stamps → Journal (List (Built Work) × Stamps)
  | [], stamps => return ([], stamps)
  | g :: more, stamps => do
    let (built?, stamps) ← g.release stamps
    let (rest, stamps) ← releaseAll more stamps
    return (built?.toList ++ rest, stamps)

end Aggregate

/-- Releases every complete group; the first one that cannot be merged stops the rest. -/
def aggregate (messages : List Envelope) (stamps : Stamps) : Journal (List (Built Work) × Stamps) :=
  Aggregate.releaseAll (Aggregate.groups messages) stamps

end Waybill
