import Mathlib.Data.List.Forall2
import Waybill.Handoff
import Waybill.Proofs.Builder.Run

/-! Builders built one after the other. While all of them are modified their messages take the identities of the
stamps in turn. -/
namespace Waybill

def Stamps.ids (stamps : Stamps) : Nat → List MessageId
  | 0 => []
  | n + 1 => stamps.next.id :: stamps.rest.ids n

namespace Builder

variable {α : Type} [Payload α]

def Builds (b : Builder Store α) (m : Message α) : Prop := ∃ stamps, (b.build stamps).1.message = m

theorem outcome_finish (builders : List (Builder Store α)) (stamps : Stamps) :
    (finish builders stamps).outcome = .ok (buildAll builders stamps) := rfl

theorem forall₂_buildAll {relates : Builder Store α → Built α → Prop}
    (each : ∀ b stamps, relates b (b.build stamps).1) (builders : List (Builder Store α)) (stamps : Stamps) :
    List.Forall₂ relates builders (buildAll builders stamps).1 := by
  induction builders generalizing stamps with
  | nil => exact .nil
  | cons b more ih => exact .cons (each b stamps) (ih (b.build stamps).2)

theorem builds_buildAll (builders : List (Builder Store α)) (stamps : Stamps) :
    List.Forall₂ Builds builders ((buildAll builders stamps).1.map Built.message) :=
  List.forall₂_map_right_iff.2 (forall₂_buildAll (fun _ stamps => ⟨stamps, rfl⟩) builders stamps)

theorem messageIds_buildAll {builders : List (Builder Store α)} (changed : ∀ b ∈ builders, b.isModified = true)
    (stamps : Stamps) :
    ((buildAll builders stamps).1.map Built.message).map (·.headers.messageId) =
      (stamps.ids builders.length).map some := by
  induction builders generalizing stamps with
  | nil => rfl
  | cons b more ih =>
    have first : b.build stamps = (.made (b.made stamps.next), stamps.rest) :=
      build_of_modified (changed b List.mem_cons_self) stamps
    have others := ih (fun other member => changed other (List.mem_cons_of_mem _ member)) stamps.rest
    simp only [buildAll, first, List.map_cons, others, Built.message, messageId_made, List.length_cons, Stamps.ids]

end Builder
end Waybill
