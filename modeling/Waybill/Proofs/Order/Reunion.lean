import Waybill.Proofs.Order.Children
import Waybill.Proofs.Order.Merging

/-! Splitting and merging. Parents of both kinds, at any depth, are split together; their children are built at any
stamps and shuffled; merging them gives the parents back. -/
namespace Waybill

namespace Split

def childCount : Work → Nat
  | .order items => items.length
  | .item line => line.qty.toNat
  | _ => 0

/-- The builders that the two splits give for one message; one of them gives none. -/
def both (parent : Envelope) (occurrence : Nat) : Journal (List WorkBuilder) := do
  let lines ← order parent occurrence
  let units ← item parent
  return lines ++ units

def all (occurrence : Envelope → Nat) : List Envelope → Journal (List WorkBuilder)
  | [] => return []
  | parent :: more => do
    let builders ← both parent (occurrence parent)
    let rest ← all occurrence more
    return builders ++ rest

theorem length_linePayloads (occurrence : Nat) (items : List LineItem) :
    (linePayloads occurrence items).length = items.length := by
  induction items generalizing occurrence with
  | nil => rfl
  | cons line more ih => rw [linePayloads, List.length_cons, List.length_cons, ih]

theorem length_unitPayloads (sku : String) (qty : Nat) : (unitPayloads sku qty).length = qty := by
  rw [unitPayloads, List.length_map, List.length_range]

end Split

namespace Parent

def childCount (p : Parent) : Nat := Split.childCount p.message.payload

theorem exists_order (p : Parent) {items : List LineItem} (ordered : p.message.payload = .order items)
    (occurrence : Nat) :
    ∃ builders, (Split.order p.message occurrence).outcome = .ok builders ∧
      List.Forall₂ (p.Expects items.length) (Split.linePayloads occurrence items) builders := by
  obtain ⟨builders, outcome, expects⟩ := p.exists_children (Split.linePayloads occurrence items)
  rw [Split.length_linePayloads] at expects
  refine ⟨builders, ?_, expects⟩
  rw [Split.order, ordered]
  exact outcome

theorem exists_item (p : Parent) {line : LineItem} (lined : p.message.payload = .item line) :
    ∃ builders, (Split.item p.message).outcome = .ok builders ∧
      List.Forall₂ (p.Expects line.qty.toNat) (Split.unitPayloads line.sku line.qty.toNat) builders := by
  obtain ⟨builders, outcome, expects⟩ := p.exists_children (Split.unitPayloads line.sku line.qty.toNat)
  rw [Split.length_unitPayloads] at expects
  refine ⟨builders, ?_, expects⟩
  rw [Split.item, lined]
  exact outcome

theorem exists_both (p : Parent) (occurrence : Nat) :
    ∃ works builders, works.length = p.childCount ∧ (Split.both p.message occurrence).outcome = .ok builders ∧
      List.Forall₂ (p.Expects p.childCount) works builders := by
  rw [childCount]
  cases payload : p.message.payload with
  | order items =>
    obtain ⟨builders, outcome, expects⟩ := p.exists_order payload occurrence
    have none : (Split.item p.message).outcome = .ok [] := by rw [Split.item, payload]; rfl
    refine ⟨_, builders, Split.length_linePayloads occurrence items, ?_, expects⟩
    rw [Split.both, Journal.outcome_bind_of_ok outcome, Journal.outcome_bind_of_ok none, List.append_nil]
    rfl
  | item line =>
    obtain ⟨builders, outcome, expects⟩ := p.exists_item payload
    have none : (Split.order p.message occurrence).outcome = .ok [] := by rw [Split.order, payload]; rfl
    refine ⟨_, builders, Split.length_unitPayloads line.sku line.qty.toNat, ?_, expects⟩
    rw [Split.both, Journal.outcome_bind_of_ok none, Journal.outcome_bind_of_ok outcome]
    rfl
  | unit | failed | aggregated =>
    refine ⟨[], [], rfl, ?_, .nil⟩
    rw [Split.both, Split.order, Split.item, payload]
    rfl

theorem exists_all {parents : List Parent} (distinct : (parents.map Parent.id).Nodup) (occurrence : Envelope → Nat) :
    ∃ builders, (Split.all occurrence (parents.map Parent.message)).outcome = .ok builders ∧
      ∀ built, List.Forall₂ Builder.Builds builders built → Family parents Parent.childCount built := by
  induction parents with
  | nil =>
    refine ⟨[], rfl, fun built none => ?_⟩
    cases none
    exact .nil _
  | cons p more ih =>
    obtain ⟨fresh, others⟩ := List.nodup_cons.1 distinct
    obtain ⟨works, builders, counted, first, expects⟩ := p.exists_both (occurrence p.message)
    obtain ⟨rest, outcome, family⟩ := ih others
    refine ⟨builders ++ rest, ?_, fun built made => ?_⟩
    · rw [List.map_cons, Split.all, Journal.outcome_bind_of_ok first, Journal.outcome_bind_of_ok outcome]
      rfl
    · let n := builders.length
      have mine : List.Forall₂ Builder.Builds builders (built.take n) :=
        (List.forall₂_take_append built builders rest made.flip).flip
      have theirs : List.Forall₂ Builder.Builds rest (built.drop n) :=
        (List.forall₂_drop_append built builders rest made.flip).flip
      have issues := issues expects mine
      have whole :=
        (family _ theirs).cons fresh (children_of_issues issues) (issues.length_eq.symm.trans counted)
      rwa [List.take_append_drop] at whole

/-- The messages merged from the shuffled children stand for the parents, in ascending order of their identities. -/
theorem exists_aggregate_of_split {parents : List Parent} (distinct : (parents.map Parent.id).Nodup)
    (peopled : ∀ p ∈ parents, 0 < p.childCount) (occurrence : Envelope → Nat) :
    ∃ builders, (Split.all occurrence (parents.map Parent.message)).outcome = .ok builders ∧
      ∀ built, List.Forall₂ Builder.Builds builders built → ∀ children, children.Perm built → ∀ stamps,
        ∃ ordered released last, ordered.Perm parents ∧ (ordered.map Parent.id).Pairwise (· < ·) ∧
          (aggregate children stamps).outcome = .ok (released, last) ∧
          List.Forall₂ (fun p merged => p.Merged p.childCount merged.message) ordered released := by
  obtain ⟨builders, outcome, family⟩ := exists_all distinct occurrence
  refine ⟨builders, outcome, fun built made children shuffled stamps => ?_⟩
  exact ((family built made).of_perm shuffled).exists_aggregate distinct peopled stamps

theorem exists_aggregate_of_split_two_parents :
    let outer : Parent :=
      { message := ⟨.order [⟨"apple", 2⟩, ⟨"plum", 0⟩], NameMap.ofList [("id", .id (.ofNumber 7)),
          ("correlationId", .str "a"), ("sequenceNumber", .int 1), ("sequenceSize", .int 1)], .generic⟩
        id := .ofNumber 7, frame := ⟨.str "a", .int 1, .int 1⟩, stack := []
        identified := rfl, correlation := rfl, number := rfl, size := rfl, details := rfl
        correlationLive := rfl, numberLive := rfl, sizeLive := rfl }
    let nested : Parent :=
      { message := ⟨.item ⟨"pear", 3⟩, NameMap.ofList [("id", .id (.ofNumber 3)),
          ("correlationId", .id (.ofNumber 2)), ("sequenceNumber", .int 4), ("sequenceSize", .int 5),
          ("sequenceDetails", .list [.list [.str "b", .int 1, .int 1]])], .generic⟩
        id := .ofNumber 3, frame := ⟨.id (.ofNumber 2), .int 4, .int 5⟩
        stack := [.list [.str "b", .int 1, .int 1]]
        identified := rfl, correlation := rfl, number := rfl, size := rfl, details := rfl
        correlationLive := rfl, numberLive := rfl, sizeLive := rfl }
    ∃ builders, (Split.all (fun _ => 0) [outer.message, nested.message]).outcome = .ok builders ∧
      ∃ released last, (aggregate ((Builder.buildAll builders (.counting 0 10)).1.map Built.message).reverse
        (.counting 0 20)).outcome = .ok (released, last) ∧ released.length = 2 := by
  intro outer nested
  have distinct : ([outer, nested].map Parent.id).Nodup := by decide
  have peopled : ∀ p ∈ [outer, nested], 0 < p.childCount := by
    intro p known
    simp only [List.mem_cons, List.not_mem_nil, or_false] at known
    rcases known with rfl | rfl <;> decide
  obtain ⟨builders, outcome, back⟩ := exists_aggregate_of_split distinct peopled fun _ => 0
  obtain ⟨ordered, released, last, perm, -, merged, pairs⟩ :=
    back _ (Builder.builds_buildAll builders (.counting 0 10)) _ (List.reverse_perm _) (.counting 0 20)
  exact ⟨builders, outcome, released, last, merged, pairs.length_eq.symm.trans perm.length_eq⟩

end Parent
end Waybill
