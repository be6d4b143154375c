import Waybill.Proofs.Order.Opening
import Waybill.Proofs.Order.Reunion

/-! The way of an order, for every order. Its lines are children of its message. Those that have not failed are
parents of their units, and what their units are merged into are children of the order's message again, so that these
and the lines that failed are all of its children: the last merge releases one message, with the order's own headers.
All of this holds as soon as the messages of the lines have identities of their own; the other identities of a run
are never compared. -/
namespace Waybill

namespace Pipeline

structure Itemized (line : LineItem) (m : Envelope) : Prop where
  outOfStock : line.qty = 0 → (∃ f, m.payload = .failed f ∧ f.cause = Work.outOfStock line.sku) ∧
    m.kind = .error ∧ m.headers.errorChannel = some (.str Split.errorsChannel)
  stocked : line.qty ≠ 0 → m.payload = .item line ∧ m.kind = .generic ∧ m.headers.errorChannel = none

def IssuedFor (p : Parent) (count : Nat) (line : LineItem) (m : Envelope) : Prop :=
  ∃ occurrence, p.Issue count (Split.linePayload line occurrence) m

theorem itemized {o : Order} {stamps : Stamps} {count : Nat} {line : LineItem} {m : Envelope}
    (issued : IssuedFor (parent o stamps) count line m) : Itemized line m := by
  obtain ⟨occurrence, issue⟩ := issued
  refine ⟨fun empty => ?_, fun some => ?_⟩
  · have failed : Split.linePayload line occurrence = .failed ⟨occurrence, Work.outOfStock line.sku⟩ :=
      if_pos empty
    rw [failed] at issue
    exact ⟨⟨_, issue.payload, rfl⟩, issue.kind, issue.errorChannel.trans (if_pos rfl)⟩
  · have item : Split.linePayload line occurrence = .item line := if_neg some
    rw [item] at issue
    have inherited : m.headers.errorChannel = (opened o stamps).headers.get? HeaderName.errorChannel :=
      issue.errorChannel.trans (if_neg Bool.false_ne_true)
    rw [header_opened o stamps (by decide), get?_openHeaders] at inherited
    exact ⟨issue.payload, issue.kind, inherited⟩

theorem issued_lines {p : Parent} {count : Nat} {lines : List LineItem} {occurrence : Nat} {items : List Envelope}
    (issues : List.Forall₂ (p.Issue count) (Split.linePayloads occurrence lines) items) :
    List.Forall₂ (IssuedFor p count) lines items := by
  induction lines generalizing occurrence items with
  | nil =>
    cases issues
    exact .nil
  | cons line more ih =>
    cases issues with
    | cons first rest => exact .cons ⟨occurrence, first⟩ (ih rest)

def Carries (line : LineItem) (p : Parent) : Prop :=
  ∃ occurrence, p.message.payload = Split.linePayload line occurrence

def hasFailed (m : Envelope) : Bool := Payload.isFailure m.payload

def stocked (p : Parent) : Bool := !hasFailed p.message

section Carrying

variable {line : LineItem} {p : Parent}

theorem payload_of_carries (carries : Carries line p) (some : line.qty ≠ 0) : p.message.payload = .item line := by
  obtain ⟨occurrence, payload⟩ := carries
  exact payload.trans (if_neg some)

theorem childCount_of_carries (carries : Carries line p) : p.childCount = line.qty.toNat := by
  obtain ⟨occurrence, payload⟩ := carries
  rw [Parent.childCount, payload, Split.linePayload]
  by_cases empty : line.qty = 0
  · rw [if_pos empty, empty]
    rfl
  · rw [if_neg empty]
    rfl

theorem filter_stocked (carries : Carries line p) (more : List Parent) :
    (p :: more).filter stocked = if line.qty = 0 then more.filter stocked else p :: more.filter stocked := by
  obtain ⟨occurrence, payload⟩ := carries
  rw [List.filter_cons, stocked, hasFailed, payload, Split.linePayload]
  by_cases empty : line.qty = 0 <;> simp [empty, Payload.isFailure]

end Carrying

theorem exists_splitItems {lines : List LineItem} {parents : List Parent}
    (carry : List.Forall₂ Carries lines parents) (distinct : (parents.map Parent.id).Nodup) (stamps : Stamps) :
    ∃ units last, (splitItems (parents.map Parent.message) stamps).outcome =
        .ok ((parents.map Parent.message).filter hasFailed, units, last) ∧
      Family (parents.filter stocked) Parent.childCount units ∧
      units.map Message.payload = lines.flatMap fun line => Split.unitPayloads line.sku line.qty.toNat := by
  induction carry generalizing stamps with
  | nil => exact ⟨[], stamps, rfl, .nil _, rfl⟩
  | @cons line p lines more carries _ ih =>
    obtain ⟨fresh, others⟩ := List.nodup_cons.1 distinct
    by_cases empty : line.qty = 0
    · obtain ⟨units, last, outcome, family, payloads⟩ := ih others stamps
      obtain ⟨occurrence, payload⟩ := id carries
      rw [Split.linePayload, if_pos empty] at payload
      refine ⟨units, last, ?_, ?_, ?_⟩
      · have failed : hasFailed p.message = true := by rw [hasFailed, payload]; rfl
        rw [List.map_cons, List.filter_cons_of_pos failed]
        simp only [splitItems, payload]
        rw [Journal.outcome_note_bind, Journal.outcome_bind_of_ok outcome]
        rfl
      · rw [filter_stocked carries, if_pos empty]
        exact family
      · rw [List.flatMap_cons, payloads, empty]
        rfl
    · have payload := payload_of_carries carries empty
      obtain ⟨builders, split, expects⟩ := p.exists_item payload
      let built := Builder.buildAll builders stamps
      obtain ⟨units, last, outcome, family, payloads⟩ := ih others built.2
      have issues := Parent.issues expects (Builder.builds_buildAll builders stamps)
      have counted := childCount_of_carries carries
      refine ⟨built.1.map Built.message ++ units, last, ?_, ?_, ?_⟩
      · have sound : ¬ hasFailed p.message = true := by rw [hasFailed, payload]; exact Bool.false_ne_true
        rw [List.map_cons, List.filter_cons_of_neg sound]
        simp only [splitItems, payload]
        rw [Journal.outcome_bind_of_ok split, Journal.outcome_bind_of_ok (Builder.outcome_finish builders stamps),
          Journal.outcome_bind_of_ok outcome]
        rfl
      · rw [filter_stocked carries, if_neg empty]
        have apart : p.id ∉ (more.filter stocked).map Parent.id := fun known =>
          fresh ((List.filter_sublist.map Parent.id).subset known)
        refine family.cons apart (counted ▸ Parent.children_of_issues issues) ?_
        rw [counted, ← issues.length_eq, Split.length_unitPayloads]
      · rw [List.map_append, List.flatMap_cons, Parent.payloads_of_issues issues, payloads]

theorem map_childCount_stocked {lines : List LineItem} {parents : List Parent}
    (carry : List.Forall₂ Carries lines parents) :
    (parents.filter stocked).map Parent.childCount =
      (lines.filter fun line => line.qty ≠ 0).map fun line => line.qty.toNat := by
  induction carry with
  | nil => rfl
  | @cons line p lines more carries _ ih =>
    rw [filter_stocked carries, List.filter_cons]
    by_cases empty : line.qty = 0
    · rw [if_pos empty, if_neg (by simpa using empty)]
      exact ih
    · rw [if_neg empty, if_pos (by simpa using empty), List.map_cons, List.map_cons, ih, childCount_of_carries carries]

theorem childCount_pos_of_stocked {lines : List LineItem} {parents : List Parent}
    (carry : List.Forall₂ Carries lines parents) : ∀ p ∈ parents.filter stocked, 0 < p.childCount := by
  intro p known
  have counted : p.childCount ∈ (lines.filter fun line => line.qty ≠ 0).map fun line => line.qty.toNat :=
    map_childCount_stocked carry ▸ List.mem_map_of_mem known
  obtain ⟨line, kept, same⟩ := List.mem_map.1 counted
  have some : line.qty ≠ 0 := by simpa using (List.mem_filter.1 kept).2
  rw [← same]
  exact Nat.pos_of_ne_zero fun zero => some (UInt32.toNat_inj.1 zero)

/-- The lines that failed and the lines that were merged are all children of the order again. -/
theorem family_of_lines {p : Parent} {parents ordered : List Parent} {merged : List Envelope}
    (children : ∀ q ∈ parents, p.Child parents.length q.message) (perm : ordered.Perm (parents.filter stocked))
    (back : List.Forall₂ (fun q m => q.Merged q.childCount m) ordered merged) :
    Family [p] (fun _ => parents.length) ((parents.map Parent.message).filter hasFailed ++ merged) := by
  have known {q : Parent} (member : q ∈ ordered) : q ∈ parents := (List.mem_filter.1 (perm.mem_iff.1 member)).1
  have born : ∀ m ∈ (parents.map Parent.message).filter hasFailed ++ merged, p.Child parents.length m := by
    intro m member
    rcases List.mem_append.1 member with failed | whole
    · obtain ⟨q, given, rfl⟩ := List.mem_map.1 (List.mem_filter.1 failed).1
      exact children q given
    · exact Parent.children_of_merged (fun q member => children q (known member)) back m whole
  have all : ((parents.map Parent.message).filter hasFailed ++ merged).length = parents.length := by
    rw [List.length_append, List.filter_map, List.length_map, ← back.length_eq, perm.length_eq]
    exact (List.length_eq_length_filter_add fun q : Parent => hasFailed q.message).symm
  simpa using (Family.nil fun _ => parents.length).cons (p := p) (by simp) born all

structure Reply (o : Order) (m : Envelope) : Prop where
  payload : m.payload = .aggregated o.items.length
  header : ∀ name, HeaderName.isReserved name = false → m.headers.get? name = (openHeaders o).get? name

theorem reply {o : Order} {stamps : Stamps} {m : Envelope}
    (merged : (parent o stamps).Merged o.items.length m) : Reply o m := by
  refine ⟨merged.payload, fun name free => ?_⟩
  by_cases here : name = HeaderName.errorChannel
  · subst here
    rw [get?_openHeaders]
    exact merged.errorChannel
  · exact (merged.header name free here).trans (header_opened o stamps free)

theorem outcome_announce {o : Order} {done : List Envelope} (replies : ∀ m ∈ done, Reply o m) :
    (announce done).outcome = .ok () := by
  induction done with
  | nil => rfl
  | cons m more ih =>
    have flat : m.headers.sequenceDetails = .ok [] := by
      rw [Headers.sequenceDetails, (replies m List.mem_cons_self).header _ (by decide), get?_openHeaders]
      rfl
    have read : (Journal.ofExcept m.headers.sequenceDetails).outcome = .ok [] := flat
    rw [announce, Journal.outcome_bind_of_ok read, Journal.outcome_note_bind]
    exact ih fun other member => replies other (List.mem_cons_of_mem _ member)

theorem exists_done {o : Order} {stamps : Stamps} {messages : List Envelope}
    (family : Family [parent o stamps] (fun _ => o.items.length) messages) (later : Stamps) :
    ∃ done last, (aggregate messages later).outcome = .ok (done, last) ∧
      (∀ m ∈ done.map Built.message, Reply o m) ∧ done.length = if o.items = [] then 0 else 1 := by
  by_cases empty : o.items = []
  · have none : messages = [] := family.eq_nil fun _ _ => by rw [empty]; rfl
    subst none
    exact ⟨[], later, rfl, by simp, (if_pos empty).symm⟩
  · have peopled : ∀ p ∈ [parent o stamps], 0 < o.items.length := fun _ _ => List.length_pos_of_ne_nil empty
    obtain ⟨ordered, done, last, perm, -, outcome, back⟩ :=
      family.exists_aggregate (List.nodup_singleton _) peopled later
    rw [List.perm_singleton.1 perm] at back
    cases back with
    | cons first rest =>
      cases rest
      refine ⟨_, last, outcome, fun m member => ?_, (if_neg empty).symm⟩
      rw [List.map_singleton, List.mem_singleton] at member
      exact member ▸ reply first

/-- An order's headers can be written, so a run always gets past them. -/
theorem exists_run_eq_process (o : Order) (stamps : Stamps) :
    ∃ headers, (run o stamps).events = (process (opened o stamps) headers stamps.rest).events ∧
      (run o stamps).outcome = (process (opened o stamps) headers stamps.rest).outcome.mapError .sequence := by
  obtain ⟨headers, written⟩ := Option.isSome_iff_exists.1 (isSome_text?_opened o stamps)
  have same : run o stamps = ⟨(process (opened o stamps) headers stamps.rest).events,
      (process (opened o stamps) headers stamps.rest).outcome.mapError .sequence⟩ := by
    simp only [run, build_opening, Built.message, written]
  exact ⟨headers, congrArg Run.events same, congrArg Run.outcome same⟩

theorem outcome_process {order : Envelope} {headers : String} {stamps : Stamps} {builders : List WorkBuilder}
    {units : List Envelope} {merged done : List (Built Work)} {afterUnits afterMerged last : Stamps}
    {items failed : List Envelope} (split : (Split.order order 0).outcome = .ok builders)
    (built : (Builder.buildAll builders stamps).1.map Built.message = items)
    (divided : (splitItems items (Builder.buildAll builders stamps).2).outcome = .ok (failed, units, afterUnits))
    (joined : (aggregate units afterUnits).outcome = .ok (merged, afterMerged))
    (closed : (aggregate (failed ++ merged.map Built.message) afterMerged).outcome = .ok (done, last))
    (announced : (announce (done.map Built.message)).outcome = .ok ()) :
    (process order headers stamps).outcome =
      .ok ⟨order, items, units, merged.map Built.message, done.map Built.message⟩ := by
  subst built
  rw [process, Journal.outcome_note_bind, Journal.outcome_bind_of_ok split,
    Journal.outcome_bind_of_ok (Builder.outcome_finish builders stamps), Journal.outcome_bind_of_ok divided,
    Journal.outcome_note_bind, Journal.outcome_bind_of_ok joined, Journal.outcome_bind_of_ok closed,
    Journal.outcome_bind_of_ok announced]
  rfl

theorem exists_items (o : Order) (stamps : Stamps) :
    ∃ builders, (Split.order (opened o stamps) 0).outcome = .ok builders ∧
      ((Builder.buildAll builders stamps.rest).1.map Built.message).map (·.headers.messageId) =
        (stamps.rest.ids o.items.length).map some ∧
      List.Forall₂ (IssuedFor (parent o stamps) o.items.length) o.items
        ((Builder.buildAll builders stamps.rest).1.map Built.message) := by
  obtain ⟨builders, split, expects⟩ := (parent o stamps).exists_order (payload_opened o stamps) 0
  have counted : builders.length = o.items.length :=
    expects.length_eq.symm.trans (Split.length_linePayloads 0 o.items)
  have changed : ∀ b ∈ builders, b.isModified = true :=
    forall_mem_of_forall₂ expects fun _ _ expected => expected.isModified
  have identified := Builder.messageIds_buildAll changed stamps.rest
  rw [counted] at identified
  have issues := Parent.issues expects (Builder.builds_buildAll builders stamps.rest)
  exact ⟨builders, split, identified, issued_lines issues⟩

theorem exists_line_parents {p : Parent} {count : Nat} {lines : List LineItem} {items : List Envelope}
    {ids : List MessageId} (identified : items.map (·.headers.messageId) = ids.map some)
    (issued : List.Forall₂ (IssuedFor p count) lines items) :
    ∃ parents : List Parent, parents.map Parent.message = items ∧ parents.map Parent.id = ids ∧
      (∀ q ∈ parents, p.Child count q.message) ∧ List.Forall₂ Carries lines parents := by
  have children : ∀ m ∈ items, p.Child count m :=
    forall_mem_of_forall₂ issued fun _ _ ⟨_, issue⟩ => issue.child
  obtain ⟨parents, messages, named⟩ := Parent.exists_parents children identified
  refine ⟨parents, messages, named, fun q known => children _ (messages ▸ List.mem_map_of_mem known), ?_⟩
  rw [← messages, List.forall₂_map_right_iff] at issued
  exact issued.imp fun line q ⟨occurrence, issue⟩ => ⟨occurrence, issue.payload⟩

def goods : List LineItem → Nat
  | [] => 0
  | line :: more => line.qty.toNat + goods more

theorem length_unitPayloads_lines (lines : List LineItem) :
    (lines.flatMap fun line => Split.unitPayloads line.sku line.qty.toNat).length = goods lines := by
  induction lines with
  | nil => rfl
  | cons line more ih => rw [List.flatMap_cons, List.length_append, Split.length_unitPayloads, ih, goods]

/-- What a run makes of an order. -/
structure Accounts (o : Order) (stamps : Stamps) (r : Report) : Prop where
  written : r.order.headers.text?.isSome = true
  identified : r.items.map (·.headers.messageId) = (stamps.rest.ids o.items.length).map some
  items : List.Forall₂ Itemized o.items r.items
  units : r.units.map Message.payload = o.items.flatMap fun line => Split.unitPayloads line.sku line.qty.toNat
  unitCount : r.units.length = goods o.items
  merged : (r.merged.map Message.payload).Perm
    ((o.items.filter fun line => line.qty ≠ 0).map fun line => .aggregated line.qty.toNat)
  doneCount : r.done.length = if o.items = [] then 0 else 1
  done : ∀ m ∈ r.done, Reply o m

/-- Every order is accounted for, as long as the messages of its lines have identities of their own. -/
theorem exists_run (o : Order) (stamps : Stamps) (distinct : (stamps.rest.ids o.items.length).Nodup) :
    ∃ r, (run o stamps).outcome = .ok r ∧ Accounts o stamps r := by
  obtain ⟨builders, split, identified, issued⟩ := exists_items o stamps
  obtain ⟨parents, messages, ids, children, carry⟩ := exists_line_parents identified issued
  have apart : (parents.map Parent.id).Nodup := ids ▸ distinct
  obtain ⟨units, afterUnits, divided, family, payloads⟩ :=
    exists_splitItems carry apart (Builder.buildAll builders stamps.rest).2
  obtain ⟨ordered, merged, afterMerged, perm, -, joined, back⟩ :=
    family.exists_aggregate (apart.sublist (List.filter_sublist.map Parent.id)) (childCount_pos_of_stocked carry)
      afterUnits
  rw [← List.forall₂_map_right_iff] at back
  have again := family_of_lines (carry.length_eq ▸ children) perm back
  rw [messages, ← carry.length_eq] at again
  obtain ⟨done, last, closed, replies, count⟩ := exists_done again afterMerged
  rw [messages] at divided
  obtain ⟨headers, -, outcome⟩ := exists_run_eq_process o stamps
  rw [outcome_process split rfl divided joined closed (outcome_announce replies)] at outcome
  refine ⟨_, outcome, ?_⟩
  refine ⟨isSome_text?_opened o stamps, identified, issued.imp fun _ _ => itemized, payloads, ?_, ?_,
    (List.length_map _).trans count, replies⟩
  · rw [← length_unitPayloads_lines, ← payloads, List.length_map]
  · have counts := (perm.map Parent.childCount).map Work.aggregated
    rw [map_childCount_stocked carry] at counts
    rw [Parent.payloads_of_merged back]
    simp only [List.map_map] at counts ⊢
    exact counts

theorem exists_run_three_lines :
    let o : Order := ⟨"A-1", [⟨"apple", 2⟩, ⟨"pear", 1⟩, ⟨"plum", 0⟩]⟩
    ((Stamps.counting 0 1).rest.ids 3).Nodup ∧
      ∃ r, (run o (.counting 0 1)).outcome = .ok r ∧ r.items.length = 3 ∧ r.units.length = 3 ∧
        r.done.length = 1 ∧ ∀ m ∈ r.done, m.payload = .aggregated 3 := by
  intro o
  have distinct : ((Stamps.counting 0 1).rest.ids 3).Nodup := by decide
  obtain ⟨r, outcome, accounts⟩ := exists_run o (.counting 0 1) distinct
  exact ⟨distinct, r, outcome, accounts.items.length_eq.symm, accounts.unitCount, accounts.doneCount,
    fun m member => (accounts.done m member).payload⟩

end Pipeline
end Waybill
