import Waybill.Proofs.Store.Writes

/-! Headers do not interfere. What a single write leaves in a header depends on what that header held and on nothing
else, so of a run a header only sees its projection: the single writes that touch it. Two runs with one projection
leave the same in the header, however much else they do, and a run raises the modified flag exactly if some projection
raises it on the seed of its own header alone. -/
namespace Waybill

def Headers.only (h : Headers) (name : String) : Headers := h.filter fun key _ => decide (key = name)

theorem Headers.get?_only (h : Headers) (name other : String) :
    (h.only name).get? other = if other = name then h.get? other else none := by
  rw [only, NameMap.get?_filter]
  by_cases same : other = name <;> cases h.get? other <;> simp [Option.filter, same]

namespace Edit

def leaves (name : String) (held : Option HeaderValue) : Edit → Option HeaderValue
  | .set _ v => if HeaderName.isReserved name then held else Store.written held v
  | .setIfAbsent _ v => if HeaderName.isReserved name || v.isNull || held.isSome then held else some v
  | .remove _ => none
  | .removeMatching _ => none
  | .copy .. => held

def projection (name : String) (edits : List Edit) : List Edit := (edits.flatMap writes).filter (touches name)

theorem isSingle_of_mem_flatMap_writes {edits : List Edit} {w : Edit} (member : w ∈ edits.flatMap writes) :
    w.isSingle = true := by
  obtain ⟨e, -, inWrites⟩ := List.mem_flatMap.1 member
  exact isSingle_of_mem_writes inWrites

end Edit

namespace Store

theorem get?_edit_of_touches (s : Store) {w : Edit} (single : w.isSingle = true) {name : String}
    (touched : w.touches name = true) : (s.edit w).get? name = w.leaves name (s.get? name) := by
  cases w with
  | set key v =>
    obtain rfl : key = name := by simpa [Edit.touches] using touched
    cases free : HeaderName.isReserved key with
    | true => simp [edit, set, Edit.leaves, free]
    | false =>
      rw [edit, get?_set s free, if_pos rfl]
      simp [Edit.leaves, free]
  | setIfAbsent key v =>
    obtain rfl : key = name := by simpa [Edit.touches] using touched
    change (if HeaderName.isReserved key || v.isNull || (s.get? key).isSome then s else s.insert key v).get? key = _
    rw [Edit.leaves]
    split
    · rfl
    · rw [get?_insert, if_pos rfl]
  | remove key =>
    obtain rfl : key = name := by simpa [Edit.touches] using touched
    rw [edit, get?_remove, if_pos rfl]
    rfl
  | removeMatching patterns =>
    have fits : matchesAny patterns name = true := touched
    rw [edit, get?_removeMatching, if_pos fits]
    rfl
  | copy entries overwrite => cases single

theorem get?_run_filter_touches {s t : Store} {name : String} {writes : List Edit}
    (single : ∀ w ∈ writes, w.isSingle = true) (same : s.get? name = t.get? name) :
    (s.run writes).get? name = (t.run (writes.filter (Edit.touches name))).get? name := by
  induction writes generalizing s t with
  | nil => exact same
  | cons w more ih =>
    obtain ⟨first, rest⟩ := List.forall_mem_cons.1 single
    cases touched : w.touches name with
    | true =>
      rw [List.filter_cons_of_pos touched]
      refine ih (s := s.edit w) (t := t.edit w) rest ?_
      rw [get?_edit_of_touches s first touched, get?_edit_of_touches t first touched, same]
    | false =>
      rw [List.filter_cons_of_neg (by simp [touched])]
      exact ih (s := s.edit w) rest ((s.get?_edit_of_not_touches touched).trans same)

theorem get?_run_projection {s t : Store} {name : String} (same : s.get? name = t.get? name) (edits : List Edit) :
    (s.run edits).get? name = (t.run (Edit.projection name edits)).get? name := by
  rw [← run_flatMap_writes]
  exact get?_run_filter_touches (fun w member => Edit.isSingle_of_mem_flatMap_writes member) same

def StillAt (name : String) : Store → List Edit → Prop
  | _, [] => True
  | s, e :: more => (s.edit e).get? name = s.get? name ∧ (s.edit e).StillAt name more

theorem still_iff_forall_stillAt {s : Store} {edits : List Edit} : s.Still edits ↔ ∀ name, s.StillAt name edits := by
  induction edits generalizing s with
  | nil => simp [Still, StillAt]
  | cons e more ih =>
    have step : (s.edit e).staged = s.staged ↔ ∀ name, (s.edit e).get? name = s.get? name :=
      ⟨fun same name => by rw [get?, same]; rfl, NameMap.ext_get?⟩
    simp only [Still, StillAt, step, ih, forall_and]

/-- The second area holds the one header as the first holds it, and nothing else. -/
structure Isolates (name : String) (s t : Store) : Prop where
  same : t.get? name = s.get? name
  alone : ∀ other, other ≠ name → t.get? other = none

namespace Isolates

variable {name : String} {s t : Store}

theorem edit_of_touches (isolates : Isolates name s t) {w : Edit} (single : w.isSingle = true)
    (touched : w.touches name = true) : Isolates name (s.edit w) (t.edit w) where
  same := by rw [get?_edit_of_touches t single touched, get?_edit_of_touches s single touched, isolates.same]
  alone other differ := by
    cases apart : w.touches other with
    | false => exact (t.get?_edit_of_not_touches apart).trans (isolates.alone other differ)
    | true =>
      rw [get?_edit_of_touches t single apart]
      cases w with
      | removeMatching patterns => rfl
      | remove key => rfl
      | copy entries overwrite => cases single
      | set key v =>
        simp only [Edit.touches, decide_eq_true_eq] at touched apart
        exact absurd (apart.symm.trans touched) differ
      | setIfAbsent key v =>
        simp only [Edit.touches, decide_eq_true_eq] at touched apart
        exact absurd (apart.symm.trans touched) differ

theorem edit_of_not_touches (isolates : Isolates name s t) {w : Edit} (apart : w.touches name = false) :
    Isolates name (s.edit w) t where
  same := isolates.same.trans (s.get?_edit_of_not_touches apart).symm
  alone := isolates.alone

theorem staged_eq_iff (isolates : Isolates name s t) {s' t' : Store} (next : Isolates name s' t') :
    t'.staged = t.staged ↔ s'.get? name = s.get? name := by
  rw [← isolates.same, ← next.same]
  refine ⟨fun same => by rw [get?, same]; rfl, fun same => NameMap.ext_get? fun other => ?_⟩
  by_cases here : other = name
  · exact here ▸ same
  · exact (next.alone other here).trans (isolates.alone other here).symm

theorem stillAt_iff (isolates : Isolates name s t) {writes : List Edit} (single : ∀ w ∈ writes, w.isSingle = true) :
    s.StillAt name writes ↔ t.Still (writes.filter (Edit.touches name)) := by
  induction writes generalizing s t with
  | nil => exact Iff.rfl
  | cons w more ih =>
    obtain ⟨first, rest⟩ := List.forall_mem_cons.1 single
    cases touched : w.touches name with
    | true =>
      have next := isolates.edit_of_touches first touched
      rw [List.filter_cons_of_pos touched, StillAt, Still, isolates.staged_eq_iff next, ih next rest]
    | false =>
      rw [List.filter_cons_of_neg (by simp [touched]), StillAt, ih (isolates.edit_of_not_touches touched) rest]
      exact and_iff_right (s.get?_edit_of_not_touches touched)

end Isolates

theorem isolates_only (seed : Headers) (name : String) :
    Isolates name (ofHeaders seed) (ofHeaders (seed.only name)) where
  same := by simp only [get?_ofHeaders, Headers.get?_only, if_true]
  alone other differ := by simp only [get?_ofHeaders, Headers.get?_only, if_neg differ, ite_self]

theorem modified_run_iff_exists (seed : Headers) (edits : List Edit) :
    ((ofHeaders seed).run edits).modified = true ↔
      ∃ name, ((ofHeaders (seed.only name)).run (Edit.projection name edits)).modified = true := by
  have single : ∀ w ∈ edits.flatMap Edit.writes, w.isSingle = true := fun w => Edit.isSingle_of_mem_flatMap_writes
  have own (name : String) : ((ofHeaders (seed.only name)).run (Edit.projection name edits)).modified = false ↔
      (ofHeaders seed).StillAt name (edits.flatMap Edit.writes) := by
    rw [(isolates_only seed name).stillAt_iff single, Edit.projection, modified_run_iff_of_single]
    · exact and_iff_right rfl
    · exact fun w member => single w (List.mem_filter.1 member).1
  have all : ((ofHeaders seed).run edits).modified = false ↔
      ∀ name, ((ofHeaders (seed.only name)).run (Edit.projection name edits)).modified = false := by
    rw [modified_run_iff, still_iff_forall_stillAt, forall_congr' own]
    exact and_iff_right rfl
  simpa using not_congr all

/-- A header shows what its own projection makes of its own seed, and the flag is raised if and only if some header
raises it alone. -/
theorem run_separates (seed : Headers) (edits : List Edit) :
    (∀ name (other : Headers) (more : List Edit), seed.get? name = other.get? name →
      Edit.projection name edits = Edit.projection name more →
      ((ofHeaders seed).run edits).get? name = ((ofHeaders other).run more).get? name) ∧
    (((ofHeaders seed).run edits).modified = true ↔
      ∃ name, ((ofHeaders (seed.only name)).run (Edit.projection name edits)).modified = true) := by
  refine ⟨fun name other more agree same => ?_, modified_run_iff_exists seed edits⟩
  have start : (ofHeaders seed).get? name = (ofHeaders other).get? name := by
    rw [get?_ofHeaders, get?_ofHeaders, agree]
  calc ((ofHeaders seed).run edits).get? name
      = ((ofHeaders seed).run (Edit.projection name edits)).get? name := get?_run_projection rfl edits
    _ = ((ofHeaders seed).run (Edit.projection name more)).get? name := by rw [same]
    _ = ((ofHeaders other).run more).get? name := (get?_run_projection start.symm more).symm

theorem run_separates_two_runs :
    let seed : Headers := NameMap.ofList [("a", .int 1), ("b", .int 2)]
    let other : Headers := NameMap.ofList [("a", .int 1)]
    let edits : List Edit := [.set "b" (.int 3), .copy [("a", .int 5), ("c", .int 6)] true, .removeMatching ["b*"]]
    let more : List Edit := [.copy [("a", .int 5)] true]
    seed.get? "a" = other.get? "a" ∧ Edit.projection "a" edits = Edit.projection "a" more ∧
      ((ofHeaders seed).run edits).get? "a" = ((ofHeaders other).run more).get? "a" := by
  intro seed other edits more
  have agree : seed.get? "a" = other.get? "a" := rfl
  have unfit : matchesAny ["b*"] "a" = false := by decide +kernel
  have same : Edit.projection "a" edits = Edit.projection "a" more := by
    simp [edits, more, Edit.projection, Edit.writes, Edit.touches, unfit]
  exact ⟨agree, same, (run_separates seed edits).1 "a" other more agree same⟩

end Store
end Waybill
