import Waybill.Store.Basic

/-! What edits do to the headers that are read afterwards. A single header is changed only by an edit that touches
it: one that names it, or whose patterns fit it. A write of a value equal to the one there keeps the one there. -/
namespace Waybill

def Edit.touches (name : String) : Edit → Bool
  | .set key _ => decide (key = name)
  | .setIfAbsent key _ => decide (key = name)
  | .remove key => decide (key = name)
  | .removeMatching patterns => Store.matchesAny patterns name
  | .copy entries _ => entries.any fun entry => decide (entry.1 = name)

namespace Store

def written (old : Option HeaderValue) (v : HeaderValue) : Option HeaderValue :=
  if v.isNull then none
  else
    match old with
    | some w => if w == v then some w else some v
    | none => some v

theorem written_of_ne {old : Option HeaderValue} {v : HeaderValue} (live : v.isNull = false)
    (differ : ∀ w, old = some w → (w == v) = true → w = v) : written old v = some v := by
  cases old with
  | none => simp [written, live]
  | some w =>
    by_cases same : (w == v) = true
    · simp [written, live, differ w rfl same]
    · simp [written, live, same]

theorem written_of_null (old : Option HeaderValue) {v : HeaderValue} (null : v.isNull = true) :
    written old v = none := by
  simp [written, null]

theorem exists_written_of_live (old : Option HeaderValue) {v : HeaderValue} (live : v.isNull = false) :
    ∃ w, written old v = some w ∧ (w == v) = true := by
  cases old with
  | none => exact ⟨v, by simp [written, live], BEq.rfl⟩
  | some w =>
    by_cases same : (w == v) = true
    · exact ⟨w, by simp [written, live, same], same⟩
    · exact ⟨v, by simp [written, live, same], BEq.rfl⟩

theorem get?_set (s : Store) {name : String} (free : HeaderName.isReserved name = false) (v : HeaderValue)
    (other : String) :
    (s.set name v).get? other = if name = other then written (s.get? name) v else s.get? other := by
  simp only [set, free, Bool.false_eq_true, if_false]
  by_cases null : v.isNull = true
  · simp [null, get?_remove, written]
  · simp only [null, if_false, Bool.false_eq_true]
    cases found : s.get? name with
    | none => simp [get?_insert, written, null]
    | some w =>
      by_cases equal : (w == v) = true
      · by_cases here : name = other
        · subst here
          simp [written, null, equal, found]
        · simp [here, equal]
      · simp [get?_insert, written, null, equal]

theorem get?_set_of_ne (s : Store) {name other : String} (v : HeaderValue) (differ : name ≠ other) :
    (s.set name v).get? other = s.get? other := by
  cases free : HeaderName.isReserved name
  · rw [get?_set s free, if_neg differ]
  · simp [set, free]

theorem get?_setIfAbsent_of_ne (s : Store) {name other : String} (v : HeaderValue)
    (differ : name ≠ other) : (s.setIfAbsent name v).get? other = s.get? other := by
  simp only [setIfAbsent]
  split
  · rfl
  · rw [get?_insert, if_neg differ]

theorem get?_setIfAbsent (s : Store) {name : String} (free : HeaderName.isReserved name = false) (v : HeaderValue) :
    (s.setIfAbsent name v).get? name = (s.get? name).or (if v.isNull then none else some v) := by
  change (if HeaderName.isReserved name || v.isNull || (s.get? name).isSome then s else s.insert name v).get? name = _
  cases null : v.isNull <;> cases found : s.get? name <;> simp [free, found, get?_insert]

theorem get?_removeMatching (s : Store) (patterns : List String) (name : String) :
    (s.removeMatching patterns).get? name = if matchesAny patterns name then none else s.get? name := by
  simp only [get?, removeMatching, NameMap.get?_filter]
  cases s.staged.get? name <;> cases matchesAny patterns name <;> simp [Option.filter]

theorem get?_copyEntry_of_ne (s : Store) (overwrite : Bool) {entry : String × HeaderValue} {name : String}
    (differ : entry.1 ≠ name) : (s.copyEntry overwrite entry).get? name = s.get? name := by
  cases overwrite
  · exact s.get?_setIfAbsent_of_ne entry.2 differ
  · exact s.get?_set_of_ne entry.2 differ

theorem get?_copy_of_unchanged {entries : List (String × HeaderValue)} {overwrite : Bool} {name : String}
    (unchanged : ∀ entry ∈ entries, ∀ s : Store, (s.copyEntry overwrite entry).get? name = s.get? name) (s : Store) :
    (s.copy entries overwrite).get? name = s.get? name := by
  induction entries generalizing s with
  | nil => rfl
  | cons entry more ih =>
    obtain ⟨first, rest⟩ := List.forall_mem_cons.1 unchanged
    exact (ih rest (s.copyEntry overwrite entry)).trans (first s)

theorem get?_copy_of_not_named (s : Store) {entries : List (String × HeaderValue)} (overwrite : Bool)
    {name : String} (unnamed : ∀ entry ∈ entries, entry.1 ≠ name) :
    (s.copy entries overwrite).get? name = s.get? name :=
  get?_copy_of_unchanged (fun entry member s => s.get?_copyEntry_of_ne overwrite (unnamed entry member)) s

theorem get?_copy_of_isReserved (s : Store) (entries : List (String × HeaderValue)) (overwrite : Bool)
    {name : String} (reserved : HeaderName.isReserved name = true) :
    (s.copy entries overwrite).get? name = s.get? name := by
  refine get?_copy_of_unchanged (fun entry _ s => ?_) s
  by_cases here : entry.1 = name
  · cases overwrite <;> simp [copyEntry, set, setIfAbsent, here, reserved]
  · exact s.get?_copyEntry_of_ne overwrite here

theorem get?_edit_of_not_touches (s : Store) {e : Edit} {name : String} (apart : e.touches name = false) :
    (s.edit e).get? name = s.get? name := by
  cases e with
  | set key v => exact s.get?_set_of_ne v (by simpa [Edit.touches] using apart)
  | setIfAbsent key v => exact s.get?_setIfAbsent_of_ne v (by simpa [Edit.touches] using apart)
  | remove key =>
    have differ : key ≠ name := by simpa [Edit.touches] using apart
    rw [edit, get?_remove, if_neg differ]
  | removeMatching patterns =>
    have unfit : matchesAny patterns name = false := apart
    rw [edit, get?_removeMatching, unfit]
    rfl
  | copy entries overwrite =>
    refine s.get?_copy_of_not_named overwrite fun entry member same => ?_
    simp only [Edit.touches, List.any_eq_false, decide_eq_true_eq] at apart
    exact apart entry member same

end Store
end Waybill
