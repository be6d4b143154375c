import Waybill.Proofs.Store.View

/-! Where the value of a header comes from. After an edit a header holds a value that it held before or one that the
edit offers to it, and no edit offers a null: a write of null is a removal. So a header that is not null stays so, and
a header that nobody offers a value to holds its old value or none. -/
namespace Waybill

namespace Edit

def entries : Edit → List (String × HeaderValue)
  | .set name v => [(name, v)]
  | .setIfAbsent name v => [(name, v)]
  | .copy entries _ => entries
  | _ => []

def offers (name : String) (e : Edit) : List HeaderValue :=
  e.entries.filterMap fun entry => if entry.1 = name ∧ entry.2.isNull = false then some entry.2 else none

theorem mem_offers {name : String} {e : Edit} {v : HeaderValue} :
    v ∈ e.offers name ↔ (name, v) ∈ e.entries ∧ v.isNull = false := by
  simp only [offers, List.mem_filterMap, Option.ite_none_right_eq_some, Option.some.injEq]
  constructor
  · rintro ⟨⟨_, _⟩, member, ⟨rfl, live⟩, rfl⟩
    exact ⟨member, live⟩
  · rintro ⟨member, live⟩
    exact ⟨(name, v), member, ⟨rfl, live⟩, rfl⟩

end Edit

namespace Store

theorem written_eq_some {old : Option HeaderValue} {v w : HeaderValue} (stored : written old v = some w) :
    old = some w ∨ w = v ∧ v.isNull = false := by
  by_cases null : v.isNull = true
  · simp [written, null] at stored
  · have live : v.isNull = false := by simpa using null
    cases old with
    | none =>
      simp only [written, live, Bool.false_eq_true, if_false, Option.some.injEq] at stored
      exact .inr ⟨stored.symm, live⟩
    | some u =>
      simp only [written, live, Bool.false_eq_true, if_false] at stored
      split at stored
      · exact .inl stored
      · exact .inr ⟨(Option.some.inj stored).symm, live⟩

theorem get?_set_eq_some {s : Store} {key name : String} {v w : HeaderValue}
    (found : (s.set key v).get? name = some w) :
    s.get? name = some w ∨ (key = name ∧ w = v ∧ v.isNull = false) := by
  cases free : HeaderName.isReserved key with
  | true => exact .inl (by simpa [set, free] using found)
  | false =>
    rw [get?_set s free] at found
    split at found
    next here =>
      subst here
      exact (written_eq_some found).imp_right fun offered => ⟨rfl, offered⟩
    next => exact .inl found

theorem get?_setIfAbsent_eq_some {s : Store} {key name : String} {v w : HeaderValue}
    (found : (s.setIfAbsent key v).get? name = some w) :
    s.get? name = some w ∨ (key = name ∧ w = v ∧ v.isNull = false) := by
  simp only [setIfAbsent] at found
  split at found
  · exact .inl found
  next unblocked =>
    rw [get?_insert] at found
    split at found
    next here =>
      simp only [Bool.or_eq_true, not_or, Bool.not_eq_true] at unblocked
      exact .inr ⟨here, (Option.some.inj found).symm, unblocked.1.2⟩
    next => exact .inl found

theorem get?_copyEntry_eq_some {s : Store} {overwrite : Bool} {entry : String × HeaderValue} {name : String}
    {w : HeaderValue} (found : (s.copyEntry overwrite entry).get? name = some w) :
    s.get? name = some w ∨ (entry = (name, w) ∧ w.isNull = false) := by
  have offered : s.get? name = some w ∨ (entry.1 = name ∧ w = entry.2 ∧ entry.2.isNull = false) := by
    cases overwrite
    · exact get?_setIfAbsent_eq_some found
    · exact get?_set_eq_some found
  refine offered.imp_right fun ⟨here, same, live⟩ => ⟨Prod.ext here same.symm, same ▸ live⟩

theorem get?_copy_eq_some {s : Store} {entries : List (String × HeaderValue)} {overwrite : Bool} {name : String}
    {w : HeaderValue} (found : (s.copy entries overwrite).get? name = some w) :
    s.get? name = some w ∨ ((name, w) ∈ entries ∧ w.isNull = false) := by
  induction entries generalizing s with
  | nil => exact .inl found
  | cons entry more ih =>
    rcases ih found with first | ⟨member, live⟩
    · refine (get?_copyEntry_eq_some first).imp_right fun ⟨same, live⟩ => ?_
      exact ⟨same ▸ List.mem_cons_self, live⟩
    · exact .inr ⟨List.mem_cons_of_mem _ member, live⟩

theorem get?_edit_eq_some {s : Store} {e : Edit} {name : String} {w : HeaderValue}
    (found : (s.edit e).get? name = some w) : s.get? name = some w ∨ w ∈ e.offers name := by
  rw [Edit.mem_offers]
  cases e with
  | set key v =>
    refine (get?_set_eq_some found).imp_right fun ⟨here, same, live⟩ => ?_
    exact ⟨by simp [Edit.entries, here, same], same ▸ live⟩
  | setIfAbsent key v =>
    refine (get?_setIfAbsent_eq_some found).imp_right fun ⟨here, same, live⟩ => ?_
    exact ⟨by simp [Edit.entries, here, same], same ▸ live⟩
  | remove key =>
    rw [edit, get?_remove] at found
    split at found
    · cases found
    · exact .inl found
  | removeMatching patterns =>
    rw [edit, get?_removeMatching] at found
    split at found
    · cases found
    · exact .inl found
  | copy entries overwrite => exact get?_copy_eq_some found

end Store
end Waybill
