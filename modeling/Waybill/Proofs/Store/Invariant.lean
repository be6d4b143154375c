import Mathlib.Data.List.Perm.Basic
import Waybill.Proofs.Store.Separation

/-! What holds of a staging area after every run. No reserved name is staged, the modified flag tells whether some
write has changed what is staged, and the finished headers are what is staged and the two headers of the stamp, so
there are two more of them. -/
namespace Waybill

namespace Ascending

variable {α : Type}

theorem put_perm {name : String} {value : α} {entries : List (String × α)} (absent : find? name entries = none) :
    (put name value entries).Perm ((name, value) :: entries) := by
  induction entries with
  | nil => exact .refl _
  | cons head rest ih =>
    obtain ⟨key, old⟩ := head
    simp only [find?] at absent
    split at absent
    · cases absent
    next differ =>
      simp only [put, if_neg (Ne.symm differ)]
      split
      · exact .refl _
      · exact ((ih absent).cons (key, old)).trans (.swap (name, value) (key, old) rest)

end Ascending

theorem NameMap.entries_insert_perm {α : Type} {m : NameMap α} {name : String} (absent : m.get? name = none)
    (value : α) : (m.insert name value).entries.Perm ((name, value) :: m.entries) :=
  Ascending.put_perm absent

namespace Store

def Unreserved (s : Store) : Prop := ∀ name, HeaderName.isReserved name = true → s.get? name = none

theorem unreserved_ofHeaders (seed : Headers) : (ofHeaders seed).Unreserved := by
  intro name reserved
  rw [get?_ofHeaders, if_pos reserved]

theorem Unreserved.edit_of_isSingle {s : Store} (clean : s.Unreserved) {w : Edit} (single : w.isSingle = true) :
    (s.edit w).Unreserved := by
  intro name reserved
  have absent := clean name reserved
  cases touched : w.touches name with
  | false => exact (s.get?_edit_of_not_touches touched).trans absent
  | true =>
    rw [get?_edit_of_touches s single touched, absent]
    cases w <;> simp [Edit.leaves, reserved]

theorem Unreserved.run_of_isSingle {s : Store} (clean : s.Unreserved) {writes : List Edit}
    (single : ∀ w ∈ writes, w.isSingle = true) : (s.run writes).Unreserved := by
  induction writes generalizing s with
  | nil => exact clean
  | cons w more ih =>
    obtain ⟨first, rest⟩ := List.forall_mem_cons.1 single
    exact ih (clean.edit_of_isSingle first) rest

theorem Unreserved.run {s : Store} (clean : s.Unreserved) (edits : List Edit) : (s.run edits).Unreserved := by
  rw [← run_flatMap_writes]
  exact clean.run_of_isSingle fun w member => Edit.isSingle_of_mem_flatMap_writes member

theorem not_still_iff {s : Store} {edits : List Edit} :
    ¬ s.Still edits ↔ ∃ before w after, edits = before ++ w :: after ∧
      ((s.run before).edit w).staged ≠ (s.run before).staged := by
  induction edits generalizing s with
  | nil => simp [Still]
  | cons e more ih =>
    rw [Still, not_and_or, ih]
    constructor
    · rintro (here | ⟨before, w, after, rfl, later⟩)
      · exact ⟨[], e, more, rfl, here⟩
      · exact ⟨e :: before, w, after, rfl, later⟩
    · rintro ⟨before, w, after, split, changed⟩
      cases before with
      | nil =>
        obtain ⟨rfl, -⟩ := List.cons.inj split
        exact .inl changed
      | cons first between =>
        obtain ⟨rfl, rest⟩ := List.cons.inj split
        exact .inr ⟨between, w, after, rest, changed⟩

theorem modified_run {s : Store} (raised : s.modified = true) (edits : List Edit) :
    (s.run edits).modified = true := by
  cases after : (s.run edits).modified with
  | true => rfl
  | false => exact absurd ((staged_run_of_unmodified after).1.symm.trans raised) (by decide)

theorem materialize_perm {s : Store} (clean : s.Unreserved) (stamps : Stamps) :
    (s.materialize stamps).1.entries.Perm
      ((HeaderName.timestamp, .int stamps.next.timestamp) :: (HeaderName.id, .id stamps.next.id) ::
        s.staged.entries) := by
  have noId : s.staged.get? HeaderName.id = none := clean HeaderName.id (by decide)
  have noTime : (s.staged.insert HeaderName.id (.id stamps.next.id)).get? HeaderName.timestamp = none := by
    rw [NameMap.get?_insert, if_neg (by decide)]
    exact clean HeaderName.timestamp (by decide)
  exact (NameMap.entries_insert_perm noTime _).trans ((NameMap.entries_insert_perm noId _).cons _)

/-- What every run from a seed, or from none, keeps. -/
theorem run_invariant (seed : Option Headers) (edits : List Edit) :
    let start := seed.elim empty ofHeaders
    let s := start.run edits
    (∀ name, HeaderName.isReserved name = true → s.get? name = none) ∧
    (s.modified = true ↔ ∃ before w after, edits.flatMap Edit.writes = before ++ w :: after ∧
      ((start.run before).edit w).staged ≠ (start.run before).staged) ∧
    (s.modified = true → ∀ more, (start.run (edits ++ more)).modified = true) ∧
    (s.modified = false → s.staged = (seed.getD ∅).filter fun name _ => !HeaderName.isReserved name) ∧
    ∀ stamps, (s.materialize stamps).1.size = s.staged.size + 2 ∧
      (s.materialize stamps).1.entries.Perm
        ((HeaderName.timestamp, .int stamps.next.timestamp) :: (HeaderName.id, .id stamps.next.id) ::
          s.staged.entries) := by
  intro start s
  have seeded : start = ofHeaders (seed.getD ∅) := by cases seed <;> rfl
  have clean : s.Unreserved := (seeded ▸ unreserved_ofHeaders _ : start.Unreserved).run edits
  refine ⟨clean, ?_, fun raised more => ?_, fun down => ?_, fun stamps => ?_⟩
  · have down : start.modified = false := by rw [seeded]; rfl
    rw [← not_still_iff, ← Bool.not_eq_false, modified_run_iff, and_iff_right down]
  · rw [run_append]
    exact modified_run raised more
  · exact (staged_run_of_unmodified down).2.trans (congrArg Store.staged seeded)
  · have all := materialize_perm clean stamps
    exact ⟨all.length_eq, all⟩

theorem run_invariant_taken_back :
    let seed : Headers := NameMap.ofList [("id", .int 3), ("note", .str "x")]
    let edits : List Edit := [.set "id" (.int 7), .copy [("id", .int 8), ("note", .str "y")] true]
    let s := (ofHeaders seed).run edits
    s.get? "id" = none ∧ s.modified = true ∧ ((ofHeaders seed).run (edits ++ [.set "note" (.str "x")])).modified = true ∧
      (s.materialize (.counting 0 1)).1.size = 3 := by
  intro seed edits s
  obtain ⟨reserved, -, stays, -, finished⟩ := run_invariant (some seed) edits
  exact ⟨reserved "id" rfl, rfl, stays rfl _, (finished (.counting 0 1)).1⟩

end Store
end Waybill
