import Waybill.Proofs.Store.View

/-! The modified flag against what is staged. A copy writes entry by entry, every other edit writes once. A single
write either leaves the area exactly as it is or changes what is staged and raises the flag, and nothing lowers the
flag; so over a run the flag stays down if and only if no write changed anything. -/
namespace Waybill

namespace Edit

def writes : Edit → List Edit
  | .copy entries overwrite =>
    entries.map fun entry =>
      if overwrite then .set entry.1 entry.2 else .setIfAbsent entry.1 entry.2
  | e => [e]

def isSingle : Edit → Bool
  | .copy .. => false
  | _ => true

theorem isSingle_of_mem_writes {e w : Edit} (member : w ∈ e.writes) : w.isSingle = true := by
  cases e with
  | copy entries overwrite =>
    simp only [writes, List.mem_map] at member
    obtain ⟨entry, -, rfl⟩ := member
    cases overwrite <;> rfl
  | _ =>
    simp only [writes, List.mem_singleton] at member
    subst member
    rfl

end Edit

namespace Store

def Still : Store → List Edit → Prop
  | _, [] => True
  | s, e :: more => (s.edit e).staged = s.staged ∧ (s.edit e).Still more

theorem run_append (s : Store) (edits more : List Edit) : s.run (edits ++ more) = (s.run edits).run more :=
  List.foldl_append

theorem run_writes (s : Store) (e : Edit) : s.run e.writes = s.edit e := by
  cases e with
  | copy entries overwrite =>
    simp only [run, Edit.writes, List.foldl_map, edit, copy]
    congr 1
    funext t entry
    cases overwrite <;> rfl
  | _ => rfl

theorem run_flatMap_writes (s : Store) (edits : List Edit) : s.run (edits.flatMap Edit.writes) = s.run edits := by
  induction edits generalizing s with
  | nil => rfl
  | cons e more ih => rw [List.flatMap_cons, run_append, run_writes, ih]; rfl

theorem insert_staged_ne {s : Store} {name : String} {v : HeaderValue} (differ : s.get? name ≠ some v) :
    (s.insert name v).staged ≠ s.staged := by
  intro same
  have stored : (s.insert name v).get? name = some v := by rw [get?_insert, if_pos rfl]
  rw [get?, same] at stored
  exact differ stored

theorem remove_staged_ne {s : Store} {name : String} (there : s.staged.contains name = true) :
    (s.remove name).staged ≠ s.staged := by
  intro same
  have gone : (s.remove name).get? name = none := by rw [get?_remove, if_pos rfl]
  rw [get?, same] at gone
  simp [NameMap.contains_eq, gone] at there

def Settled (before after : Store) : Prop :=
  after = before ∨ (after.modified = true ∧ after.staged ≠ before.staged)

theorem settled_insert {s : Store} {name : String} {v : HeaderValue} (differ : s.get? name ≠ some v) :
    s.Settled (s.insert name v) :=
  .inr ⟨rfl, insert_staged_ne differ⟩

theorem settled_remove (s : Store) (name : String) : s.Settled (s.remove name) := by
  by_cases there : s.staged.contains name = true
  · exact .inr ⟨by simp [remove, there], remove_staged_ne there⟩
  · exact .inl (by simp [remove, there])

theorem settled_set (s : Store) (name : String) (v : HeaderValue) : s.Settled (s.set name v) := by
  simp only [set]
  split
  · exact .inl rfl
  · split
    · exact s.settled_remove name
    · split
      · exact .inl rfl
      next unequal =>
        refine settled_insert fun same => unequal ?_
        simp [same]

theorem settled_setIfAbsent (s : Store) (name : String) (v : HeaderValue) :
    s.Settled (s.setIfAbsent name v) := by
  simp only [setIfAbsent]
  split
  · exact .inl rfl
  next blocked =>
    refine settled_insert fun same => blocked ?_
    have there : s.staged.contains name = true := by
      rw [NameMap.contains_eq, show s.staged.get? name = some v from same]
      rfl
    simp [there]

theorem settled_removeMatching (s : Store) (patterns : List String) :
    s.Settled (s.removeMatching patterns) := by
  by_cases same : (s.staged.filter fun name _ => !matchesAny patterns name).size = s.staged.size
  · left
    have all : (s.staged.filter fun name _ => !matchesAny patterns name).entries = s.staged.entries :=
      List.filter_sublist.eq_of_length same
    have kept : (s.staged.filter fun name _ => !matchesAny patterns name) = s.staged :=
      NameMap.ext_get? fun name => by rw [NameMap.get?, all]; rfl
    simp only [removeMatching, kept, bne_self_eq_false, Bool.or_false]
  · right
    refine ⟨by simp [removeMatching, same], fun kept => same ?_⟩
    exact congrArg NameMap.size kept

theorem settled_edit (s : Store) {e : Edit} (single : e.isSingle = true) : s.Settled (s.edit e) := by
  cases e with
  | set name v => exact s.settled_set name v
  | setIfAbsent name v => exact s.settled_setIfAbsent name v
  | remove name => exact s.settled_remove name
  | removeMatching patterns => exact s.settled_removeMatching patterns
  | copy entries overwrite => cases single

theorem Settled.modified_iff {before after : Store} (settled : before.Settled after) :
    after.modified = false ↔ before.modified = false ∧ after.staged = before.staged := by
  rcases settled with same | ⟨raised, changed⟩
  · subst same
    simp
  · simp [raised, changed]

theorem modified_run_iff_of_single (s : Store) {edits : List Edit}
    (single : ∀ e ∈ edits, e.isSingle = true) :
    (s.run edits).modified = false ↔ s.modified = false ∧ s.Still edits := by
  induction edits generalizing s with
  | nil => simp [run, Still]
  | cons e more ih =>
    have first := (s.settled_edit (single e List.mem_cons_self)).modified_iff
    have rest := ih (s.edit e) fun other member => single other (List.mem_cons_of_mem _ member)
    change ((s.edit e).run more).modified = false ↔ _
    rw [rest, first, Still, and_assoc]

theorem modified_run_iff (s : Store) (edits : List Edit) :
    (s.run edits).modified = false ↔ s.modified = false ∧ s.Still (edits.flatMap Edit.writes) := by
  rw [← run_flatMap_writes, modified_run_iff_of_single]
  intro w member
  obtain ⟨e, -, inWrites⟩ := List.mem_flatMap.1 member
  exact Edit.isSingle_of_mem_writes inWrites

theorem Still.staged_run {s : Store} {edits : List Edit} (still : s.Still edits) :
    (s.run edits).staged = s.staged := by
  induction edits generalizing s with
  | nil => rfl
  | cons e more ih => exact (ih still.2).trans still.1

theorem staged_run_of_unmodified {s : Store} {edits : List Edit}
    (down : (s.run edits).modified = false) : s.modified = false ∧ (s.run edits).staged = s.staged := by
  have ⟨before, still⟩ := (s.modified_run_iff edits).1 down
  refine ⟨before, ?_⟩
  rw [← run_flatMap_writes]
  exact still.staged_run

end Store
end Waybill
