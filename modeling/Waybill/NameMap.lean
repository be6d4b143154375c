/-! Values under names: at most one value per name, held in ascending order of the names. Two maps that
answer every look-up alike are the same map. -/
namespace Waybill

abbrev Ascending {α : Type} (entries : List (String × α)) : Prop :=
  entries.Pairwise fun a b => a.1 < b.1

namespace Ascending

def find? {α : Type} (name : String) : List (String × α) → Option α
  | [] => none
  | (key, value) :: rest => if key = name then some value else find? name rest

def put {α : Type} (name : String) (value : α) : List (String × α) → List (String × α)
  | [] => [(name, value)]
  | (key, old) :: rest =>
    if name < key then (name, value) :: (key, old) :: rest
    else if name = key then (name, value) :: rest
    else (key, old) :: put name value rest

variable {α : Type}

theorem find?_eq_some_iff {name : String} {value : α} {entries : List (String × α)}
    (h : Ascending entries) : find? name entries = some value ↔ (name, value) ∈ entries := by
  induction entries with
  | nil => simp [find?]
  | cons entry rest ih =>
    obtain ⟨key, old⟩ := entry
    have ⟨above, tail⟩ := List.pairwise_cons.1 h
    by_cases same : key = name
    · subst same
      simp only [find?, if_true, Option.some.injEq, List.mem_cons, Prod.mk.injEq, true_and]
      refine ⟨fun e => .inl e.symm, ?_⟩
      rintro (e | member)
      · exact e.symm
      · exact absurd (above _ member) (String.lt_irrefl _)
    · have other : name ≠ key := fun e => same e.symm
      simp [find?, same, other, ih tail]

theorem mem_put {name : String} {value : α} {entries : List (String × α)} {entry : String × α}
    (h : entry ∈ put name value entries) : entry = (name, value) ∨ entry ∈ entries := by
  induction entries with
  | nil => simpa [put] using h
  | cons head rest ih =>
    obtain ⟨key, old⟩ := head
    simp only [put] at h
    split at h
    · simpa using h
    · split at h
      · rcases List.mem_cons.1 h with e | m
        · exact .inl e
        · exact .inr (List.mem_cons_of_mem _ m)
      · rcases List.mem_cons.1 h with e | m
        · exact .inr (e ▸ List.mem_cons_self)
        · rcases ih m with e | m
          · exact .inl e
          · exact .inr (List.mem_cons_of_mem _ m)

theorem put_ascending {name : String} {value : α} {entries : List (String × α)}
    (h : Ascending entries) : Ascending (put name value entries) := by
  induction entries with
  | nil => simp [put, Ascending]
  | cons head rest ih =>
    obtain ⟨key, old⟩ := head
    have ⟨above, tail⟩ := List.pairwise_cons.1 h
    simp only [put]
    split
    next before =>
      refine List.pairwise_cons.2 ⟨?_, h⟩
      intro entry member
      rcases List.mem_cons.1 member with e | m
      · subst e; exact before
      · exact String.lt_trans before (above _ m)
    next notBefore =>
      split
      next same => subst same; exact List.pairwise_cons.2 ⟨above, tail⟩
      next other =>
        refine List.pairwise_cons.2 ⟨?_, ih tail⟩
        intro entry member
        rcases mem_put member with e | m
        · subst e
          refine Classical.byContradiction fun notAfter => other ?_
          exact String.le_antisymm (String.not_lt.1 notAfter) (String.not_lt.1 notBefore)
        · exact above _ m

theorem find?_put {name other : String} {value : α} {entries : List (String × α)} :
    find? other (put name value entries) =
      if name = other then some value else find? other entries := by
  induction entries with
  | nil => simp [put, find?]
  | cons head rest ih =>
    obtain ⟨key, old⟩ := head
    simp only [put]
    split
    · simp [find?]
    · split
      next same =>
        subst same
        by_cases e : name = other <;> simp [find?, e]
      next differ =>
        simp only [find?, ih]
        by_cases e : key = other
        · subst e; simp [differ]
        · simp [e]

theorem put_of_below {name : String} {value : α} {entries : List (String × α)}
    (below : ∀ entry ∈ entries, entry.1 < name) : put name value entries = entries ++ [(name, value)] := by
  induction entries with
  | nil => rfl
  | cons head rest ih =>
    obtain ⟨key, old⟩ := head
    have first : key < name := below _ List.mem_cons_self
    have differ : name ≠ key := fun same => String.lt_irrefl key (same ▸ first)
    rw [put, if_neg (String.lt_asymm first), if_neg differ, ih fun entry member => below entry (.tail _ member)]
    rfl

theorem find?_filter {name : String} {entries : List (String × α)} (keep : String → α → Bool)
    (h : Ascending entries) :
    find? name (entries.filter fun entry => keep entry.1 entry.2) =
      (find? name entries).filter (keep name) := by
  induction entries with
  | nil => rfl
  | cons head rest ih =>
    obtain ⟨key, old⟩ := head
    have ⟨above, tail⟩ := List.pairwise_cons.1 h
    by_cases same : key = name
    · subst same
      by_cases kept : keep key old = true
      · simp [kept, find?, Option.filter]
      · have absent : find? key rest = none := by
          cases found : find? key rest with
          | none => rfl
          | some value =>
            exact absurd (above _ ((find?_eq_some_iff tail).1 found)) (String.lt_irrefl _)
        have dropped : keep key old = false := by simpa using kept
        simp [dropped, find?, Option.filter, ih tail, absent]
    · by_cases kept : keep key old = true <;> simp [kept, find?, same, ih tail]

theorem eq_of_find?_eq {entries others : List (String × α)} (h : Ascending entries)
    (k : Ascending others) (same : ∀ name, find? name entries = find? name others) :
    entries = others := by
  induction entries generalizing others with
  | nil =>
    cases others with
    | nil => rfl
    | cons head rest => simpa [find?] using same head.1
  | cons head rest ih =>
    obtain ⟨key, value⟩ := head
    have ⟨above, tail⟩ := List.pairwise_cons.1 h
    cases others with
    | nil => simpa [find?] using same key
    | cons head' rest' =>
      obtain ⟨key', value'⟩ := head'
      have ⟨above', tail'⟩ := List.pairwise_cons.1 k
      have first : key = key' := by
        have inOthers : (key, value) ∈ (key', value') :: rest' :=
          (find?_eq_some_iff k).1 (by rw [← same]; simp [find?])
        have inEntries : (key', value') ∈ (key, value) :: rest :=
          (find?_eq_some_iff h).1 (by rw [same]; simp [find?])
        rcases List.mem_cons.1 inOthers with e | m
        · exact congrArg Prod.fst e
        · rcases List.mem_cons.1 inEntries with e | m'
          · exact (congrArg Prod.fst e).symm
          · exact absurd (above _ m') (String.lt_asymm (above' _ m))
      subst first
      have second : value = value' := by simpa [find?] using same key
      subst second
      refine congrArg _ (ih tail tail' fun name => ?_)
      by_cases e : key = name
      · subst e
        have absent (l : List (String × α)) (asc : Ascending l) (low : ∀ a ∈ l, key < a.1) :
            find? key l = none := by
          cases found : find? key l with
          | none => rfl
          | some v => exact absurd (low _ ((find?_eq_some_iff asc).1 found)) (String.lt_irrefl _)
        rw [absent rest tail above, absent rest' tail' above']
      · simpa [find?, e] using same name

end Ascending

structure NameMap (α : Type) where
  entries : List (String × α)
  ascending : Ascending entries

namespace NameMap

variable {α : Type}

def empty : NameMap α := ⟨[], List.Pairwise.nil⟩

instance : EmptyCollection (NameMap α) := ⟨empty⟩
instance : Inhabited (NameMap α) := ⟨empty⟩

def get? (m : NameMap α) (name : String) : Option α := Ascending.find? name m.entries

def contains (m : NameMap α) (name : String) : Bool := (m.get? name).isSome

def size (m : NameMap α) : Nat := m.entries.length

def names (m : NameMap α) : List String := m.entries.map Prod.fst

def insert (m : NameMap α) (name : String) (value : α) : NameMap α :=
  ⟨Ascending.put name value m.entries, Ascending.put_ascending m.ascending⟩

def filter (m : NameMap α) (keep : String → α → Bool) : NameMap α :=
  ⟨m.entries.filter fun entry => keep entry.1 entry.2, m.ascending.filter _⟩

def erase (m : NameMap α) (name : String) : NameMap α := m.filter fun key _ => key != name

def ofList (entries : List (String × α)) : NameMap α :=
  entries.foldl (fun m entry => m.insert entry.1 entry.2) ∅

theorem ext_get? {a b : NameMap α} (h : ∀ name, a.get? name = b.get? name) : a = b := by
  cases a; cases b
  congr
  exact Ascending.eq_of_find?_eq ‹_› ‹_› h

theorem ext_entries {a b : NameMap α} (h : a.entries = b.entries) : a = b := by
  cases a
  cases b
  cases h
  rfl

theorem entries_foldl_insert {m : NameMap α} {more : List (String × α)} (h : Ascending (m.entries ++ more)) :
    (more.foldl (fun m entry => m.insert entry.1 entry.2) m).entries = m.entries ++ more := by
  induction more generalizing m with
  | nil => exact (List.append_nil _).symm
  | cons entry rest ih =>
    have below : ∀ other ∈ m.entries, other.1 < entry.1 := fun other member =>
      (List.pairwise_append.1 h).2.2 other member entry List.mem_cons_self
    have next : (m.insert entry.1 entry.2).entries = m.entries ++ [entry] := Ascending.put_of_below below
    have regrouped : m.entries ++ entry :: rest = (m.insert entry.1 entry.2).entries ++ rest := by
      rw [next, List.append_assoc, List.singleton_append]
    rw [regrouped] at h ⊢
    exact ih h

theorem ofList_entries (m : NameMap α) : ofList m.entries = m :=
  ext_entries (entries_foldl_insert (m := ∅) m.ascending)

@[simp] theorem get?_empty (name : String) : (∅ : NameMap α).get? name = none := rfl

theorem get?_insert (m : NameMap α) (name other : String) (value : α) :
    (m.insert name value).get? other = if name = other then some value else m.get? other :=
  Ascending.find?_put

theorem get?_filter (m : NameMap α) (keep : String → α → Bool) (name : String) :
    (m.filter keep).get? name = (m.get? name).filter (keep name) :=
  Ascending.find?_filter keep m.ascending

theorem get?_erase (m : NameMap α) (name other : String) :
    (m.erase name).get? other = if name = other then none else m.get? other := by
  rw [erase, get?_filter]
  by_cases h : name = other
  · subst h; cases m.get? name <;> simp [Option.filter]
  · have : other ≠ name := fun e => h e.symm
    cases m.get? other <;> simp [Option.filter, h, this]

theorem contains_eq (m : NameMap α) (name : String) : m.contains name = (m.get? name).isSome := rfl

theorem mem_entries_iff (m : NameMap α) (name : String) (value : α) :
    (name, value) ∈ m.entries ↔ m.get? name = some value :=
  (Ascending.find?_eq_some_iff m.ascending).symm

theorem forall_get?_iff {m : NameMap α} {p : α → Prop} :
    (∀ name value, m.get? name = some value → p value) ↔ ∀ entry ∈ m.entries, p entry.2 := by
  constructor
  · intro found entry member
    exact found entry.1 entry.2 ((m.mem_entries_iff entry.1 entry.2).1 member)
  · intro all name value found
    exact all (name, value) ((m.mem_entries_iff name value).2 found)

def same [BEq α] (a b : NameMap α) : Bool :=
  a.entries.length == b.entries.length &&
    (a.entries.zip b.entries).all fun pair => pair.1.1 == pair.2.1 && pair.1.2 == pair.2.2

instance [BEq α] : BEq (NameMap α) := ⟨same⟩

theorem same_refl [BEq α] [ReflBEq α] (m : NameMap α) : m.same m = true := by
  have paired : m.entries.zip m.entries = m.entries.map fun entry => (entry, entry) := by
    simpa using List.zip_map' (f := id) (g := id) (l := m.entries)
  simp [same, paired]

instance [BEq α] [ReflBEq α] : ReflBEq (NameMap α) := ⟨fun {m} => same_refl m⟩

end NameMap

end Waybill
