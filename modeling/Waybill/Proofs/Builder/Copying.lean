import Waybill.Proofs.Builder.Produced

/-! Copies of many headers at once, in which a name may come more than once, with nulls and reserved names among the
entries. Each header only sees the values that the entries hold for its name. A copy that overwrites takes them one
after the other, so the last one settles the header, a null by removing it. A copy that does not overwrite leaves a
header that is there alone, and fills one that is not with the first value that is no null. A message's own headers
are no news to an area that was seeded from it, unless a null is among them; and no message of a builder holds one. -/
namespace Waybill

namespace Store

def valuesOf (name : String) (entries : List (String × HeaderValue)) : List HeaderValue :=
  (entries.filter fun entry => entry.1 = name).map Prod.snd

theorem valuesOf_cons (name : String) (entry : String × HeaderValue) (more : List (String × HeaderValue)) :
    valuesOf name (entry :: more) = if entry.1 = name then entry.2 :: valuesOf name more else valuesOf name more := by
  by_cases here : entry.1 = name <;> simp [valuesOf, here]

theorem mem_valuesOf {name : String} {entries : List (String × HeaderValue)} {v : HeaderValue} :
    v ∈ valuesOf name entries ↔ (name, v) ∈ entries := by
  simp only [valuesOf, List.mem_map, List.mem_filter, decide_eq_true_eq]
  constructor
  · rintro ⟨⟨_, _⟩, ⟨member, rfl⟩, rfl⟩
    exact member
  · intro member
    exact ⟨(name, v), ⟨member, rfl⟩, rfl⟩

section Naming

variable {name : String} (free : HeaderName.isReserved name = false)
include free

theorem get?_copy_true (s : Store) (entries : List (String × HeaderValue)) :
    (s.copy entries true).get? name = (valuesOf name entries).foldl written (s.get? name) := by
  induction entries generalizing s with
  | nil => rfl
  | cons entry more ih =>
    have rest : (s.copy (entry :: more) true).get? name =
        (valuesOf name more).foldl written ((s.set entry.1 entry.2).get? name) := ih (s.set entry.1 entry.2)
    rw [rest, valuesOf_cons]
    by_cases here : entry.1 = name
    · subst here
      rw [if_pos rfl, List.foldl_cons, get?_set s free, if_pos rfl]
    · rw [if_neg here, s.get?_set_of_ne entry.2 here]

theorem get?_copy_false (s : Store) (entries : List (String × HeaderValue)) :
    (s.copy entries false).get? name = (s.get? name).or ((valuesOf name entries).find? fun v => !v.isNull) := by
  induction entries generalizing s with
  | nil => exact (Option.or_none).symm
  | cons entry more ih =>
    have rest : (s.copy (entry :: more) false).get? name = ((s.setIfAbsent entry.1 entry.2).get? name).or
        ((valuesOf name more).find? fun v => !v.isNull) := ih (s.setIfAbsent entry.1 entry.2)
    rw [rest, valuesOf_cons]
    by_cases here : entry.1 = name
    · subst here
      rw [if_pos rfl, s.get?_setIfAbsent free, Option.or_assoc, List.find?_cons]
      cases entry.2.isNull <;> rfl
    · rw [if_neg here, s.get?_setIfAbsent_of_ne entry.2 here]

end Naming

theorem exists_foldl_written {values : List HeaderValue} {v : HeaderValue} (last : values.getLast? = some v)
    (old : Option HeaderValue) : ∃ before, values.foldl written old = written before v := by
  obtain ⟨earlier, rfl⟩ := List.getLast?_eq_some_iff.1 last
  exact ⟨earlier.foldl written old, by rw [List.foldl_append, List.foldl_cons, List.foldl_nil]⟩

section Own

variable {h : Headers} {part : List (String × HeaderValue)}

theorem copyEntry_own {overwrite : Bool} {entry : String × HeaderValue} (own : h.get? entry.1 = some entry.2)
    (live : overwrite = true → HeaderName.isReserved entry.1 = false → entry.2.isNull = false) :
    (ofHeaders h).copyEntry overwrite entry = ofHeaders h := by
  cases free : HeaderName.isReserved entry.1 with
  | true => cases overwrite <;> simp [copyEntry, set, setIfAbsent, free]
  | false =>
    have found : (ofHeaders h).get? entry.1 = some entry.2 := by rw [get?_ofHeaders, free, ← own]; rfl
    cases overwrite with
    | true =>
      have there : ((ofHeaders h).get? entry.1 == some entry.2) = true := by rw [found]; exact BEq.rfl
      simp [copyEntry, set, free, live rfl free, there]
    | false =>
      have there : (ofHeaders h).staged.contains entry.1 = true := by
        rw [NameMap.contains_eq, show (ofHeaders h).staged.get? entry.1 = some entry.2 from found]
        rfl
      simp [copyEntry, setIfAbsent, there]

theorem copy_own {overwrite : Bool} (own : ∀ entry ∈ part, h.get? entry.1 = some entry.2)
    (live : overwrite = true → ∀ entry ∈ part, HeaderName.isReserved entry.1 = false → entry.2.isNull = false) :
    (ofHeaders h).copy part overwrite = ofHeaders h := by
  induction part with
  | nil => rfl
  | cons entry more ih =>
    obtain ⟨here, rest⟩ := List.forall_mem_cons.1 own
    have first := copyEntry_own here fun mode => live mode entry List.mem_cons_self
    rw [copy, List.foldl_cons, first]
    exact ih rest fun mode other member => live mode other (List.mem_cons_of_mem _ member)

theorem modified_copy_own_iff {overwrite : Bool} (own : ∀ entry ∈ part, h.get? entry.1 = some entry.2) :
    ((ofHeaders h).copy part overwrite).modified = false ↔
      (overwrite = true → ∀ entry ∈ part, HeaderName.isReserved entry.1 = false → entry.2.isNull = false) := by
  refine ⟨?_, fun live => by rw [copy_own own live]; rfl⟩
  rintro down rfl entry member free
  have same : ((ofHeaders h).copy part true).staged = (ofHeaders h).staged :=
    (staged_run_of_unmodified (show ((ofHeaders h).run [.copy part true]).modified = false from down)).2
  have kept : ((ofHeaders h).copy part true).get? entry.1 = some entry.2 := by
    rw [get?, same, ← get?, get?_ofHeaders, free, ← own entry member]
    rfl
  obtain ⟨v, last⟩ : ∃ v, (valuesOf entry.1 part).getLast? = some v :=
    Option.isSome_iff_exists.1 (List.getLast?_isSome.2 (List.ne_nil_of_mem (mem_valuesOf.2 member)))
  have one : v = entry.2 :=
    Option.some.inj ((own (entry.1, v) (mem_valuesOf.1 (List.mem_of_getLast? last))).symm.trans (own entry member))
  obtain ⟨before, written⟩ := exists_foldl_written last ((ofHeaders h).get? entry.1)
  rw [get?_copy_true free, written, one] at kept
  cases null : entry.2.isNull with
  | false => rfl
  | true => cases (written_of_null before null).symm.trans kept

end Own

/-- What each mode of a copy leaves under each name, and that a message's own headers are no change. -/
theorem copy_settles (s : Store) (entries : List (String × HeaderValue)) :
    (∀ name, HeaderName.isReserved name = false →
      (∀ v, (valuesOf name entries).getLast? = some v →
        (v.isNull = true → (s.copy entries true).get? name = none) ∧
        (v.isNull = false → ∃ w, (s.copy entries true).get? name = some w ∧ (w == v) = true)) ∧
      (s.copy entries false).get? name = (s.get? name).or ((valuesOf name entries).find? fun v => !v.isNull)) ∧
    (∀ name overwrite, HeaderName.isReserved name = true ∨ valuesOf name entries = [] →
      (s.copy entries overwrite).get? name = s.get? name) ∧
    ∀ {α : Type} [Payload α] (m : Message α) (part : List (String × HeaderValue)) (overwrite : Bool),
      (∀ entry ∈ part, m.headers.get? entry.1 = some entry.2) →
      (∀ given, m.Produced given → (ofHeaders m.headers).copy part overwrite = ofHeaders m.headers) ∧
      (((ofHeaders m.headers).copy part overwrite).modified = false ↔ (overwrite = true →
        ∀ entry ∈ part, HeaderName.isReserved entry.1 = false → entry.2.isNull = false)) := by
  refine ⟨fun name free => ⟨fun v last => ?_, get?_copy_false free s entries⟩, fun name overwrite apart => ?_,
    fun m part overwrite own => ⟨fun given produced => ?_, modified_copy_own_iff own⟩⟩
  · obtain ⟨before, settled⟩ := exists_foldl_written last (s.get? name)
    rw [get?_copy_true free, settled]
    exact ⟨written_of_null before, exists_written_of_live before⟩
  · rcases apart with reserved | unnamed
    · exact s.get?_copy_of_isReserved entries overwrite reserved
    · refine s.get?_copy_of_not_named overwrite fun entry member same => ?_
      have named : entry.2 ∈ valuesOf name entries := mem_valuesOf.2 (same ▸ member)
      simp [unnamed] at named
  · exact copy_own own fun _ entry member _ => produced.finished.live entry.1 entry.2 (own entry member)

theorem copy_settles_repeated :
    let s := ofHeaders (NameMap.ofList [("note", .str "x"), ("old", .int 3)])
    let entries : List (String × HeaderValue) := [("note", .null), ("id", .int 7), ("note", .str "y"), ("kept", .null),
      ("kept", .int 1), ("kept", .int 2), ("old", .json Json.null)]
    let m := (((Builder.withPayload "crate").edit (.set "a" (.int 1))).build (.counting 0 1)).1.message
    let part : List (String × HeaderValue) := ("a", .int 1) :: m.headers.entries.reverse
    (s.copy entries true).get? "old" = none ∧ (∃ w, (s.copy entries true).get? "note" = some w ∧ (w == .str "y") = true) ∧
      (s.copy entries false).get? "note" = some (.str "x") ∧ (s.copy entries false).get? "kept" = some (.int 1) ∧
      (s.copy entries true).get? "id" = none ∧ (ofHeaders m.headers).copy part true = ofHeaders m.headers := by
  intro s entries m part
  obtain ⟨named, apart, back⟩ := copy_settles s entries
  have edited : (Builder.withPayload "crate").step (.edit (.set "a" (.int 1))) =
      .ok ((Builder.withPayload "crate").edit (.set "a" (.int 1))) := rfl
  have produced : m.Produced (· = (Stamps.counting 0 1).next) :=
    Message.produced_build (.step (.withPayload "crate") edited) fun _ => rfl
  have own : ∀ entry ∈ part, m.headers.get? entry.1 = some entry.2 := by
    refine List.forall_mem_cons.2 ⟨rfl, fun entry member => ?_⟩
    exact (m.headers.mem_entries_iff entry.1 entry.2).1 (List.mem_reverse.1 member)
  refine ⟨((named "old" rfl).1 _ rfl).1 rfl, ((named "note" rfl).1 _ rfl).2 rfl, (named "note" rfl).2,
    (named "kept" rfl).2, apart "id" true (.inl rfl), (back m part true own).1 _ produced⟩

end Store

end Waybill
