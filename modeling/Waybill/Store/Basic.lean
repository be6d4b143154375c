import Waybill.Store.Edit
import Waybill.Wildcard

/-! The staging area in use. It never stages a reserved name: a seed leaves those behind, and writes to them are
reported and ignored. A write of null removes, or does nothing where only absent names are written. A write that
leaves the headers as they are is no modification. -/
namespace Waybill

structure Store where
  staged : Headers
  modified : Bool

namespace Store

def ofHeaders (seed : Headers) : Store :=
  ⟨seed.filter fun name _ => !HeaderName.isReserved name, false⟩

def empty : Store := ofHeaders ∅

def get? (s : Store) (name : String) : Option HeaderValue := s.staged.get? name

def insert (s : Store) (name : String) (v : HeaderValue) : Store := ⟨s.staged.insert name v, true⟩

def remove (s : Store) (name : String) : Store :=
  if s.staged.contains name then ⟨s.staged.erase name, true⟩ else s

def set (s : Store) (name : String) (v : HeaderValue) : Store :=
  if HeaderName.isReserved name then s
  else if v.isNull then s.remove name
  else if s.get? name == some v then s
  else s.insert name v

def setIfAbsent (s : Store) (name : String) (v : HeaderValue) : Store :=
  if HeaderName.isReserved name || v.isNull || s.staged.contains name then s else s.insert name v

def matchesAny (patterns : List String) (name : String) : Bool :=
  patterns.any fun pattern => Wildcard.accepts pattern name

def removeMatching (s : Store) (patterns : List String) : Store :=
  let kept := s.staged.filter fun name _ => !matchesAny patterns name
  ⟨kept, s.modified || kept.size != s.staged.size⟩

def copyEntry (overwrite : Bool) (s : Store) (entry : String × HeaderValue) : Store :=
  if overwrite then s.set entry.1 entry.2 else s.setIfAbsent entry.1 entry.2

def copy (s : Store) (entries : List (String × HeaderValue)) (overwrite : Bool) : Store :=
  entries.foldl (copyEntry overwrite) s

def edit (s : Store) : Edit → Store
  | .set name v => s.set name v
  | .setIfAbsent name v => s.setIfAbsent name v
  | .remove name => s.remove name
  | .removeMatching patterns => s.removeMatching patterns
  | .copy entries overwrite => s.copy entries overwrite

def run (s : Store) (edits : List Edit) : Store := edits.foldl edit s

def materialize (s : Store) (stamps : Stamps) : Headers × Stamps :=
  let stamp := stamps.next
  ((s.staged.insert HeaderName.id (.id stamp.id)).insert HeaderName.timestamp (.int stamp.timestamp),
    stamps.rest)

def refusedNames : Edit → List String
  | .set name _ => [name].filter HeaderName.isReserved
  | .setIfAbsent name _ => [name].filter HeaderName.isReserved
  | .copy entries _ => (entries.map Prod.fst).filter HeaderName.isReserved
  | _ => []

def events (e : Edit) : List Event := (refusedNames e).map .reservedWrite

instance : Staging Store where
  get? := get?
  edit := edit
  events _ := events
  isModified := modified
  materialize := materialize

def describeEntries : List (String × HeaderValue) → String
  | [] => ""
  | [(name, v)] => Text.quoted name ++ ": " ++ v.describe
  | (name, v) :: more => Text.quoted name ++ ": " ++ v.describe ++ ", " ++ describeEntries more

def describe (s : Store) : String :=
  "HeaderAccessor \x7b headers: \x7b" ++ describeEntries s.staged.entries ++ "\x7d, modified: " ++
    toString s.modified ++ ", .. \x7d"

theorem get?_insert (s : Store) (name other : String) (v : HeaderValue) :
    (s.insert name v).get? other = if name = other then some v else s.get? other :=
  NameMap.get?_insert s.staged name other v

theorem get?_remove (s : Store) (name other : String) :
    (s.remove name).get? other = if name = other then none else s.get? other := by
  simp only [remove]
  split
  · exact NameMap.get?_erase s.staged name other
  next absent =>
    split
    next same =>
      subst same
      simpa [get?, NameMap.contains_eq] using absent
    next => rfl

theorem get?_ofHeaders (seed : Headers) (name : String) :
    (ofHeaders seed).get? name = if HeaderName.isReserved name then none else seed.get? name := by
  simp only [get?, ofHeaders, NameMap.get?_filter]
  cases found : seed.get? name <;> cases h : HeaderName.isReserved name <;> simp [Option.filter]

end Store
end Waybill
