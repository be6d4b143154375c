import Waybill.HeaderValue.Basic

/-! Equality of header values has a direction only in how it is written: it is symmetric at every depth, down to
the two zeros inside a document. A plain value equals nothing but itself, and equal lists are equally long; so a
write over a plain value, or of one, leaves exactly what is written. -/
namespace Waybill

theorem Number.same_symm {a b : Number} (h : a.same b = true) : b.same a = true := by
  cases a <;> cases b
  · simp only [same, beq_iff_eq] at h ⊢
    exact h.symm
  · simp [same] at h
  · simp [same] at h
  · exact Binary64.Finite.same_symm h

namespace Doc

mutual
theorem same_symm (a b : Doc) (h : a.same b = true) : b.same a = true := by
  cases a <;> cases b
  case array.array items others =>
    simp only [same] at h ⊢
    exact sameItems_symm items others h
  case object.object members others =>
    simp only [same] at h ⊢
    exact sameMembers_symm members others h
  case number.number m n =>
    simp only [same] at h ⊢
    exact Number.same_symm h
  all_goals simp_all [same]

theorem sameItems_symm (items others : List Doc) (h : sameItems items others = true) :
    sameItems others items = true := by
  cases items <;> cases others
  case cons.cons d more e rest =>
    simp only [sameItems, Bool.and_eq_true] at h ⊢
    exact ⟨same_symm d e h.1, sameItems_symm more rest h.2⟩
  all_goals simp_all [sameItems]

theorem sameMembers_symm (members others : List (String × Doc))
    (h : sameMembers members others = true) : sameMembers others members = true := by
  cases members <;> cases others
  case cons.cons head more other rest =>
    simp only [sameMembers, Bool.and_eq_true, beq_iff_eq] at h ⊢
    exact ⟨⟨h.1.1.symm, same_symm head.2 other.2 h.1.2⟩, sameMembers_symm more rest h.2⟩
  all_goals simp_all [sameMembers]
end

end Doc

namespace HeaderValue

mutual
theorem same_symm (a b : HeaderValue) (h : a.same b = true) : b.same a = true := by
  cases a <;> cases b
  case list.list items others =>
    simp only [same] at h ⊢
    exact sameItems_symm items others h
  case json.json j k => exact Doc.same_symm j.doc k.doc h
  all_goals simp_all [same]

theorem sameItems_symm (items others : List HeaderValue) (h : sameItems items others = true) :
    sameItems others items = true := by
  cases items <;> cases others
  case cons.cons v more w rest =>
    simp only [sameItems, Bool.and_eq_true] at h ⊢
    exact ⟨same_symm v w h.1, sameItems_symm more rest h.2⟩
  all_goals simp_all [sameItems]
end

theorem beq_symm {a b : HeaderValue} (h : (a == b) = true) : (b == a) = true := same_symm a b h

def isPlain : HeaderValue → Bool
  | .list _ => false
  | .json _ => false
  | _ => true

theorem eq_of_beq_of_isPlain {a b : HeaderValue} (plain : a.isPlain = true) (h : (a == b) = true) : a = b := by
  change a.same b = true at h
  cases a <;> cases b <;> simp_all [same, isPlain]

theorem length_eq_of_sameItems {items others : List HeaderValue}
    (h : sameItems items others = true) : items.length = others.length := by
  induction items generalizing others with
  | nil => cases others <;> simp_all [sameItems]
  | cons v more ih =>
    cases others with
    | nil => simp [sameItems] at h
    | cons w rest =>
      simp only [sameItems, Bool.and_eq_true] at h
      simp [ih h.2]

theorem list_beq_of_length_ne {items others : List HeaderValue}
    (h : items.length ≠ others.length) : (HeaderValue.list items == .list others) = false :=
  Bool.eq_false_iff.2 fun e => h (length_eq_of_sameItems e)

end HeaderValue
end Waybill
