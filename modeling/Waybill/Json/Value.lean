import Waybill.Json.Basic
import Waybill.Text.Quoted

/-! Values: documents in order. Arranging a document gives a value, and arranging a value changes nothing. -/
namespace Waybill

namespace Doc

theorem head_putNew {name : String} {d : Doc} {members : List (String × Doc)}
    {low : String} (first : low < name) (h : (members.head?.all fun next => low < next.1) = true) :
    ((putNew name d members).head?.all fun next => low < next.1) = true := by
  cases members with
  | nil => simpa [putNew] using first
  | cons head rest =>
    obtain ⟨key, old⟩ := head
    have above : low < key := by simpa using h
    simp only [putNew]
    split
    · simpa using first
    · split <;> simpa using above

theorem orderedMembers_putNew {name : String} {d : Doc} {members : List (String × Doc)}
    (hd : d.ordered = true) (h : orderedMembers members = true) :
    orderedMembers (putNew name d members) = true := by
  induction members with
  | nil => simp [putNew, orderedMembers, hd]
  | cons head rest ih =>
    obtain ⟨key, old⟩ := head
    have parts := h
    simp only [orderedMembers, Bool.and_eq_true] at parts
    obtain ⟨⟨old_ordered, above⟩, tail⟩ := parts
    simp only [putNew]
    split
    next before =>
      simp only [orderedMembers, hd, old_ordered, above, tail, List.head?_cons, Option.all_some,
        decide_eq_true before, Bool.and_self]
    next notBefore =>
      split
      · exact h
      next differ =>
        have after : key < name := by
          refine Classical.byContradiction fun notAfter => differ ?_
          exact String.le_antisymm (String.not_lt.1 notAfter) (String.not_lt.1 notBefore)
        simp only [orderedMembers, Bool.and_eq_true]
        exact ⟨⟨old_ordered, head_putNew after above⟩, ih tail⟩

mutual
theorem arrange_ordered (d : Doc) : d.arrange.ordered = true := by
  cases d with
  | array items => simp [arrange, ordered, arrangeItems_ordered items]
  | object members => simp [arrange, ordered, arrangeMembers_ordered members]
  | _ => rfl

theorem arrangeItems_ordered (items : List Doc) : orderedItems (arrangeItems items) = true := by
  cases items with
  | nil => rfl
  | cons d more => simp [arrangeItems, orderedItems, arrange_ordered d, arrangeItems_ordered more]

theorem arrangeMembers_ordered (members : List (String × Doc)) :
    orderedMembers (arrangeMembers members) = true := by
  cases members with
  | nil => rfl
  | cons head more =>
    obtain ⟨name, d⟩ := head
    exact orderedMembers_putNew (arrange_ordered d) (arrangeMembers_ordered more)
end

theorem putNew_of_above {name : String} {d : Doc} {members : List (String × Doc)}
    (h : (members.head?.all fun next => name < next.1) = true) :
    putNew name d members = (name, d) :: members := by
  cases members with
  | nil => rfl
  | cons head rest =>
    have above : name < head.1 := by simpa using h
    simp [putNew, above]

mutual
theorem arrange_of_ordered (d : Doc) (h : d.ordered = true) : d.arrange = d := by
  cases d with
  | array items =>
    simp only [ordered] at h
    simp [arrange, arrangeItems_of_ordered items h]
  | object members =>
    simp only [ordered] at h
    simp [arrange, arrangeMembers_of_ordered members h]
  | _ => rfl

theorem arrangeItems_of_ordered (items : List Doc) (h : orderedItems items = true) :
    arrangeItems items = items := by
  cases items with
  | nil => rfl
  | cons d more =>
    simp only [orderedItems, Bool.and_eq_true] at h
    simp [arrangeItems, arrange_of_ordered d h.1, arrangeItems_of_ordered more h.2]

theorem arrangeMembers_of_ordered (members : List (String × Doc))
    (h : orderedMembers members = true) : arrangeMembers members = members := by
  cases members with
  | nil => rfl
  | cons head more =>
    obtain ⟨name, d⟩ := head
    simp only [orderedMembers, Bool.and_eq_true] at h
    obtain ⟨⟨hd, above⟩, tail⟩ := h
    simp only [arrangeMembers, arrange_of_ordered d hd, arrangeMembers_of_ordered more tail]
    exact putNew_of_above above
end

mutual
theorem same_refl (d : Doc) : d.same d = true := by
  cases d with
  | array items => simp [same, sameItems_refl items]
  | object members => simp [same, sameMembers_refl members]
  | number n => simp [same, Number.same_refl]
  | _ => simp [same]

theorem sameItems_refl (items : List Doc) : sameItems items items = true := by
  cases items with
  | nil => rfl
  | cons d more => simp [sameItems, same_refl d, sameItems_refl more]

theorem sameMembers_refl (members : List (String × Doc)) : sameMembers members members = true := by
  cases members with
  | nil => rfl
  | cons head more => simp [sameMembers, same_refl head.2, sameMembers_refl more]
end

end Doc

structure Json where
  doc : Doc
  ordered : doc.ordered = true

namespace Json

def ofDoc (d : Doc) : Json := ⟨d.arrange, d.arrange_ordered⟩

theorem ofDoc_doc (j : Json) : ofDoc j.doc = j := by
  cases j with
  | mk doc ordered => simp [ofDoc, Doc.arrange_of_ordered doc ordered]

def null : Json := ⟨.null, rfl⟩

def isNull (j : Json) : Bool :=
  match j.doc with
  | .null => true
  | _ => false

instance : BEq Json := ⟨fun a b => a.doc.same b.doc⟩

instance : ReflBEq Json := ⟨fun {a} => Doc.same_refl a.doc⟩

end Json

mutual
def Doc.describe : Doc → String
  | .null => "Null"
  | .bool b => "Bool(" ++ toString b ++ ")"
  | .number n => "Number(" ++ String.ofList n.text ++ ")"
  | .text s => "String(" ++ Text.quoted s ++ ")"
  | .array items => "Array [" ++ Doc.describeItems items ++ "]"
  | .object members => "Object \x7b" ++ Doc.describeMembers members ++ "\x7d"

def Doc.describeItems : List Doc → String
  | [] => ""
  | [d] => d.describe
  | d :: more => d.describe ++ ", " ++ Doc.describeItems more

def Doc.describeMembers : List (String × Doc) → String
  | [] => ""
  | [(name, d)] => Text.quoted name ++ ": " ++ d.describe
  | (name, d) :: more => Text.quoted name ++ ": " ++ d.describe ++ ", " ++ Doc.describeMembers more
end

end Waybill
