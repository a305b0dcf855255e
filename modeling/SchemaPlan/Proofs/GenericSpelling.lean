import SchemaPlan.Proofs.TypeResolution

/-!
# Generic spellings

A spelling such as `Option<T>` or `Vec<T>` is taken apart at its first angle bracket. What stands in
front of the bracket has to be the name itself, or a path that ends with it.

* `Compact.generic`: a generic spelling without blanks.
* `genericSpelling_inj`: a generic spelling has one name and one argument.
* `genericArgument?_generic`: the argument of a generic spelling is read back.
* `stripOption_generic`, `listElement?_generic`: optional spellings and lists, with a path in front
  of them or not.
-/
namespace SchemaPlan

open Text Ddl

/-! ## Spellings without blanks -/

/-- A spelling that has no blanks. -/
def Compact (spelling : List Char) : Prop :=
  withoutBlanks spelling = spelling

instance (spelling : List Char) : Decidable (Compact spelling) :=
  inferInstanceAs (Decidable (_ = _))

theorem compact_withoutBlanks (spelling : List Char) : Compact (withoutBlanks spelling) := by
  simp [Compact, withoutBlanks, List.filter_filter]

theorem Compact.append {a b : List Char} (ha : Compact a) (hb : Compact b) : Compact (a ++ b) := by
  show withoutBlanks (a ++ b) = a ++ b
  rw [withoutBlanks, List.filter_append, ← withoutBlanks, ← withoutBlanks, ha, hb]

/-! ## Generic spellings -/

/-- The spelling `Name<T>`, on characters. -/
def genericSpelling (head inner : List Char) : List Char :=
  head ++ '<' :: (inner ++ ['>'])

theorem Compact.generic {head inner : List Char} (hhead : Compact head) (hinner : Compact inner) :
    Compact (genericSpelling head inner) :=
  hhead.append (.append (a := ['<']) rfl (hinner.append rfl))

theorem toList_optional (inner : String) :
    ("Option<" ++ inner ++ ">").toList = genericSpelling "Option".toList inner.toList := by
  simp [genericSpelling]

theorem toList_list (inner : String) :
    ("Vec<" ++ inner ++ ">").toList = genericSpelling "Vec".toList inner.toList := by
  simp [genericSpelling]

theorem toList_generic (head inner : String) :
    (head ++ "<" ++ inner ++ ">").toList = genericSpelling head.toList inner.toList := by
  simp [genericSpelling]

theorem genericSpelling_inj {head head' inner inner' : List Char} (hhead : '<' ∉ head)
    (hhead' : '<' ∉ head') :
    genericSpelling head inner = genericSpelling head' inner' ↔ head = head' ∧ inner = inner' := by
  constructor
  · intro h
    have hcut := congrArg (cutAt '<') h
    rw [genericSpelling, genericSpelling, cutAt_append hhead, cutAt_append hhead',
      Option.some.injEq, Prod.mk.injEq, List.append_cancel_right_eq] at hcut
    exact hcut
  · rintro ⟨rfl, rfl⟩
    rfl

theorem withoutBlanks_generic {head : List Char} (h : Compact head) (inner : List Char) :
    withoutBlanks (genericSpelling head inner) = genericSpelling head (withoutBlanks inner) := by
  simp only [Compact, withoutBlanks, genericSpelling, List.filter_append, List.filter_cons] at h ⊢
  rw [h]
  rfl

/-- Whether a text is a name, or a path that ends with it. -/
def Names (head name : List Char) : Prop :=
  head = name ∨ ':' :: ':' :: name <:+ head

instance (head name : List Char) : Decidable (Names head name) :=
  inferInstanceAs (Decidable (_ ∨ _))

variable {head name inner : List Char}

theorem genericArgument?_generic (hhead : '<' ∉ head) (hname : Names head name) :
    genericArgument? name (genericSpelling head inner) = some inner := by
  have hnamed : (head = name || (':' :: ':' :: name).isSuffixOf head) = true := by
    rwa [Bool.or_eq_true, decide_eq_true_eq, List.isSuffixOf_iff_suffix]
  rw [genericArgument?, genericSpelling, cutAt_append hhead, Option.bind_some]
  dsimp only
  rw [if_pos hnamed, List.getLast?_concat, if_pos rfl, List.dropLast_concat]

theorem genericArgument?_of_not_names (hhead : '<' ∉ head) (hname : ¬Names head name) :
    genericArgument? name (genericSpelling head inner) = none := by
  have hnamed : ¬(head = name || (':' :: ':' :: name).isSuffixOf head) = true := by
    rwa [Bool.or_eq_true, decide_eq_true_eq, List.isSuffixOf_iff_suffix]
  rw [genericArgument?, genericSpelling, cutAt_append hhead, Option.bind_some]
  exact if_neg hnamed

theorem stripOption_generic (hhead : '<' ∉ head) (hname : Names head "Option".toList) :
    stripOption (genericSpelling head inner) = (inner, true) := by
  rw [stripOption, genericArgument?_generic hhead hname]

theorem stripOption_of_not_names (hhead : '<' ∉ head) (hname : ¬Names head "Option".toList) :
    stripOption (genericSpelling head inner) = (genericSpelling head inner, false) := by
  rw [stripOption, genericArgument?_of_not_names hhead hname]

theorem listElement?_generic (hhead : '<' ∉ head) (hname : Names head "Vec".toList) :
    listElement? (genericSpelling head inner) = some inner :=
  genericArgument?_generic hhead hname

theorem fst_stripOption_of_required {spelling : List Char} (h : (stripOption spelling).2 = false) :
    (stripOption spelling).1 = spelling := by
  unfold stripOption at h ⊢
  split at h
  · cases h
  · rfl

end SchemaPlan
