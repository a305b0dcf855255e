import Mathlib.Data.List.Forall2
import Mathlib.Data.List.Nodup
import SchemaPlan.Catalog

/-!
# Sorted lists

A list that is sorted by an order without ties does not show the order in which its elements came.

* `mergeSort_congr`: lists with the same elements are sorted alike.
* `mergeSort_eq_of_perm`: sorting restores a list that is ordered by different ranks.
* `forall₂_mergeSort`: sorting keeps a correspondence of lists.
* `keyPartBefore_trans`, `keyPartBefore_total`, `keyPartBefore_antisymm`: the order of the parts of
  a key has no ties.
-/
namespace SchemaPlan

variable {α : Type} {le : α → α → Bool}

/-- Lists with the same elements, among which there are no ties, are sorted alike. -/
theorem mergeSort_congr (htrans : ∀ a b c, le a b = true → le b c = true → le a c = true)
    (htotal : ∀ a b, (le a b || le b a) = true) {l l' : List α} (hperm : l.Perm l')
    (hties : ∀ a ∈ l, ∀ b ∈ l, le a b = true → le b a = true → a = b) :
    l.mergeSort le = l'.mergeSort le := by
  have hall : (l.mergeSort le).Perm (l'.mergeSort le) :=
    ((List.mergeSort_perm l le).trans hperm).trans (List.mergeSort_perm l' le).symm
  refine hall.eq_of_pairwise (fun a b ha hb => hties a ?_ b ?_)
    (List.pairwise_mergeSort htrans htotal l) (List.pairwise_mergeSort htrans htotal l')
  · exact List.mem_mergeSort.1 ha
  · exact hperm.mem_iff.2 (List.mem_mergeSort.1 hb)

/-- Sorting restores a list that is ordered by different ranks. -/
theorem mergeSort_eq_of_perm {rank : α → Nat}
    (htrans : ∀ a b c, le a b = true → le b c = true → le a c = true)
    (htotal : ∀ a b, (le a b || le b a) = true) (hrank : ∀ a b, le a b = true → rank a ≤ rank b)
    {l sorted : List α} (hperm : l.Perm sorted)
    (hsorted : sorted.Pairwise fun a b => rank a < rank b) : l.mergeSort le = sorted := by
  have hle : sorted.Pairwise fun a b => le a b = true := by
    refine hsorted.imp fun {a b} hlt => ?_
    rcases Bool.or_eq_true_iff.1 (htotal a b) with h | h
    · exact h
    · exact absurd (hrank b a h) (Nat.not_le_of_lt hlt)
  have hranks : (sorted.map rank).Nodup :=
    List.pairwise_map.2 (hsorted.imp Nat.ne_of_lt)
  rw [mergeSort_congr htrans htotal hperm fun a ha b hb hab hba =>
    List.inj_on_of_nodup_map hranks (hperm.mem_iff.1 ha) (hperm.mem_iff.1 hb)
      (Nat.le_antisymm (hrank a b hab) (hrank b a hba))]
  exact List.mergeSort_of_pairwise hle

/-- Lists that correspond, and whose elements compare alike, are sorted into lists that
correspond. -/
theorem forall₂_mergeSort {β : Type} {R : α → β → Prop} {le' : β → β → Bool}
    (hle : ∀ a b c d, R a b → R c d → le a c = le' b d) {l : List α} {l' : List β}
    (h : List.Forall₂ R l l') : List.Forall₂ R (l.mergeSort le) (l'.mergeSort le') := by
  obtain ⟨hlength, hpairs⟩ := List.forall₂_iff_zip.1 h
  -- both lists are sorted as one list of pairs
  have hleft : ((l.zip l').mergeSort fun x y => le x.1 y.1).map Prod.fst = l.mergeSort le := by
    rw [List.map_mergeSort (s := le) fun _ _ _ _ => rfl, List.map_fst_zip (Nat.le_of_eq hlength)]
  have hright : ((l.zip l').mergeSort fun x y => le x.1 y.1).map Prod.snd = l'.mergeSort le' := by
    rw [List.map_mergeSort (s := le') fun x hx y hy => hle _ _ _ _ (hpairs hx) (hpairs hy),
      List.map_snd_zip (Nat.le_of_eq hlength.symm)]
  rw [← hleft, ← hright, List.forall₂_map_left_iff, List.forall₂_map_right_iff, List.forall₂_same]
  exact fun x hx => hpairs (List.mem_mergeSort.1 hx)

/-! ## Parts of keys -/

theorem keyPartBefore_trans (a b c : Nat × String) (hab : keyPartBefore a b = true)
    (hbc : keyPartBefore b c = true) : keyPartBefore a c = true := by
  simp only [keyPartBefore, Bool.or_eq_true, Bool.and_eq_true, decide_eq_true_eq,
    beq_iff_eq] at hab hbc ⊢
  rcases hab with hab | ⟨hab, hab'⟩
  · left
    omega
  · rcases hbc with hbc | ⟨hbc, hbc'⟩
    · left
      omega
    · exact .inr ⟨hab.trans hbc, String.le_trans hab' hbc'⟩

theorem keyPartBefore_total (a b : Nat × String) :
    (keyPartBefore a b || keyPartBefore b a) = true := by
  simp only [keyPartBefore, Bool.or_eq_true, Bool.and_eq_true, decide_eq_true_eq, beq_iff_eq]
  rcases Nat.lt_trichotomy a.1 b.1 with h | h | h
  · exact .inl (.inl h)
  · exact (String.le_total a.2 b.2).imp (fun hle => .inr ⟨h, hle⟩) fun hle => .inr ⟨h.symm, hle⟩
  · exact .inr (.inl h)

theorem fst_le_of_keyPartBefore (a b : Nat × String) (h : keyPartBefore a b = true) :
    a.1 ≤ b.1 := by
  simp only [keyPartBefore, Bool.or_eq_true, Bool.and_eq_true, decide_eq_true_eq, beq_iff_eq] at h
  omega

theorem keyPartBefore_antisymm (a b : Nat × String) (hab : keyPartBefore a b = true)
    (hba : keyPartBefore b a = true) : a = b := by
  simp only [keyPartBefore, Bool.or_eq_true, Bool.and_eq_true, decide_eq_true_eq, beq_iff_eq]
    at hab hba
  refine Prod.ext (by omega) (String.le_antisymm ?_ ?_)
  · exact (hab.resolve_left (by omega)).2
  · exact (hba.resolve_left (by omega)).2

end SchemaPlan
