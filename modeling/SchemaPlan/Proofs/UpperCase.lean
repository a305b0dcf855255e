import SchemaPlan.Text.Blank
import SchemaPlan.Text.LetterCase

/-!
# Upper case is final

What upper-casing makes of a character is left alone when it is upper-cased again. The tables are
checked run against run: no image of a run is among the characters that another run or an expansion
maps. A character that changes becomes letters, never a blank or a mark that a text is cut at.

* `upper_cases`: a character is its own upper case, or its upper case is made of `Capitalized`
  characters.
* `upper_of_mem`: the upper case of an upper case is itself.
-/
namespace SchemaPlan.Text

/-- A character that upper-casing keeps, and that is neither a blank nor a mark. -/
structure Capitalized (c : Char) : Prop where
  upper_eq : upper c = [c]
  not_blank : isBlank c = false
  letter : 0x41 ≤ c.toNat ∧ c.toNat ≤ 0x5A ∨ 0x80 ≤ c.toNat

/-! ## ASCII -/

theorem toNat_ofNat_of_valid {n : Nat} (h : n.isValidChar) : (Char.ofNat n).toNat = n := by
  rw [Char.ofNat, dif_pos h]
  rfl

theorem capitalized_ascii {n : Nat} (hlow : 0x41 ≤ n) (hhigh : n ≤ 0x5A) :
    Capitalized (Char.ofNat n) := by
  have hall : ∀ k, k < 26 → upper (Char.ofNat (0x41 + k)) = [Char.ofNat (0x41 + k)] ∧
      isBlank (Char.ofNat (0x41 + k)) = false := by decide
  obtain ⟨hupper, hblank⟩ := hall (n - 0x41) (by omega)
  rw [show 0x41 + (n - 0x41) = n by omega] at hupper hblank
  refine ⟨hupper, hblank, .inl ?_⟩
  rw [toNat_ofNat_of_valid (.inl (by omega))]
  exact ⟨hlow, hhigh⟩

theorem upper_ascii {c : Char} (h : c.toNat < 0x80) :
    upper c = [c] ∨ ∃ d, upper c = [d] ∧ Capitalized d := by
  have hall : ∀ n, n < 0x80 → upper (Char.ofNat n) = [Char.ofNat n] ∨
      (0x61 ≤ n ∧ n ≤ 0x7A ∧ upper (Char.ofNat n) = [Char.ofNat (n - 0x20)]) := by
    decide +kernel
  have hc := hall c.toNat h
  rw [Char.ofNat_toNat] at hc
  rcases hc with hsame | ⟨hlow, hhigh, hupper⟩
  · exact .inl hsame
  · exact .inr ⟨_, hupper, capitalized_ascii (by omega) (by omega)⟩

/-! ## The tables -/

/-- Whether a run has none of the codes `low`, `low + stride`, …, `high`. -/
def CaseRun.misses (run : CaseRun) (low high stride : Nat) : Bool :=
  Nat.blt high run.first || Nat.blt run.last low ||
    (Nat.beq run.step 2 && Nat.beq stride 2 && Nat.beq ((low + run.first) % 2) 1)

theorem apply?_of_misses {run : CaseRun} {low high stride code : Nat}
    (h : run.misses low high stride = true) (hlow : low ≤ code) (hhigh : code ≤ high)
    (hstride : (code - low) % stride = 0) : run.apply? code = none := by
  simp only [CaseRun.misses, Bool.or_eq_true, Bool.and_eq_true, Nat.blt_eq, Nat.beq_eq] at h
  unfold CaseRun.apply?
  rw [if_neg]
  simp only [Bool.and_eq_true, decide_eq_true_eq, beq_iff_eq, not_and]
  rintro ⟨hfirst, hlast⟩ hstep
  rcases h with (h | h) | ⟨⟨h2, hs⟩, hodd⟩
  · omega
  · omega
  · rw [h2] at hstep
    rw [hs] at hstride
    omega

/-- The blanks behind ASCII, as ranges. -/
def farBlanks : List (Nat × Nat) :=
  [(0x85, 0x85), (0xA0, 0xA0), (0x1680, 0x1680), (0x2000, 0x200A), (0x2028, 0x2029),
    (0x202F, 0x202F), (0x205F, 0x205F), (0x3000, 0x3000)]

/-- Whether the codes `low`, `low + stride`, …, `high` are characters behind ASCII that upper-casing
keeps and that are no blanks. -/
def areFinal (low high stride : Nat) : Bool :=
  Nat.ble 0x80 low && (Nat.blt high 0xD800 || (Nat.blt 0xDFFF low && Nat.blt high 0x110000)) &&
    farBlanks.all (fun range => Nat.blt high range.1 || Nat.blt range.2 low) &&
    upperRuns.all (fun run => run.misses low high stride) &&
    upperExpansions.all fun expansion =>
      CaseRun.misses ⟨expansion.1, expansion.1, 2, 0⟩ low high stride

theorem capitalized_of_areFinal {low high stride code : Nat} (h : areFinal low high stride = true)
    (hlow : low ≤ code) (hhigh : code ≤ high) (hstride : (code - low) % stride = 0) :
    Capitalized (Char.ofNat code) := by
  simp only [areFinal, Bool.and_eq_true, Bool.or_eq_true, Nat.ble_eq, Nat.blt_eq,
    List.all_eq_true] at h
  obtain ⟨⟨⟨⟨hascii, hvalid⟩, hblanks⟩, hruns⟩, hexpansions⟩ := h
  have hnat : (Char.ofNat code).toNat = code := by
    refine toNat_ofNat_of_valid ?_
    rcases hvalid with hvalid | hvalid
    · exact .inl (by omega)
    · exact .inr ⟨by omega, by omega⟩
  have hlookup : upperExpansions.lookup code = none := by
    rw [List.lookup_eq_none_iff]
    intro expansion hmem
    have hnone := apply?_of_misses (hexpansions expansion hmem) hlow hhigh hstride
    rw [bne_iff_ne]
    rintro rfl
    unfold CaseRun.apply? at hnone
    simp at hnone
  have hruns : upperRuns.findSome? (fun run => run.apply? code) = none :=
    List.findSome?_eq_none_iff.2 fun run hrun =>
      apply?_of_misses (hruns run hrun) hlow hhigh hstride
  refine ⟨?_, ?_, .inr (by omega)⟩
  · rw [upper, hnat, if_neg (by omega), hlookup]
    dsimp only
    rw [mapByRuns, hruns, Option.getD_none]
  · have hfar := fun range (hrange : range ∈ farBlanks) => hblanks range hrange
    simp only [farBlanks, List.forall_mem_cons] at hfar
    simp only [isBlank, hnat]
    simp
    omega

/-- How far apart the images of a run are; a single one may count as any distance. -/
def CaseRun.stride (run : CaseRun) : Nat :=
  if run.first = run.last then 2 else run.step

/-- Upper-casing maps every run to ASCII capitals or to characters that it keeps. -/
theorem upperRuns_final :
    upperRuns.all (fun run =>
      (Nat.ble 0x41 run.image && Nat.ble (run.image + (run.last - run.first)) 0x5A) ||
        areFinal run.image (run.image + (run.last - run.first)) run.stride) = true := by
  decide +kernel

theorem upperExpansions_final :
    upperExpansions.all (fun expansion => !expansion.2.isEmpty && expansion.2.all fun code =>
      (Nat.ble 0x41 code && Nat.ble code 0x5A) || areFinal code code 2) = true := by
  decide +kernel

theorem capitalized_of_run {run : CaseRun} (hrun : run ∈ upperRuns) {code image : Nat}
    (h : run.apply? code = some image) : Capitalized (Char.ofNat image) := by
  have hfinal := List.all_eq_true.1 upperRuns_final run hrun
  unfold CaseRun.apply? at h
  rw [Option.ite_none_right_eq_some] at h
  simp only [Bool.and_eq_true, decide_eq_true_eq, beq_iff_eq, Option.some.injEq] at h
  obtain ⟨⟨⟨hfirst, hlast⟩, hstep⟩, rfl⟩ := h
  simp only [Bool.or_eq_true, Bool.and_eq_true, Nat.ble_eq] at hfinal
  rcases hfinal with ⟨hlow, hhigh⟩ | hfinal
  · exact capitalized_ascii (by omega) (by omega)
  · refine capitalized_of_areFinal hfinal (by omega) (by omega) ?_
    rw [Nat.add_sub_cancel_left, CaseRun.stride]
    split
    · omega
    · exact hstep

theorem capitalized_of_expansion {expansion : Nat × List Nat} (h : expansion ∈ upperExpansions) :
    expansion.2 ≠ [] ∧ ∀ code ∈ expansion.2, Capitalized (Char.ofNat code) := by
  have hfinal := List.all_eq_true.1 upperExpansions_final expansion h
  simp only [Bool.and_eq_true, Bool.not_eq_true', List.isEmpty_eq_false_iff, List.all_eq_true,
    Bool.or_eq_true, Nat.ble_eq] at hfinal
  refine ⟨hfinal.1, fun code hcode => ?_⟩
  rcases hfinal.2 code hcode with ⟨hlow, hhigh⟩ | hfinal
  · exact capitalized_ascii hlow hhigh
  · exact capitalized_of_areFinal hfinal (Nat.le_refl _) (Nat.le_refl _) (by simp)

/-- A character is its own upper case, or its upper case is made of capitalized characters. -/
theorem upper_cases (c : Char) :
    upper c = [c] ∨ upper c ≠ [] ∧ ∀ d ∈ upper c, Capitalized d := by
  by_cases hascii : c.toNat < 0x80
  · rcases upper_ascii hascii with hsame | ⟨d, hupper, hd⟩
    · exact .inl hsame
    · refine .inr ⟨by simp [hupper], fun e he => ?_⟩
      rw [hupper, List.mem_singleton] at he
      exact he ▸ hd
  · rw [upper, if_neg hascii]
    cases hlookup : upperExpansions.lookup c.toNat with
    | some image =>
      obtain ⟨_, _, htable, -⟩ := List.lookup_eq_some_iff.1 hlookup
      obtain ⟨hne, hall⟩ := @capitalized_of_expansion (c.toNat, image)
        (htable ▸ List.mem_append_right _ List.mem_cons_self)
      refine .inr ⟨by simpa using hne, fun d hd => ?_⟩
      obtain ⟨code, hcode, rfl⟩ := List.mem_map.1 hd
      exact hall code hcode
    | none =>
      dsimp only
      rw [mapByRuns]
      cases hruns : upperRuns.findSome? fun run => run.apply? c.toNat with
      | none =>
        rw [Option.getD_none, Char.ofNat_toNat]
        exact .inl rfl
      | some image =>
        obtain ⟨run, hrun, happly⟩ := List.exists_of_findSome?_eq_some hruns
        refine .inr ⟨List.cons_ne_nil _ _, fun d hd => ?_⟩
        rw [List.mem_singleton.1 hd]
        exact capitalized_of_run hrun happly

theorem upper_of_mem {c d : Char} (h : d ∈ upper c) : upper d = [d] := by
  rcases upper_cases c with hsame | ⟨-, hall⟩
  · rw [hsame, List.mem_singleton] at h
    rw [h, hsame]
  · exact (hall d h).upper_eq

theorem not_blank_of_mem_upper {c d : Char} (hc : isBlank c = false) (h : d ∈ upper c) :
    isBlank d = false := by
  rcases upper_cases c with hsame | ⟨-, hall⟩
  · rw [hsame, List.mem_singleton] at h
    rwa [h]
  · exact (hall d h).not_blank

/-- Upper-casing makes no ASCII mark, and changes none. -/
theorem eq_of_mem_upper {c d : Char} (hd : d.toNat < 0x41 ∨ 0x5A < d.toNat ∧ d.toNat < 0x80)
    (h : d ∈ upper c) : c = d := by
  rcases upper_cases c with hsame | ⟨-, hall⟩
  · rw [hsame, List.mem_singleton] at h
    exact h.symm
  · have := (hall d h).letter
    omega

end SchemaPlan.Text
