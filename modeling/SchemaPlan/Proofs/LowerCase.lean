import SchemaPlan.Proofs.TextPieces
import SchemaPlan.Proofs.UpperCase

/-!
# ASCII letters in lower case

Lower-casing changes the 26 capital letters of ASCII and nothing else. It makes no blanks and no
marks, and does not show in upper case.

* `toLower_cases`: a character stays, or is a capital letter and becomes the small one.
* `upper_eq_of_toLower_eq`: characters that differ in case have one upper case.
-/
namespace SchemaPlan.Text

/-! ## Characters -/

theorem toLower_cases (c : Char) :
    c.toLower = c ∨ 65 ≤ c.toNat ∧ c.toNat ≤ 90 ∧ c.toLower.toNat = c.toNat + 32 := by
  by_cases h : c.val ≥ 'A'.val ∧ c.val ≤ 'Z'.val
  · refine .inr ⟨UInt32.le_iff_toNat_le.1 h.1, UInt32.le_iff_toNat_le.1 h.2, ?_⟩
    have hlast : c.val.toNat ≤ 90 := UInt32.le_iff_toNat_le.1 h.2
    have hlower : c.toLower.val = c.val + 32 := congrArg Char.val (dif_pos h)
    show c.toLower.val.toNat = c.val.toNat + 32
    rw [hlower, UInt32.toNat_add]
    exact Nat.mod_eq_of_lt (show c.val.toNat + 32 < 4294967296 by omega)
  · exact .inl (dif_neg h)

theorem toLower_toLower (c : Char) : c.toLower.toLower = c.toLower := by
  rcases toLower_cases c with h | ⟨hfirst, -, hcode⟩
  · rw [h, h]
  · rcases toLower_cases c.toLower with h | ⟨-, hlast, -⟩
    · exact h
    · omega

/-- A character in front of the small letters comes from itself only. -/
theorem eq_of_toLower_eq {c d : Char} (hd : d.toNat < 97) (h : c.toLower = d) : c = d := by
  rcases toLower_cases c with hsame | ⟨hfirst, -, hcode⟩
  · rw [← h, hsame]
  · rw [h] at hcode
    omega

theorem isBlank_toLower (c : Char) : isBlank c.toLower = isBlank c := by
  rcases toLower_cases c with h | ⟨hfirst, hlast, hcode⟩
  · rw [h]
  · simp only [isBlank, hcode]
    grind

theorem toLower_of_lt {c : Char} (h : c.toNat < 65) : c.toLower = c :=
  (toLower_cases c).resolve_right (by omega)

theorem toUpper_of_lt {c : Char} (h : c.toNat < 97) : c.toUpper = c := by
  refine dif_neg fun hletter => ?_
  have hfirst : 97 ≤ c.toNat := UInt32.le_iff_toNat_le.1 hletter.1
  omega

/-- The case of an ASCII letter does not show in upper case. -/
theorem upper_toLower (c : Char) : upper c.toLower = upper c := by
  rcases toLower_cases c with h | ⟨-, hlast, -⟩
  · rw [h]
  · have hall : ∀ n, n < 0x80 → upper (Char.ofNat n).toLower = upper (Char.ofNat n) := by
      decide +kernel
    have hc := hall c.toNat (by omega)
    rwa [Char.ofNat_toNat] at hc

theorem upper_eq_of_toLower_eq {c d : Char} (h : c.toLower = d.toLower) : upper c = upper d := by
  rw [← upper_toLower c, h, upper_toLower]

/-! ## Texts -/

theorem lowerAscii_lowerAscii (cs : List Char) : lowerAscii (lowerAscii cs) = lowerAscii cs := by
  rw [lowerAscii, lowerAscii, List.map_map]
  exact List.map_congr_left fun c _ => toLower_toLower c

theorem mem_of_mem_lowerAscii {cs : List Char} {d : Char} (hd : d.toNat < 97)
    (h : d ∈ lowerAscii cs) : d ∈ cs := by
  obtain ⟨c, hc, hlower⟩ := List.mem_map.1 h
  rwa [← eq_of_toLower_eq hd hlower]

theorem Trimmed.lowerAscii {cs : List Char} (h : Trimmed cs) : Trimmed (lowerAscii cs) := by
  refine ⟨fun d hd => ?_, fun d hd => ?_⟩
  · rw [Text.lowerAscii, List.head?_map] at hd
    obtain ⟨c, hc, rfl⟩ := Option.map_eq_some_iff.1 hd
    rw [isBlank_toLower, h.head c hc]
  · rw [Text.lowerAscii, List.getLast?_map] at hd
    obtain ⟨c, hc, rfl⟩ := Option.map_eq_some_iff.1 hd
    rw [isBlank_toLower, h.last c hc]

end SchemaPlan.Text
