import Mathlib.Tactic.NormNum
import SchemaPlan.Proofs.Binary64

/-!
# The nearest binary64 number

What rounding to binary64 gives is a nearest binary64 number, and of two the one with the even
mantissa; it gives a number exactly below half-way from the greatest one to what would be the next.

* `IsNearest`: the nearest numbers, said by distances.
* `Rounds.isNearest`: a number is nearest to all that is in its interval.
* `rounds_of_toBinary64`: a literal is in the interval of the number that it is rounded to.
* `limit_le_of_toBinary64`: literals that are not rounded to a number are too large.
-/
namespace SchemaPlan.Decimal

/-- A nearest binary64 number. If another one is as near, then the mantissa is even. -/
structure IsNearest (mantissa : ℕ) (exponent : ℤ) (q : ℚ) : Prop where
  representable : Representable mantissa exponent
  nearest : ∀ m e, Representable m e → |q - mantissa * 2 ^ exponent| ≤ |q - m * 2 ^ e|
  even : ∀ m e, Representable m e → (m * 2 ^ e : ℚ) ≠ mantissa * 2 ^ exponent →
    |q - mantissa * 2 ^ exponent| = |q - m * 2 ^ e| → mantissa % 2 = 0

/-- The least magnitude that is too large for a binary64 number. -/
def binary64Limit : ℚ := (2 ^ 53 - 1 / 2) * 2 ^ (971 : ℤ)

/-! ## The distances of binary64 numbers -/

theorem exists_multiple (m : ℕ) {exponent e : ℤ} (h : exponent ≤ e) :
    ∃ units : ℕ, (m * 2 ^ e : ℚ) = units * 2 ^ exponent := by
  refine ⟨m * 2 ^ (e - exponent).toNat, ?_⟩
  have hexponent : e = (e - exponent).toNat + exponent := by omega
  conv_lhs => rw [hexponent, zpow_two_add, zpow_natCast]
  push_cast
  ring

section
variable {mantissa m : ℕ} {exponent e : ℤ} (h : Representable mantissa exponent)
  (hm : Representable m e)
include h hm

theorem Representable.lt_leading (hlt : e < exponent) :
    (m * 2 ^ e : ℚ) ≤ (2 ^ 52 - 1 / 2) * 2 ^ exponent ∧ 2 ^ 52 ≤ mantissa := by
  refine ⟨?_, h.leading (hm.least.trans_lt hlt)⟩
  have hbound : (m : ℚ) ≤ 2 ^ 53 - 1 := by
    have := hm.bound
    rw [le_sub_iff_add_le]
    exact_mod_cast this
  have hdouble : (2 : ℚ) * 2 ^ e ≤ 2 ^ exponent := by
    rw [mul_comm, ← zpow_add_one₀ two_ne_zero]
    exact zpow_le_zpow_right₀ one_le_two hlt
  have hpow := zpow_two_pos e
  nlinarith

theorem Representable.add_one_le (hlt : (mantissa * 2 ^ exponent : ℚ) < m * 2 ^ e) :
    ((mantissa + 1) * 2 ^ exponent : ℚ) ≤ m * 2 ^ e := by
  have hpow := zpow_two_pos exponent
  rcases le_or_gt exponent e with hexponent | hexponent
  · obtain ⟨units, hunits⟩ := exists_multiple m hexponent
    rw [hunits, mul_lt_mul_iff_left₀ hpow] at hlt
    rw [hunits, mul_le_mul_iff_left₀ hpow]
    exact_mod_cast hlt
  · obtain ⟨hsmall, hlead⟩ := h.lt_leading hm hexponent
    have hmantissa : (2 ^ 52 : ℚ) ≤ mantissa := by exact_mod_cast hlead
    have hle : (2 ^ 52 * 2 ^ exponent : ℚ) ≤ mantissa * 2 ^ exponent :=
      mul_le_mul_of_nonneg_right hmantissa hpow.le
    linarith

/-- The number before is twice the gap away. -/
theorem Representable.le_sub_gap (hlt : (m * 2 ^ e : ℚ) < mantissa * 2 ^ exponent) :
    (m * 2 ^ e : ℚ) ≤ (mantissa - 2 * gapBelow mantissa exponent) * 2 ^ exponent := by
  have hpow := zpow_two_pos exponent
  have hgap := gapBelow_le mantissa exponent
  rcases le_or_gt exponent e with hexponent | hexponent
  · obtain ⟨units, hunits⟩ := exists_multiple m hexponent
    rw [hunits, mul_lt_mul_iff_left₀ hpow] at hlt
    have hless : (units : ℚ) + 1 ≤ mantissa := by exact_mod_cast hlt
    rw [hunits, mul_le_mul_iff_left₀ hpow]
    linarith
  · obtain ⟨hsmall, hlead⟩ := h.lt_leading hm hexponent
    refine hsmall.trans (mul_le_mul_of_nonneg_right ?_ hpow.le)
    by_cases hfirst : mantissa = 2 ^ 52
    · have hquarter : gapBelow mantissa exponent = 1 / 4 :=
        if_pos ⟨hfirst, hm.least.trans_lt hexponent⟩
      rw [hquarter, hfirst]
      norm_num
    · have hmore : (2 ^ 52 : ℚ) + 1 ≤ mantissa := by
        exact_mod_cast Nat.lt_of_le_of_ne hlead (Ne.symm hfirst)
      linarith

end

/-- Of two numbers, the one on the same side of the middle is nearer, and both are as near only in
the middle. -/
theorem abs_sub_le_of_side {q near far : ℚ}
    (h : near < far ∧ 2 * q ≤ near + far ∨ far < near ∧ near + far ≤ 2 * q) :
    |q - near| ≤ |q - far| ∧ (|q - near| = |q - far| → 2 * q = near + far) := by
  rcases h with ⟨hlt, hmiddle⟩ | ⟨hlt, hmiddle⟩
  · have hfar : |q - far| = far - q := by rw [abs_sub_comm, abs_of_nonneg (by linarith)]
    rw [hfar]
    rcases abs_cases (q - near) with ⟨hnear, -⟩ | ⟨hnear, -⟩ <;> rw [hnear] <;>
      exact ⟨by linarith, fun heq => by linarith⟩
  · have hfar : |q - far| = q - far := abs_of_nonneg (by linarith)
    rw [hfar]
    rcases abs_cases (q - near) with ⟨hnear, -⟩ | ⟨hnear, -⟩ <;> rw [hnear] <;>
      exact ⟨by linarith, fun heq => by linarith⟩

theorem Rounds.isNearest {mantissa : ℕ} {exponent : ℤ} {q : ℚ}
    (hrounds : Rounds mantissa exponent q) (h : Representable mantissa exponent) :
    IsNearest mantissa exponent q := by
  have hbetween (m : ℕ) (e : ℤ) (hm : Representable m e)
      (hne : (m * 2 ^ e : ℚ) ≠ mantissa * 2 ^ exponent) :
      |q - mantissa * 2 ^ exponent| ≤ |q - m * 2 ^ e| ∧
        (|q - mantissa * 2 ^ exponent| = |q - m * 2 ^ e| → mantissa % 2 = 0) := by
    have hlow := hrounds.low
    have hhigh := hrounds.high
    rcases lt_or_gt_of_ne hne with hbelow | habove
    · have hgap := h.le_sub_gap hm hbelow
      obtain ⟨hle, hmiddle⟩ := abs_sub_le_of_side (q := q) (.inr ⟨hbelow, by linarith⟩)
      refine ⟨hle, fun heq => ?_⟩
      by_contra hodd
      linarith [hmiddle heq, (hrounds.odd (by omega)).1]
    · have hnext := h.add_one_le hm habove
      obtain ⟨hle, hmiddle⟩ := abs_sub_le_of_side (q := q) (.inl ⟨habove, by linarith⟩)
      refine ⟨hle, fun heq => ?_⟩
      by_contra hodd
      linarith [hmiddle heq, (hrounds.odd (by omega)).2]
  refine ⟨h, fun m e hm => ?_, fun m e hm hne => (hbetween m e hm hne).2⟩
  by_cases hsame : (m * 2 ^ e : ℚ) = mantissa * 2 ^ exponent
  · rw [hsame]
  · exact (hbetween m e hm hsame).1

/-! ## What rounding gives -/

theorem roundDiv_toEven_bounds (num : ℕ) {den : ℕ} (hden : 0 < den) :
    (roundDiv .toEven num den : ℚ) - 1 / 2 ≤ num / den ∧
      (num / den : ℚ) ≤ roundDiv .toEven num den + 1 / 2 ∧
      (roundDiv .toEven num den % 2 = 1 → (roundDiv .toEven num den : ℚ) - 1 / 2 < num / den ∧
        (num / den : ℚ) < roundDiv .toEven num den + 1 / 2) := by
  obtain ⟨rest, hquotient, hzero, hone, hround⟩ := roundDiv_toEven_eq num hden
  rw [hround, hquotient]
  generalize num / den = floor
  split
  case isTrue hrest =>
    push_cast
    rcases hrest with hrest | ⟨hrest, hodd⟩
    · exact ⟨by linarith, by linarith, fun _ => ⟨by linarith, by linarith⟩⟩
    · exact ⟨by linarith, by linarith, fun heven => by omega⟩
  case isFalse hrest =>
    rw [not_or, not_and, not_lt] at hrest
    refine ⟨by linarith, by linarith, fun hodd => ⟨by linarith, ?_⟩⟩
    have := lt_of_le_of_ne hrest.1 fun heq => hrest.2 heq hodd
    linarith

theorem roundedMantissa_bounds (num : ℕ) {den : ℕ} (hden : 0 < den) (exponent : ℤ) :
    (roundedMantissa num den exponent - 1 / 2 : ℚ) * 2 ^ exponent ≤ num / den ∧
      (num / den : ℚ) ≤ (roundedMantissa num den exponent + 1 / 2) * 2 ^ exponent ∧
      (roundedMantissa num den exponent % 2 = 1 →
        (roundedMantissa num den exponent - 1 / 2 : ℚ) * 2 ^ exponent < num / den ∧
          (num / den : ℚ) < (roundedMantissa num den exponent + 1 / 2) * 2 ^ exponent) := by
  obtain ⟨hpos, hscaled⟩ := scaleDown_spec num hden exponent
  have hbounds := roundDiv_toEven_bounds (scaleDown num den exponent).1 hpos
  have hpow := zpow_two_pos exponent
  rw [hscaled, le_div_iff₀ hpow, div_le_iff₀ hpow, lt_div_iff₀ hpow, div_lt_iff₀ hpow] at hbounds
  exact hbounds

section
variable {num den : ℕ} (hnum : 0 < num) (hden : 0 < den)
include hnum hden

/-- A quotient is in the interval of the number that it is rounded to. -/
theorem rounds_of_nearest {mantissa : ℕ} {exponent : ℤ}
    (h : Binary64.nearest num den = .finite mantissa exponent) :
    Rounds mantissa exponent (num / den) := by
  obtain ⟨hleast, hhigh, hlead⟩ := unitExponent_spec hnum hden
  obtain ⟨hlow, hbound, hodd⟩ := roundedMantissa_bounds num hden (unitExponent num den)
  have hpow := zpow_two_pos (unitExponent num den)
  generalize hexponent : unitExponent num den = exponent' at *
  rcases Nat.lt_or_ge (roundedMantissa num den exponent') (2 ^ 53) with hless | hfull
  · rw [nearest_of_lt hnum hexponent hless] at h
    split at h
    case isFalse => cases h
    case isTrue =>
      obtain ⟨rfl, rfl⟩ := Binary64.finite.inj h
      by_cases hfirst : roundedMantissa num den exponent' = 2 ^ 52 ∧ -1074 < exponent'
      · have hmantissa : (roundedMantissa num den exponent' : ℚ) = 2 ^ 52 := by
          rw [hfirst.1]
          norm_num
        refine ⟨?_, hbound, fun hone => absurd hone (by rw [hfirst.1]; decide)⟩
        calc (roundedMantissa num den exponent' - gapBelow _ exponent') * (2 : ℚ) ^ exponent'
            ≤ 2 ^ 52 * 2 ^ exponent' := by
              refine mul_le_mul_of_nonneg_right ?_ hpow.le
              linarith [gapBelow_pos (roundedMantissa num den exponent') exponent']
          _ ≤ num / den := hlead hfirst.2
      · have hgap : gapBelow (roundedMantissa num den exponent') exponent' = 1 / 2 :=
          if_neg hfirst
        exact ⟨by rw [hgap]; exact hlow, hbound, by rw [hgap]; exact hodd⟩
  · rw [nearest_of_le hnum hexponent hfull] at h
    split at h
    case isFalse => cases h
    case isTrue =>
      obtain ⟨rfl, rfl⟩ := Binary64.finite.inj h
      -- The mantissa was rounded up to a power of two, below which the gap is a quarter.
      have hgap : gapBelow (2 ^ 52) (exponent' + 1) = 1 / 4 := if_pos ⟨rfl, by omega⟩
      have hdouble : (2 : ℚ) ^ (exponent' + 1) = 2 * 2 ^ exponent' := by
        rw [zpow_add_one₀ two_ne_zero, mul_comm]
      have hmantissa : (2 ^ 53 - 1 / 2) * (2 : ℚ) ^ exponent' ≤ num / den := by
        refine le_trans (mul_le_mul_of_nonneg_right ?_ hpow.le) hlow
        exact sub_le_sub_right (by exact_mod_cast hfull) _
      refine ⟨?_, ?_, fun hone => absurd hone (by decide)⟩
      · rw [hgap, hdouble]
        push_cast
        linarith
      · rw [hdouble]
        push_cast
        linarith

/-- A quotient that is not rounded to a number is too large for one. -/
theorem limit_le_of_nearest (h : Binary64.nearest num den = .infinite) :
    binary64Limit ≤ num / den := by
  obtain ⟨hleast, hhigh, hlead⟩ := unitExponent_spec hnum hden
  obtain ⟨hlow, -, -⟩ := roundedMantissa_bounds num hden (unitExponent num den)
  have hpow := zpow_two_pos (unitExponent num den)
  have hunit := zpow_two_pos 971
  unfold binary64Limit
  generalize hexponent : unitExponent num den = exponent at *
  rcases Nat.lt_or_ge (roundedMantissa num den exponent) (2 ^ 53) with hless | hfull
  · rw [nearest_of_lt hnum hexponent hless] at h
    split at h
    case isTrue => cases h
    case isFalse hgreat =>
      have hmono : (2 : ℚ) * 2 ^ (971 : ℤ) ≤ 2 ^ exponent := by
        rw [mul_comm, ← zpow_add_one₀ two_ne_zero]
        exact zpow_le_zpow_right₀ one_le_two (by omega)
      have hquotient := hlead (by omega)
      generalize (2 : ℚ) ^ (971 : ℤ) = unit at *
      linarith
  · rw [nearest_of_le hnum hexponent hfull] at h
    split at h
    case isTrue => cases h
    case isFalse hgreat =>
      have hmono : (2 : ℚ) ^ (971 : ℤ) ≤ 2 ^ exponent :=
        zpow_le_zpow_right₀ one_le_two (by omega)
      refine le_trans (mul_le_mul ?_ hmono hunit.le ?_) hlow
      · exact sub_le_sub_right (by exact_mod_cast hfull) _
      · exact sub_nonneg.2 ((by norm_num : (1 / 2 : ℚ) ≤ 2 ^ 53).trans (by exact_mod_cast hfull))

end

theorem Representable.lt_limit {mantissa : ℕ} {exponent : ℤ} {q : ℚ}
    (h : Representable mantissa exponent) (hrounds : Rounds mantissa exponent q) :
    q < binary64Limit := by
  have hmono : (2 : ℚ) ^ exponent ≤ 2 ^ (971 : ℤ) := zpow_le_zpow_right₀ one_le_two h.greatest
  have hlimit : (2 ^ 53 - 1 / 2) * (2 : ℚ) ^ exponent ≤ binary64Limit :=
    mul_le_mul_of_nonneg_left hmono (by norm_num)
  rcases Nat.lt_or_ge (mantissa + 1) (2 ^ 53) with hless | hlast
  · have hmantissa : (mantissa : ℚ) + 1 < 2 ^ 53 := by exact_mod_cast hless
    refine (hrounds.high.trans_lt ?_).trans_le hlimit
    exact mul_lt_mul_of_pos_right (by linarith) (zpow_two_pos exponent)
  · -- The greatest mantissa is odd, so the upper end is outside.
    have hmantissa : mantissa = 2 ^ 53 - 1 := by have := h.bound; omega
    refine ((hrounds.odd (by omega)).2.trans_le ?_).trans_le hlimit
    refine mul_le_mul_of_nonneg_right ?_ (zpow_two_pos exponent).le
    rw [hmantissa]
    norm_num

/-! ## Literals -/

/-- A literal is in the interval of the number that it is rounded to. -/
theorem rounds_of_toBinary64 {number : Literal} {mantissa : ℕ} {exponent : ℤ}
    (h : number.toBinary64 = .finite mantissa exponent) :
    Rounds mantissa exponent number.magnitude := by
  obtain ⟨hzero, hsmall⟩ | ⟨hinfinite, -⟩ | ⟨num, den, hnum, hden, hvalue, hnearest⟩ :=
    toBinary64_cases number
  · obtain ⟨rfl, rfl⟩ := Binary64.finite.inj (hzero.symm.trans h)
    have hnonneg : 0 ≤ number.magnitude := mul_nonneg (Nat.cast_nonneg _) (zpow_ten_pos _).le
    refine ⟨?_, ?_, fun hone => absurd hone (by decide)⟩
    · refine le_trans (mul_nonpos_of_nonpos_of_nonneg ?_ (zpow_two_pos _).le) hnonneg
      rw [Nat.cast_zero, zero_sub, neg_nonpos]
      exact (gapBelow_pos _ _).le
    · rw [Nat.cast_zero, zero_add]
      exact hsmall.le.trans binary64_range.1
  · exact absurd (hinfinite.symm.trans h) nofun
  · rw [hvalue]
    exact rounds_of_nearest hnum hden (hnearest.symm.trans h)

theorem limit_le_of_toBinary64 {number : Literal} (h : number.toBinary64 = .infinite) :
    binary64Limit ≤ number.magnitude := by
  obtain ⟨hzero, -⟩ | ⟨-, hlarge⟩ | ⟨num, den, hnum, hden, hvalue, hnearest⟩ :=
    toBinary64_cases number
  · exact absurd (hzero.symm.trans h) nofun
  · have hlimit : binary64Limit ≤ 2 ^ 53 * 2 ^ (971 : ℤ) :=
      mul_le_mul_of_nonneg_right (by norm_num) (zpow_two_pos _).le
    exact hlimit.trans (binary64_range.2.trans hlarge)
  · rw [hvalue]
    exact limit_le_of_nearest hnum hden (hnearest.symm.trans h)

end SchemaPlan.Decimal
