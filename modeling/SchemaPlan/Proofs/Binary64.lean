import Mathlib.Algebra.Order.Field.Power
import Mathlib.Tactic.Linarith
import Mathlib.Tactic.Positivity
import Mathlib.Tactic.Ring
import SchemaPlan.Decimal.Binary64
import SchemaPlan.Proofs.PlainPlaces

/-!
# Rounding to binary64

A binary64 number `mantissa · 2 ^ exponent` is the nearest one of all numbers in an interval around
it, which ends half-way to its neighbours. The ends belong to it if its mantissa is even. Here the
rounding of quotients, which is done on natural numbers, is compared with this interval of rational
numbers.

* `Representable`: the finite binary64 numbers, and `representable_of_toBinary64`: rounding gives no
  others.
* `Rounds`: the interval of a number.
* `nearest_of_rounds`: quotients in the interval of a number are rounded to it.
* `toBinary64_cases`: literals are rounded as quotients, and `toBinary64_of_rounds`: so they are
  rounded to the number in whose interval they are.
-/
namespace SchemaPlan.Decimal

/-- The mantissas and exponents of finite binary64 numbers: the mantissa has 53 bits unless the
exponent is the least one. -/
structure Representable (mantissa : ℕ) (exponent : ℤ) : Prop where
  bound : mantissa < 2 ^ 53
  least : -1074 ≤ exponent
  greatest : exponent ≤ 971
  leading : -1074 < exponent → 2 ^ 52 ≤ mantissa

/-- How far below a number, in units of its last place, its interval starts: below a power of two
the numbers are twice as dense. -/
def gapBelow (mantissa : ℕ) (exponent : ℤ) : ℚ :=
  if mantissa = 2 ^ 52 ∧ -1074 < exponent then 1 / 4 else 1 / 2

/-- The numbers that round to a binary64 number. Those at the ends of the interval go to an even
mantissa. -/
structure Rounds (mantissa : ℕ) (exponent : ℤ) (q : ℚ) : Prop where
  low : (mantissa - gapBelow mantissa exponent) * 2 ^ exponent ≤ q
  high : q ≤ (mantissa + 1 / 2) * 2 ^ exponent
  odd : mantissa % 2 = 1 →
    (mantissa - gapBelow mantissa exponent) * 2 ^ exponent < q ∧ q < (mantissa + 1 / 2) * 2 ^ exponent

/-! ## Quotients and powers -/

theorem zpow_two_pos (exponent : ℤ) : (0 : ℚ) < 2 ^ exponent := zpow_pos two_pos exponent

theorem zpow_ten_pos (exponent : ℤ) : (0 : ℚ) < 10 ^ exponent := zpow_pos (by norm_num) exponent

theorem zpow_of_nonneg (base : ℚ) {exponent : ℤ} (h : 0 ≤ exponent) :
    base ^ exponent = base ^ exponent.toNat := by
  rw [← zpow_natCast, Int.toNat_of_nonneg h]

theorem zpow_of_neg (base : ℚ) {exponent : ℤ} (h : ¬0 ≤ exponent) :
    base ^ exponent = (base ^ (-exponent).toNat)⁻¹ := by
  rw [← zpow_natCast, Int.toNat_of_nonneg (by omega), zpow_neg, inv_inv]

theorem scaleDown_spec (num : ℕ) {den : ℕ} (hden : 0 < den) (exponent : ℤ) :
    0 < (scaleDown num den exponent).2 ∧
      ((scaleDown num den exponent).1 / (scaleDown num den exponent).2 : ℚ) =
        num / den / 2 ^ exponent := by
  unfold scaleDown
  simp only [Nat.pow_eq]
  split
  case isTrue h =>
    refine ⟨by positivity, ?_⟩
    rw [zpow_of_nonneg 2 h]
    push_cast
    rw [div_div]
  case isFalse h =>
    refine ⟨hden, ?_⟩
    rw [zpow_of_neg 2 h]
    push_cast
    rw [div_inv_eq_mul, div_mul_eq_mul_div]

theorem binaryFraction_spec (mantissa : ℕ) (exponent : ℤ) :
    0 < (binaryFraction mantissa exponent).2 ∧
      ((binaryFraction mantissa exponent).1 / (binaryFraction mantissa exponent).2 : ℚ) =
        mantissa * 2 ^ exponent := by
  unfold binaryFraction
  simp only [Nat.pow_eq]
  split
  case isTrue h =>
    refine ⟨Nat.one_pos, ?_⟩
    rw [zpow_of_nonneg 2 h]
    push_cast
    rw [div_one]
  case isFalse h =>
    refine ⟨by positivity, ?_⟩
    rw [zpow_of_neg 2 h]
    push_cast
    rw [div_eq_mul_inv]

theorem roundDiv_toEven_eq (num : ℕ) {den : ℕ} (hden : 0 < den) :
    ∃ rest : ℚ, (num / den : ℚ) = (num / den : ℕ) + rest ∧ 0 ≤ rest ∧ rest < 1 ∧
      roundDiv .toEven num den =
        if 1 / 2 < rest ∨ rest = 1 / 2 ∧ num / den % 2 = 1 then num / den + 1 else num / den := by
  obtain ⟨rest, hquotient, hzero, hone, hhalf, hhalf'⟩ := exists_rest num hden
  have hup : den < 2 * (num % den) ↔ 1 / 2 < rest := by rw [← not_le, hhalf', not_le]
  have htie : 2 * (num % den) = den ↔ rest = 1 / 2 := by
    rw [le_antisymm_iff, hhalf, hhalf', ← le_antisymm_iff]
  refine ⟨rest, hquotient, hzero, hone, ?_⟩
  simp only [roundDiv, Tie.roundsUp, Bool.or_eq_true, Bool.and_eq_true, decide_eq_true_eq,
    beq_iff_eq, hup, htie]

/-- A quotient within a half of a whole number is rounded to it. -/
theorem roundDiv_toEven {num den whole : ℕ} (hden : 0 < den)
    (hlow : (whole : ℚ) - 1 / 2 ≤ num / den) (hhigh : (num / den : ℚ) ≤ whole + 1 / 2)
    (hodd : whole % 2 = 1 → (whole : ℚ) - 1 / 2 < num / den ∧ (num / den : ℚ) < whole + 1 / 2) :
    roundDiv .toEven num den = whole := by
  obtain ⟨rest, hquotient, hzero, hone, hround⟩ := roundDiv_toEven_eq num hden
  rw [hquotient] at hlow hhigh hodd
  rw [hround]
  generalize num / den = floor at hlow hhigh hodd
  have hleast : floor < whole + 1 := by
    rw [← @Nat.cast_lt ℚ]
    push_cast
    linarith
  have hgreatest : whole < floor + 2 := by
    rw [← @Nat.cast_lt ℚ]
    push_cast
    linarith
  rcases (by omega : whole = floor ∨ whole = floor + 1) with rfl | rfl
  · refine if_neg ?_
    rintro (hgt | ⟨heq, hfloor⟩)
    · linarith
    · linarith [(hodd hfloor).2]
  · refine if_pos ?_
    push_cast at hlow hodd
    rcases lt_or_eq_of_le (by linarith : 1 / 2 ≤ rest) with hgt | heq
    · exact .inl hgt
    · refine .inr ⟨heq.symm, ?_⟩
      by_contra heven
      linarith [(hodd (by omega)).1]

theorem le_roundDiv (tie : Tie) (num den : ℕ) : num / den ≤ roundDiv tie num den := by
  unfold roundDiv
  dsimp only
  split <;> omega

/-! ## The exponent of a quotient -/

theorem zpow_two_add (a b : ℤ) : (2 : ℚ) ^ (a + b) = 2 ^ a * 2 ^ b := zpow_add₀ two_ne_zero a b

theorem quotient_bounds {num den : ℕ} (hnum : 0 < num) (hden : 0 < den) :
    (2 : ℚ) ^ ((num.log2 : ℤ) - den.log2 - 1) ≤ num / den ∧
      (num / den : ℚ) < 2 ^ ((num.log2 : ℤ) - den.log2 + 1) := by
  have hpos : (0 : ℚ) < den := by exact_mod_cast hden
  have hnum_low : (2 : ℚ) ^ num.log2 ≤ num := by exact_mod_cast Nat.log2_self_le hnum.ne'
  have hnum_high : (num : ℚ) < 2 ^ (num.log2 + 1) := by exact_mod_cast Nat.lt_log2_self
  have hden_low : (2 : ℚ) ^ den.log2 ≤ den := by exact_mod_cast Nat.log2_self_le hden.ne'
  have hden_high : (den : ℚ) < 2 ^ (den.log2 + 1) := by exact_mod_cast Nat.lt_log2_self
  rw [le_div_iff₀ hpos, div_lt_iff₀ hpos]
  constructor
  · calc (2 : ℚ) ^ ((num.log2 : ℤ) - den.log2 - 1) * den
        ≤ 2 ^ ((num.log2 : ℤ) - den.log2 - 1) * 2 ^ (den.log2 + 1) := by gcongr
      _ = 2 ^ num.log2 := by
        rw [← zpow_natCast, ← zpow_two_add, ← zpow_natCast]
        congr 1
        push_cast
        ring
      _ ≤ num := hnum_low
  · calc (num : ℚ) < 2 ^ (num.log2 + 1) := hnum_high
      _ = 2 ^ ((num.log2 : ℤ) - den.log2 + 1) * 2 ^ den.log2 := by
        rw [← zpow_natCast, ← zpow_natCast, ← zpow_two_add]
        congr 1
        push_cast
        ring
      _ ≤ 2 ^ ((num.log2 : ℤ) - den.log2 + 1) * den := by gcongr

/-- Some exponent gives the quotient a mantissa of 53 bits; it is used unless it is too small. -/
theorem exists_fullExponent {num den : ℕ} (hnum : 0 < num) (hden : 0 < den) :
    ∃ full : ℤ, unitExponent num den = max full (-1074) ∧
      (num / den : ℚ) < 2 ^ 53 * 2 ^ full ∧ (2 ^ 52 * 2 ^ full : ℚ) ≤ num / den := by
  obtain ⟨hlow, hhigh⟩ := quotient_bounds hnum hden
  unfold unitExponent
  obtain ⟨hpos, hscaled⟩ := scaleDown_spec num hden ((num.log2 : ℤ) - den.log2 - 53)
  dsimp only
  generalize hparts : scaleDown num den ((num.log2 : ℤ) - den.log2 - 53) = parts at hpos hscaled
  generalize (num.log2 : ℤ) - den.log2 = order at hlow hhigh hscaled
  have hsmall : parts.1 / parts.2 < mantissaBound ↔
      (num / den : ℚ) < 2 ^ 53 * 2 ^ (order - 53) := by
    have hdenpos : (0 : ℚ) < parts.2 := by exact_mod_cast hpos
    rw [Nat.div_lt_iff_lt_mul hpos, ← @Nat.cast_lt ℚ, ← div_lt_iff₀ (zpow_two_pos _), ← hscaled,
      div_lt_iff₀ hdenpos]
    norm_num [mantissaBound]
  refine ⟨_, rfl, ?_⟩
  split
  case isTrue h =>
    refine ⟨hsmall.1 h, ?_⟩
    calc (2 ^ 52 * 2 ^ (order - 53) : ℚ) = 2 ^ (order - 1) := by
          rw [← zpow_natCast, ← zpow_two_add]
          congr 1
          push_cast
          ring
      _ ≤ num / den := hlow
  case isFalse h =>
    rw [hsmall, not_lt] at h
    have hdouble : (2 : ℚ) ^ (order - 53 + 1) = 2 * 2 ^ (order - 53) := by
      rw [zpow_two_add, zpow_one, mul_comm]
    refine ⟨?_, by rw [hdouble]; linarith⟩
    calc (num / den : ℚ) < 2 ^ (order + 1) := hhigh
      _ = 2 ^ 53 * 2 ^ (order - 53 + 1) := by
          rw [← zpow_natCast, ← zpow_two_add]
          congr 1
          push_cast
          ring

/-- The exponent is the one at which a mantissa of 53 bits has the magnitude of the quotient, or the
least one. -/
theorem unitExponent_spec {num den : ℕ} (hnum : 0 < num) (hden : 0 < den) :
    -1074 ≤ unitExponent num den ∧ (num / den : ℚ) < 2 ^ 53 * 2 ^ unitExponent num den ∧
      (-1074 < unitExponent num den → (2 ^ 52 * 2 ^ unitExponent num den : ℚ) ≤ num / den) := by
  obtain ⟨full, hexponent, hhigh, hlow⟩ := exists_fullExponent hnum hden
  rw [hexponent]
  refine ⟨le_max_right _ _, hhigh.trans_le ?_, fun hlarge => ?_⟩
  · have hmono : (2 : ℚ) ^ full ≤ 2 ^ max full (-1074) :=
      zpow_le_zpow_right₀ one_le_two (le_max_left _ _)
    linarith
  · rwa [max_eq_left (by omega)]

/-! ## The nearest number -/

def roundedMantissa (num den : ℕ) (exponent : ℤ) : ℕ :=
  roundDiv .toEven (scaleDown num den exponent).1 (scaleDown num den exponent).2

section
variable {num den : ℕ} (hnum : 0 < num)
include hnum

theorem nearest_of_lt {exponent : ℤ} (hexponent : unitExponent num den = exponent)
    (h : roundedMantissa num den exponent < 2 ^ 53) :
    Binary64.nearest num den =
      if exponent ≤ 971 then .finite (roundedMantissa num den exponent) exponent else .infinite := by
  have hbound : roundDiv .toEven (scaleDown num den exponent).1 (scaleDown num den exponent).2 <
      mantissaBound := h
  rw [Binary64.nearest, if_neg hnum.ne', hexponent]
  dsimp only
  rw [if_pos hbound]
  rfl

theorem nearest_of_le {exponent : ℤ} (hexponent : unitExponent num den = exponent)
    (h : 2 ^ 53 ≤ roundedMantissa num den exponent) :
    Binary64.nearest num den =
      if exponent + 1 ≤ 971 then .finite (2 ^ 52) (exponent + 1) else .infinite := by
  have hbound : ¬roundDiv .toEven (scaleDown num den exponent).1 (scaleDown num den exponent).2 <
      mantissaBound := Nat.not_lt.2 h
  rw [Binary64.nearest, if_neg hnum.ne', hexponent]
  dsimp only
  rw [if_neg hbound]
  rfl

end

theorem representable_zero : Representable 0 (-1074) :=
  ⟨by decide, le_rfl, by decide, fun h => absurd h (lt_irrefl _)⟩

theorem representable_of_nearest {num den mantissa : ℕ} {exponent : ℤ} (hden : 0 < den)
    (h : Binary64.nearest num den = .finite mantissa exponent) :
    Representable mantissa exponent := by
  rcases Nat.eq_zero_or_pos num with rfl | hnum
  · obtain ⟨rfl, rfl⟩ := Binary64.finite.inj h
    exact representable_zero
  obtain ⟨hleast, -, hlead⟩ := unitExponent_spec hnum hden
  obtain ⟨hpos, hscaled⟩ := scaleDown_spec num hden (unitExponent num den)
  rcases Nat.lt_or_ge (roundedMantissa num den (unitExponent num den)) (2 ^ 53) with hbound | hbound
  · rw [nearest_of_lt hnum rfl hbound] at h
    split at h
    case isFalse => cases h
    case isTrue hgreatest =>
      obtain ⟨rfl, rfl⟩ := Binary64.finite.inj h
      refine ⟨hbound, hleast, hgreatest, fun hlarge => ?_⟩
      have hquotient : (2 ^ 52 : ℚ) ≤ (scaleDown num den (unitExponent num den)).1 /
          (scaleDown num den (unitExponent num den)).2 := by
        rw [hscaled, le_div_iff₀ (zpow_two_pos _)]
        exact hlead hlarge
      refine le_trans ?_ (le_roundDiv _ _ _)
      rw [Nat.le_div_iff_mul_le hpos, ← @Nat.cast_le ℚ]
      rw [le_div_iff₀ (by exact_mod_cast hpos)] at hquotient
      exact_mod_cast hquotient
  · rw [nearest_of_le hnum rfl hbound] at h
    split at h
    case isFalse => cases h
    case isTrue hgreatest =>
      obtain ⟨rfl, rfl⟩ := Binary64.finite.inj h
      exact ⟨by decide, by omega, hgreatest, fun _ => le_rfl⟩

theorem gapBelow_pos (mantissa : ℕ) (exponent : ℤ) : 0 < gapBelow mantissa exponent := by
  unfold gapBelow
  split <;> norm_num

theorem gapBelow_le (mantissa : ℕ) (exponent : ℤ) : gapBelow mantissa exponent ≤ 1 / 2 := by
  unfold gapBelow
  split <;> norm_num

section
variable {mantissa : ℕ} {exponent : ℤ} {q : ℚ}

theorem Rounds.pos (h : Rounds mantissa exponent q) (hpos : 0 < mantissa) : 0 < q := by
  have hone : (1 : ℚ) ≤ mantissa := by exact_mod_cast hpos
  refine lt_of_lt_of_le (mul_pos ?_ (zpow_two_pos exponent)) h.low
  linarith [gapBelow_le mantissa exponent]

theorem Representable.lt (h : Representable mantissa exponent)
    (hrounds : Rounds mantissa exponent q) : q < 2 ^ 53 * 2 ^ exponent := by
  have hbound : (mantissa : ℚ) + 1 ≤ 2 ^ 53 := by exact_mod_cast h.bound
  refine lt_of_le_of_lt hrounds.high (mul_lt_mul_of_pos_right ?_ (zpow_two_pos exponent))
  linarith

variable {num den : ℕ} (hnum : 0 < num) (hden : 0 < den) (h : Representable mantissa exponent)
  (hrounds : Rounds mantissa exponent (num / den))
include hnum hden h hrounds

/-- The exponent of a quotient is that of the number in whose interval it is, unless the number is a
power of two and the quotient is below it. -/
theorem unitExponent_of_rounds :
    unitExponent num den = exponent ∨ unitExponent num den = exponent - 1 ∧ mantissa = 2 ^ 52 ∧
      -1074 < exponent ∧ (num / den : ℚ) < 2 ^ 52 * 2 ^ exponent := by
  obtain ⟨hleast, hhigh, hlead⟩ := unitExponent_spec hnum hden
  have hpow := zpow_two_pos exponent
  have hlt := h.lt hrounds
  have hstep {a b : ℤ} (hab : a < b) : (2 : ℚ) * 2 ^ a ≤ 2 ^ b := by
    rw [mul_comm, ← zpow_add_one₀ two_ne_zero]
    exact zpow_le_zpow_right₀ one_le_two hab
  rcases lt_trichotomy (unitExponent num den) exponent with hbelow | hsame | habove
  · have hlarge : -1074 < exponent := by omega
    have hmantissa : (2 ^ 52 : ℚ) ≤ mantissa := by exact_mod_cast h.leading hlarge
    have hsmall : (num / den : ℚ) < 2 ^ 52 * 2 ^ exponent := by linarith [hstep hbelow]
    have hleading : mantissa = 2 ^ 52 := by
      have hless : (mantissa - gapBelow mantissa exponent) * (2 : ℚ) ^ exponent <
          2 ^ 52 * 2 ^ exponent := hrounds.low.trans_lt hsmall
      rw [mul_lt_mul_iff_left₀ hpow] at hless
      refine le_antisymm (Nat.lt_succ_iff.1 ?_) (h.leading hlarge)
      rw [← @Nat.cast_lt ℚ]
      push_cast
      linarith [gapBelow_le mantissa exponent]
    refine .inr ⟨?_, hleading, hlarge, hsmall⟩
    by_contra hfar
    have hquarter : (4 : ℚ) * 2 ^ unitExponent num den ≤ 2 ^ exponent := by
      linarith [hstep (by omega : unitExponent num den < exponent - 1),
        hstep (by omega : exponent - 1 < exponent)]
    have hlow := hrounds.low
    have hless : (2 ^ 52 - 1 / 2 : ℚ) * 2 ^ exponent ≤
        (mantissa - gapBelow mantissa exponent) * 2 ^ exponent := by
      refine mul_le_mul_of_nonneg_right ?_ hpow.le
      linarith [gapBelow_le mantissa exponent]
    linarith
  · exact .inl hsame
  · have hlow := hlead (by have := h.least; omega)
    linarith [hstep habove]

/-- A quotient is rounded to the number in whose interval it is. -/
theorem nearest_of_rounds : Binary64.nearest num den = .finite mantissa exponent := by
  have hpow := zpow_two_pos exponent
  have hlow := hrounds.low
  rcases unitExponent_of_rounds hnum hden h hrounds with hsame | ⟨hbelow, rfl, hlarge, hless⟩
  · obtain ⟨hpos, hscaled⟩ := scaleDown_spec num hden exponent
    have hmantissa : roundedMantissa num den exponent = mantissa := by
      refine roundDiv_toEven hpos ?_ ?_ fun hodd => ?_
      · rw [hscaled, le_div_iff₀ hpow]
        refine le_trans (mul_le_mul_of_nonneg_right ?_ hpow.le) hlow
        linarith [gapBelow_le mantissa exponent]
      · rw [hscaled, div_le_iff₀ hpow]
        exact hrounds.high
      · obtain ⟨hlow', hhigh'⟩ := hrounds.odd hodd
        rw [hscaled, lt_div_iff₀ hpow, div_lt_iff₀ hpow]
        refine ⟨lt_of_le_of_lt (mul_le_mul_of_nonneg_right ?_ hpow.le) hlow', hhigh'⟩
        linarith [gapBelow_le mantissa exponent]
    rw [nearest_of_lt hnum hsame (by rw [hmantissa]; exact h.bound), if_pos h.greatest, hmantissa]
  · -- Below a power of two, the mantissa is rounded up to the next one.
    obtain ⟨hpos, hscaled⟩ := scaleDown_spec num hden (exponent - 1)
    have hhalf : (2 : ℚ) ^ exponent = 2 * 2 ^ (exponent - 1) := by
      rw [mul_comm, ← zpow_add_one₀ two_ne_zero, sub_add_cancel]
    have hgap : gapBelow (2 ^ 52) exponent = 1 / 4 := if_pos ⟨rfl, hlarge⟩
    have hmantissa : roundedMantissa num den (exponent - 1) = 2 ^ 53 := by
      rw [hgap, hhalf] at hlow
      rw [hhalf] at hless
      push_cast at hlow
      refine roundDiv_toEven hpos ?_ ?_ fun hodd => absurd hodd (by decide)
      · rw [hscaled, le_div_iff₀ (zpow_two_pos _)]
        push_cast
        linarith
      · rw [hscaled, div_le_iff₀ (zpow_two_pos _)]
        push_cast
        linarith [zpow_two_pos (exponent - 1)]
    rw [nearest_of_le hnum hbelow hmantissa.ge, sub_add_cancel, if_pos h.greatest]

end

/-! ## Literals -/

def Literal.magnitude (number : Literal) : ℚ :=
  number.coefficient * 10 ^ number.exponent

theorem digits_bounds {n : ℕ} (h : 0 < n) :
    10 ^ ((digits n).length - 1) ≤ n ∧ n < 10 ^ (digits n).length := by
  have hpos : 0 < (digits n).length := Nat.length_toDigits_pos
  refine ⟨Nat.le_of_not_lt fun hlt => ?_, (Nat.length_toDigits_le_iff (by decide) hpos).1 le_rfl⟩
  rcases Nat.eq_zero_or_pos ((digits n).length - 1) with hzero | hmore
  · rw [hzero] at hlt
    omega
  · have := (Nat.length_toDigits_le_iff (by decide) hmore).2 hlt
    exact absurd this (by show ¬(digits n).length ≤ _; omega)

theorem Literal.magnitude_bounds {number : Literal} (h : 0 < number.coefficient) :
    (10 : ℚ) ^ (number.exponent + (digits number.coefficient).length - 1) ≤ number.magnitude ∧
      number.magnitude < 10 ^ (number.exponent + (digits number.coefficient).length) := by
  obtain ⟨hlow, hhigh⟩ := digits_bounds h
  have hten := zpow_ten_pos number.exponent
  have hpos : 1 ≤ (digits number.coefficient).length := Nat.length_toDigits_pos
  constructor
  · have hlow' : (10 : ℚ) ^ ((digits number.coefficient).length - 1) ≤ number.coefficient := by
      exact_mod_cast hlow
    calc (10 : ℚ) ^ (number.exponent + (digits number.coefficient).length - 1)
        = 10 ^ ((digits number.coefficient).length - 1) * 10 ^ number.exponent := by
          rw [← zpow_natCast, ← zpow_add₀ (by norm_num), Nat.cast_sub hpos]
          congr 1
          push_cast
          ring
      _ ≤ number.magnitude := mul_le_mul_of_nonneg_right hlow' hten.le
  · have hhigh' : (number.coefficient : ℚ) < 10 ^ (digits number.coefficient).length := by
      exact_mod_cast hhigh
    calc number.magnitude < 10 ^ (digits number.coefficient).length * 10 ^ number.exponent :=
          mul_lt_mul_of_pos_right hhigh' hten
      _ = 10 ^ (number.exponent + (digits number.coefficient).length) := by
          rw [← zpow_natCast, ← zpow_add₀ (by norm_num), add_comm]

/-- All binary64 numbers are between these powers of ten. -/
theorem binary64_range : (10 : ℚ) ^ (-400 : ℤ) ≤ 1 / 2 * 2 ^ (-1074 : ℤ) ∧
    (2 ^ 53 * 2 ^ (971 : ℤ) : ℚ) ≤ 10 ^ (400 : ℤ) := by
  have hmore : (2 : ℚ) ^ 1200 ≤ 10 ^ 400 := by
    calc (2 : ℚ) ^ 1200 = (2 ^ 3) ^ 400 := by rw [← pow_mul]
      _ ≤ 10 ^ 400 := pow_le_pow_left₀ (by norm_num) (by norm_num) 400
  have hpow {n : ℕ} (h : n ≤ 1200) : (2 : ℚ) ^ n ≤ 10 ^ 400 :=
    (pow_le_pow_right₀ one_le_two h).trans hmore
  constructor
  · rw [zpow_neg, zpow_neg, zpow_ofNat, zpow_ofNat, one_div, ← mul_inv, ← pow_succ']
    exact inv_anti₀ (pow_pos two_pos _) (hpow (by decide))
  · rw [zpow_ofNat, zpow_ofNat, ← pow_add]
    exact hpow (by decide)

theorem Rounds.range {mantissa : ℕ} {exponent : ℤ} {q : ℚ} (hrounds : Rounds mantissa exponent q)
    (h : Representable mantissa exponent) (hpos : 0 < mantissa) :
    (10 : ℚ) ^ (-400 : ℤ) ≤ q ∧ q < 10 ^ (400 : ℤ) := by
  obtain ⟨hleast, hgreatest⟩ := binary64_range
  have hone : (1 : ℚ) ≤ mantissa := by exact_mod_cast hpos
  constructor
  · calc (10 : ℚ) ^ (-400 : ℤ) ≤ 1 / 2 * 2 ^ (-1074 : ℤ) := hleast
      _ ≤ 1 / 2 * 2 ^ exponent :=
        mul_le_mul_of_nonneg_left (zpow_le_zpow_right₀ one_le_two h.least) (by norm_num)
      _ ≤ (mantissa - gapBelow mantissa exponent) * 2 ^ exponent := by
        refine mul_le_mul_of_nonneg_right ?_ (zpow_two_pos exponent).le
        linarith [gapBelow_le mantissa exponent]
      _ ≤ q := hrounds.low
  · calc q < 2 ^ 53 * 2 ^ exponent := h.lt hrounds
      _ ≤ 2 ^ 53 * 2 ^ (971 : ℤ) :=
        mul_le_mul_of_nonneg_left (zpow_le_zpow_right₀ one_le_two h.greatest) (by norm_num)
      _ ≤ 10 ^ (400 : ℤ) := hgreatest

theorem toBinary64_cases (number : Literal) :
    (number.toBinary64 = .finite 0 (-1074) ∧ number.magnitude < 10 ^ (-400 : ℤ)) ∨
      (number.toBinary64 = .infinite ∧ (10 : ℚ) ^ (400 : ℤ) ≤ number.magnitude) ∨
      ∃ num den : ℕ, 0 < num ∧ 0 < den ∧ number.magnitude = num / den ∧
        number.toBinary64 = .nearest num den := by
  unfold Literal.toBinary64
  simp only [Nat.pow_eq]
  rcases Nat.eq_zero_or_pos number.coefficient with hzero | hpos
  · refine .inl ⟨if_pos (by simp [hzero]), ?_⟩
    rw [Literal.magnitude, hzero, Nat.cast_zero, zero_mul]
    exact zpow_ten_pos _
  obtain ⟨hlow, hhigh⟩ := number.magnitude_bounds hpos
  by_cases hsmall : number.exponent + (digits number.coefficient).length < -400
  · exact .inl ⟨if_pos (by simp [hsmall]),
      hhigh.trans_le (zpow_le_zpow_right₀ (by norm_num) hsmall.le)⟩
  refine .inr ?_
  rw [if_neg (by simpa [hpos.ne'] using hsmall)]
  by_cases hlarge : 400 < number.exponent + (digits number.coefficient).length
  · exact .inl ⟨if_pos hlarge, (zpow_le_zpow_right₀ (by norm_num) (by omega)).trans hlow⟩
  refine .inr ?_
  rw [if_neg hlarge, Literal.magnitude]
  by_cases hexponent : 0 ≤ number.exponent
  · refine ⟨number.coefficient * 10 ^ number.exponent.toNat, 1, by positivity, Nat.one_pos, ?_,
      if_pos hexponent⟩
    rw [zpow_of_nonneg 10 hexponent]
    push_cast
    rw [div_one]
  · refine ⟨number.coefficient, 10 ^ (-number.exponent).toNat, hpos, by positivity, ?_,
      if_neg hexponent⟩
    rw [zpow_of_neg 10 hexponent, ← div_eq_mul_inv]
    push_cast
    rfl

theorem toBinary64_of_rounds {number : Literal} {mantissa : ℕ} {exponent : ℤ}
    (h : Representable mantissa exponent) (hpos : 0 < mantissa)
    (hrounds : Rounds mantissa exponent number.magnitude) :
    number.toBinary64 = .finite mantissa exponent := by
  obtain ⟨hleast, hgreatest⟩ := hrounds.range h hpos
  obtain ⟨-, hsmall⟩ | ⟨-, hlarge⟩ | ⟨num, den, hnum, hden, hvalue, hnearest⟩ :=
    toBinary64_cases number
  · exact absurd hleast hsmall.not_ge
  · exact absurd hlarge hgreatest.not_ge
  · rw [hvalue] at hrounds
    rw [hnearest, nearest_of_rounds hnum hden h hrounds]

theorem representable_of_toBinary64 {number : Literal} {mantissa : ℕ} {exponent : ℤ}
    (h : number.toBinary64 = .finite mantissa exponent) : Representable mantissa exponent := by
  obtain ⟨hzero, -⟩ | ⟨hinfinite, -⟩ | ⟨num, den, -, hden, -, hnearest⟩ := toBinary64_cases number
  · obtain ⟨rfl, rfl⟩ := Binary64.finite.inj (hzero.symm.trans h)
    exact representable_zero
  · exact absurd (hinfinite.symm.trans h) nofun
  · exact representable_of_nearest hden (hnearest.symm.trans h)

end SchemaPlan.Decimal
