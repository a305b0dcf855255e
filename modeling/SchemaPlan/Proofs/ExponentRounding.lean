import SchemaPlan.Proofs.NearestBinary64
import SchemaPlan.Proofs.NumericLiteral

/-!
# Rounding of literals with an exponent

A literal with an exponent is not rounded on its digits: it becomes the nearest binary64 number
first, whose exact value is then rounded half to even, and its sign stays. So it is stored like the
plain literals of the same number only if the two ways of rounding meet, and no sign is left on a
zero.

* `nearestEven`: rounding half to even, on rational numbers.
* `decimalNumeral?_of_exponent`: the places of a literal are those of its nearest binary64 number.
* `decimalNumeral_exponent_iff`: when they are those of the plain literals of the number.
-/
namespace SchemaPlan.Decimal

/-- The whole number nearest to a rational number, and of two the even one. -/
def nearestEven (q : ℚ) : ℤ :=
  if Int.fract q = 1 / 2 ∧ Even ⌊q⌋ then ⌊q⌋ else round q

theorem nearestEven_div (num : ℕ) {den : ℕ} (h : 0 < den) :
    nearestEven (num / den) = roundDiv .toEven num den := by
  obtain ⟨rest, hquotient, hzero, hone, hround⟩ := roundDiv_toEven_eq num h
  rw [hround, hquotient]
  generalize num / den = floor
  have hfloor : ⌊(floor + rest : ℚ)⌋ = floor := by
    rw [Int.floor_eq_iff]
    push_cast
    exact ⟨by linarith, by linarith⟩
  have hfract : Int.fract (floor + rest : ℚ) = rest := by
    rw [Int.fract, hfloor]
    push_cast
    ring
  have heven : Even (floor : ℤ) ↔ ¬floor % 2 = 1 := by
    rw [Int.even_coe_nat, Nat.even_iff]
    omega
  have hup : 1 / 2 ≤ rest → round (floor + rest : ℚ) = floor + 1 := fun hhalf => by
    rw [round_eq, Int.floor_eq_iff]
    push_cast
    exact ⟨by linarith, by linarith⟩
  have hdown : rest < 1 / 2 → round (floor + rest : ℚ) = floor := fun hhalf => by
    rw [round_eq, Int.floor_eq_iff]
    push_cast
    exact ⟨by linarith, by linarith⟩
  unfold nearestEven
  simp only [hfloor, hfract, heven]
  rcases lt_trichotomy rest (1 / 2) with hless | rfl | hmore
  · rw [if_neg fun hboth => hless.ne hboth.1, hdown hless,
      if_neg (not_or.2 ⟨hless.not_gt, fun hboth => hless.ne hboth.1⟩)]
  · by_cases hodd : floor % 2 = 1
    · rw [if_neg fun hboth => hboth.2 hodd, hup le_rfl, if_pos (.inr ⟨rfl, hodd⟩)]
      push_cast
      rfl
    · rw [if_pos ⟨rfl, hodd⟩, if_neg (by simp [hodd])]
  · rw [if_neg fun hboth => hmore.ne' hboth.1, hup hmore.le, if_pos (.inl hmore)]
    push_cast
    rfl

/-! ## Numerals and signs -/

theorem Denotes.unique {cs : List Char} {q r : ℚ} (hq : Denotes cs q) (hr : Denotes cs r) :
    q = r := by
  obtain ⟨whole, fraction, hpoint, -, rfl⟩ := hq.parts
  obtain ⟨whole', fraction', hpoint', -, rfl⟩ := hr.parts
  obtain ⟨rfl, rfl⟩ := Prod.mk.inj (hpoint.symm.trans hpoint')
  rfl

theorem signed_fixedPlaces_inj {scale units units' : ℕ} {negative negative' : Bool} :
    signed negative (fixedPlaces scale units) = signed negative' (fixedPlaces scale units') ↔
      negative = negative' ∧ units = units' := by
  refine ⟨fun h => ?_, by rintro ⟨rfl, rfl⟩; rfl⟩
  have hdenotes := denotes_fixedPlaces scale units
  have hdenotes' := denotes_fixedPlaces scale units'
  have hsplit := (hdenotes.signed negative).2
  rw [h, (hdenotes'.signed negative').2] at hsplit
  obtain ⟨hnegative, hplaces⟩ := Prod.mk.inj hsplit
  refine ⟨hnegative.symm, ?_⟩
  rw [hplaces] at hdenotes'
  have hvalue := hdenotes.unique hdenotes'
  rw [div_left_inj' (by positivity)] at hvalue
  exact_mod_cast hvalue

/-- The numeral of the units of a number with a sign, if it leaves no sign on a zero. -/
theorem signed_fixedPlaces_eq_numeralOf {scale units : ℕ} {whole : ℤ} {negative : Bool}
    (hwhole : 0 ≤ whole) :
    signed negative (fixedPlaces scale units) =
        numeralOf scale (if negative then -whole else whole) ↔
      (units : ℤ) = whole ∧ (negative = true → whole ≠ 0) := by
  rw [numeralOf, signed_fixedPlaces_inj]
  cases negative with
  | false =>
    simp only [Bool.false_eq_true, if_false, false_implies, and_true, not_lt.2 hwhole,
      decide_false, true_and]
    omega
  | true =>
    simp only [if_true, true_implies, Int.natAbs_neg, eq_comm (a := true), decide_eq_true_eq]
    omega

theorem ExponentLiteral.eq_signed {cs : List Char} {q : ℚ} (h : ExponentLiteral cs q) :
    q = if decide (cs.head? = some '-') then -|q| else |q| := by
  obtain ⟨number, -, rfl, hnegative⟩ := h.read?
  rw [number.abs_value, ← Bool.decide_congr (fst_splitSign cs), Bool.decide_eq_true, ← hnegative]
  rfl

/-- When a literal is stored like the plain ones of its number: the nearest binary64 number of its
magnitude, rounded half to even, has the units of the magnitude, rounded half away from zero, and
they are not zero behind a sign. -/
structure RoundsAlike (scale : ℕ) (negative : Bool) (magnitude nearest : ℚ) : Prop where
  units : nearestEven (nearest * 10 ^ scale) = nearestWhole (magnitude * 10 ^ scale)
  sign : negative = true → nearestWhole (magnitude * 10 ^ scale) ≠ 0

end SchemaPlan.Decimal

namespace SchemaPlan.MySql

open Decimal

/-- A literal with an exponent letter is read as a whole, not as digits around a point. -/
theorem decimalNumeral?_of_letter {cs : List Char} (h : 'e' ∈ cs ∨ 'E' ∈ cs) (scale : ℕ) :
    decimalNumeral? scale cs = (Literal.read? cs).bind fun number =>
      match number.toBinary64 with
      | .infinite => none
      | .finite mantissa exponent =>
        some (signed number.negative (binaryFixedPlaces scale mantissa exponent)) := by
  rw [decimalNumeral?]
  generalize hsign : splitSign cs = parts
  obtain ⟨negative, numeral⟩ := parts
  dsimp only
  generalize hpoint : splitPoint numeral = parts
  obtain ⟨whole, fraction⟩ := parts
  dsimp only
  refine if_neg fun hdigits => ?_
  have hplain : Literal.plain? cs =
      some ⟨negative, digitsValue (whole ++ fraction), -(fraction.length : ℤ)⟩ := by
    rw [Literal.plain?, hsign]
    dsimp only
    rw [hpoint]
    exact if_pos hdigits
  have hnone := (Literal.plain?_eq_some hplain).1.not_letter
  rcases h with hletter | hletter <;> exact absurd (hnone _ hletter) (by decide)

/-- The units of a binary64 number in the last of `scale` places, rounded half to even. -/
theorem binaryFixedPlaces_eq (scale mantissa : ℕ) (exponent : ℤ) :
    ∃ units : ℕ, (units : ℤ) = nearestEven (mantissa * 2 ^ exponent * 10 ^ scale) ∧
      binaryFixedPlaces scale mantissa exponent = fixedPlaces scale units := by
  obtain ⟨hpos, hvalue⟩ := binaryFraction_spec mantissa exponent
  rw [binaryFixedPlaces]
  generalize binaryFraction mantissa exponent = fraction at hpos hvalue
  refine ⟨roundDiv .toEven (fraction.1 * 10 ^ scale) fraction.2, ?_, rfl⟩
  rw [← nearestEven_div _ hpos, ← hvalue, div_mul_eq_mul_div]
  push_cast
  rfl

/-! ## Literals with an exponent -/

/-- A literal with an exponent is stored as its nearest binary64 number, if there is one. -/
theorem decimalNumeral?_of_exponent {cs : List Char} (hnumber : isNumericLiteral cs = true)
    (hexponent : 'e' ∈ cs ∨ 'E' ∈ cs) : ∃ q, ExponentLiteral cs q ∧
    (binary64Limit ≤ |q| ∧ (∀ scale, decimalNumeral? scale cs = none) ∨
      |q| < binary64Limit ∧ ∃ mantissa exponent, IsNearest mantissa exponent |q| ∧
        ∀ scale, ∃ units : ℕ, (units : ℤ) = nearestEven (mantissa * 2 ^ exponent * 10 ^ scale) ∧
          decimalNumeral? scale cs =
            some (signed (decide (cs.head? = some '-')) (fixedPlaces scale units))) := by
  have hliteral : ∃ q, ExponentLiteral cs q := by
    rcases isNumericLiteral_iff.1 hnumber with ⟨q, hplain⟩ | hliteral
    · rcases hexponent with hletter | hletter <;>
        exact absurd (hplain.not_letter _ hletter) (by decide)
    · exact hliteral
  obtain ⟨q, hliteral⟩ := hliteral
  obtain ⟨number, hread, rfl, hnegative⟩ := hliteral.read?
  refine ⟨_, hliteral, ?_⟩
  simp only [decimalNumeral?_of_letter hexponent, hread, Option.bind_some, number.abs_value]
  cases hround : number.toBinary64 with
  | infinite => exact .inl ⟨limit_le_of_toBinary64 hround, fun _ => rfl⟩
  | finite mantissa exponent =>
    have hrounds := rounds_of_toBinary64 hround
    have hrepresentable := representable_of_toBinary64 hround
    refine .inr ⟨hrepresentable.lt_limit hrounds, mantissa, exponent,
      hrounds.isNearest hrepresentable, fun scale => ?_⟩
    obtain ⟨units, hunits, hplaces⟩ := binaryFixedPlaces_eq scale mantissa exponent
    have hsign : number.negative = decide (cs.head? = some '-') := by
      rw [hnegative, Bool.eq_iff_iff, fst_splitSign, decide_eq_true_eq]
    exact ⟨units, hunits, congrArg some (congrArg₂ signed hsign hplaces)⟩

/-- A literal with an exponent is stored as the canonical numeral of its number, rounded half away
from zero, and like the plain literals of this number, just if its nearest binary64 number rounds
alike and no sign stays on a zero. -/
theorem decimalNumeral_exponent_iff {cs : List Char} (hnumber : isNumericLiteral cs = true)
    (hexponent : 'e' ∈ cs ∨ 'E' ∈ cs) : ∃ q, ExponentLiteral cs q ∧
    (∀ scale, decimalNumeral? scale cs = none ↔ binary64Limit ≤ |q|) ∧
    (|q| < binary64Limit → ∃ mantissa exponent, IsNearest mantissa exponent |q| ∧
      ∀ scale, ∃ numeral, decimalNumeral? scale cs = some numeral ∧
        (Canonical scale (roundedTo scale q) numeral ↔
          RoundsAlike scale (cs.head? = some '-') |q| (mantissa * 2 ^ exponent)) ∧
        ∀ plain, PlainLiteral plain q → (decimalNumeral? scale plain = some numeral ↔
          RoundsAlike scale (cs.head? = some '-') |q| (mantissa * 2 ^ exponent))) := by
  obtain ⟨q, hliteral, ⟨hlimit, hnone⟩ | ⟨hfinite, mantissa, exponent, hnearest, hplaces⟩⟩ :=
    decimalNumeral?_of_exponent hnumber hexponent
  · exact ⟨q, hliteral, fun scale => iff_of_true (hnone scale) hlimit,
      fun hfinite => absurd hlimit hfinite.not_ge⟩
  refine ⟨q, hliteral, fun scale => ?_, fun _ => ⟨mantissa, exponent, hnearest, fun scale => ?_⟩⟩
  · obtain ⟨units, -, hstored⟩ := hplaces scale
    exact iff_of_false (by rw [hstored]; nofun) hfinite.not_ge
  obtain ⟨units, hunits, hstored⟩ := hplaces scale
  have hwhole : 0 ≤ nearestWhole (|q| * 10 ^ scale) := by
    rw [nearestWhole_of_nonneg (by positivity), round_eq]
    positivity
  have hsigned : nearestWhole (q * 10 ^ scale) =
      if decide (cs.head? = some '-') then -nearestWhole (|q| * 10 ^ scale)
      else nearestWhole (|q| * 10 ^ scale) := by
    conv_lhs => rw [hliteral.eq_signed]
    split
    · rw [neg_mul, nearestWhole_neg]
    · rfl
  have halike : signed (decide (cs.head? = some '-')) (fixedPlaces scale units) =
      numeralOf scale (nearestWhole (q * 10 ^ scale)) ↔
        RoundsAlike scale (cs.head? = some '-') |q| (mantissa * 2 ^ exponent) := by
    rw [hsigned, signed_fixedPlaces_eq_numeralOf hwhole, hunits]
    exact ⟨fun ⟨hunits, hsign⟩ => ⟨hunits, hsign⟩, fun h => ⟨h.units, h.sign⟩⟩
  refine ⟨_, hstored, (canonical_iff _ _).trans halike, fun plain hplain => ?_⟩
  rw [decimalNumeral?_of_plain hplain, Option.some_inj, eq_comm]
  exact halike

/-- Half-way between two whole numbers. -/
theorem decimalNumeral_exponent_iff_half : isNumericLiteral "25e-1".toList = true ∧
    'e' ∈ "25e-1".toList ∧ ∃ q, ExponentLiteral "25e-1".toList q ∧
      (∀ scale, decimalNumeral? scale "25e-1".toList = none ↔ binary64Limit ≤ |q|) ∧
      (|q| < binary64Limit → ∃ mantissa exponent, IsNearest mantissa exponent |q| ∧
        ∀ scale, ∃ numeral, decimalNumeral? scale "25e-1".toList = some numeral ∧
          (Canonical scale (roundedTo scale q) numeral ↔
            RoundsAlike scale ("25e-1".toList.head? = some '-') |q| (mantissa * 2 ^ exponent)) ∧
          ∀ plain, PlainLiteral plain q → (decimalNumeral? scale plain = some numeral ↔
            RoundsAlike scale ("25e-1".toList.head? = some '-') |q| (mantissa * 2 ^ exponent))) :=
  ⟨by decide, by decide, decimalNumeral_exponent_iff (by decide) (.inl (by decide))⟩

/-- A half is rounded down to the even neighbour in one notation and up in the other. -/
theorem decimalNumeral_exponent_ne :
    ¬∀ cs plain q, ExponentLiteral cs q → |q| < binary64Limit → PlainLiteral plain q →
      ∀ scale, decimalNumeral? scale cs = decimalNumeral? scale plain := by
  intro halike
  have hexponent : ExponentLiteral "25e-1".toList (5 / 2) := by
    have hliteral : ExponentLiteral "25e-1".toList
        (digitsValue "25".toList * 10 ^ (-(digitsValue "1".toList : ℤ))) :=
      .mk (.unsigned (@Denotes.whole "25".toList (by decide))) (.inl rfl)
        (@WholeLiteral.minus "1".toList (by decide))
    rw [show digitsValue "25".toList = 25 by decide,
      show digitsValue "1".toList = 1 by decide] at hliteral
    norm_num at hliteral
    exact hliteral
  have hplain : PlainLiteral "2.5".toList (5 / 2) := by
    have hliteral : PlainLiteral "2.5".toList
        (digitsValue "2".toList + digitsValue "5".toList / 10 ^ 1) :=
      .unsigned (@Denotes.point "2".toList "5".toList (by decide) (by decide) (.inl (by decide)))
    rw [show digitsValue "2".toList = 2 by decide,
      show digitsValue "5".toList = 5 by decide] at hliteral
    norm_num at hliteral
    exact hliteral
  have hfinite : |(5 / 2 : ℚ)| < binary64Limit := by
    rw [abs_of_pos (by norm_num)]
    exact lt_of_lt_of_le (by norm_num : (5 / 2 : ℚ) < 2 ^ 53 - 1 / 2)
      (le_mul_of_one_le_right (by norm_num) (one_le_zpow₀ one_le_two (by decide)))
  have hstored : decimalNumeral? 0 "25e-1".toList = some "2".toList := by decide +kernel
  have hstored' : decimalNumeral? 0 "2.5".toList = some "3".toList := by decide
  exact absurd ((hstored.symm.trans (halike _ _ _ hexponent hfinite hplain 0)).trans hstored')
    (by decide)

example : decimalNumeral? 2 "1.005e0".toList = some "1.00".toList := by decide +kernel
example : decimalNumeral? 2 "1.005".toList = some "1.01".toList := by decide
example : decimalNumeral? 0 "-1e-3".toList = some "-0".toList := by decide +kernel

end SchemaPlan.MySql
