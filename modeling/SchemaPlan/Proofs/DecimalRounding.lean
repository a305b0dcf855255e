import Mathlib.Algebra.Order.Round
import Mathlib.Data.Rat.Floor
import Mathlib.Tactic.FieldSimp
import Mathlib.Tactic.Linarith
import Mathlib.Tactic.Positivity
import SchemaPlan.Proofs.ColumnType
import SchemaPlan.Proofs.PlainPlaces

/-!
# Exact rounding of decimal literals

A decimal literal without an exponent denotes a rational number. In a column with a fixed count of
places it is stored as the canonical numeral of that number, rounded half away from zero: there is
one such numeral, whatever way the number was written, and it is stored as it is.

* `PlainLiteral`: the literals and the numbers that they denote.
* `roundedTo`: rounding half away from zero, on rational numbers.
* `Canonical`: the numerals that are stored, and `canonical_iff`: there is one for each number.
* `decimalNumeral?_of_plain`: the places of a literal are those of its rounded value.
* `decimalNumeral_rounds`: literals are stored as canonical numerals of their rounded values.
-/
namespace SchemaPlan.Decimal

open Text

/-! ## Numbers and their numerals -/

/-- The whole number nearest to a rational number, and of two the one farther from zero. -/
def nearestWhole (q : ℚ) : ℤ :=
  if q < 0 then -round (-q) else round q

/-- A rational number rounded to `scale` decimal places, half away from zero. -/
def roundedTo (scale : ℕ) (q : ℚ) : ℚ :=
  nearestWhole (q * 10 ^ scale) / 10 ^ scale

/-- Digits with at most one point, and the number that they denote. -/
inductive Denotes : List Char → ℚ → Prop
  | whole {digits : List Char} (hdigits : isNumeral digits = true) :
      Denotes digits (digitsValue digits)
  | point {whole fraction : List Char} (hwhole : ∀ c ∈ whole, c.isDigit = true)
      (hfraction : ∀ c ∈ fraction, c.isDigit = true) (hsome : whole ≠ [] ∨ fraction ≠ []) :
      Denotes (whole ++ '.' :: fraction)
        (digitsValue whole + digitsValue fraction / 10 ^ fraction.length)

/-- A decimal literal without an exponent, and the number that it denotes. -/
inductive PlainLiteral : List Char → ℚ → Prop
  | unsigned {cs : List Char} {q : ℚ} (h : Denotes cs q) : PlainLiteral cs q
  | plus {cs : List Char} {q : ℚ} (h : Denotes cs q) : PlainLiteral ('+' :: cs) q
  | minus {cs : List Char} {q : ℚ} (h : Denotes cs q) : PlainLiteral ('-' :: cs) (-q)

/-- The canonical numerals of a number with `scale` fractional digits: at least one whole digit and
none too many, no point without a fraction, and a minus sign just if the number is negative. -/
inductive Canonical (scale : ℕ) (q : ℚ) : List Char → Prop
  | mk {negative : Bool} {whole fraction : List Char} (hwhole : isNumeral whole = true)
      (hzero : whole.head? = some '0' → whole = ['0'])
      (hfraction : ∀ c ∈ fraction, c.isDigit = true) (hlength : fraction.length = scale)
      (hsign : negative = true ↔ q < 0)
      (hvalue : |q| = digitsValue whole + digitsValue fraction / 10 ^ scale) :
      Canonical scale q (signed negative (if scale = 0 then whole else whole ++ '.' :: fraction))

/-- The numeral of a count of units of the last place. -/
def numeralOf (scale : ℕ) (units : ℤ) : List Char :=
  signed (decide (units < 0)) (fixedPlaces scale units.natAbs)

theorem signed_fixedPlaces {scale units : ℕ} {negative : Bool} (h : negative = true → units ≠ 0) :
    signed negative (fixedPlaces scale units) =
      numeralOf scale (if negative then -units else units) := by
  have hsign : decide ((if negative then -units else units : ℤ) < 0) = negative := by
    cases negative with
    | false => simp
    | true => simpa using Nat.pos_of_ne_zero (h rfl)
  have hunits : (if negative then -units else units : ℤ).natAbs = units := by
    cases negative <;> simp
  rw [numeralOf, hsign, hunits]

/-! ## Rounding -/

theorem nearestWhole_neg (q : ℚ) : nearestWhole (-q) = -nearestWhole q := by
  unfold nearestWhole
  rcases lt_trichotomy q 0 with h | rfl | h
  · rw [if_neg (by linarith), if_pos h, neg_neg]
  · simp
  · rw [if_pos (by linarith), if_neg (by linarith), neg_neg]

theorem nearestWhole_of_nonneg {q : ℚ} (h : 0 ≤ q) : nearestWhole q = round q :=
  if_neg (not_lt.2 h)

theorem nearestWhole_intCast (n : ℤ) : nearestWhole n = n := by
  unfold nearestWhole
  split
  · rw [← Int.cast_neg, round_intCast, neg_neg]
  · exact round_intCast n

theorem round_div {num den : ℕ} (h : 0 < den) :
    round (num / den : ℚ) = roundDiv .awayFromZero num den := by
  obtain ⟨rest, hquotient, hlow, hhigh, hhalf, -⟩ := exists_rest num h
  have hround : roundDiv .awayFromZero num den =
      if den ≤ 2 * (num % den) then num / den + 1 else num / den := by
    simp only [roundDiv, Tie.roundsUp, decide_eq_true_eq]
  rw [hround, round_eq, Int.floor_eq_iff, hquotient]
  generalize num / den = quotient
  split
  case isTrue hup =>
    rw [hhalf] at hup
    push_cast
    constructor <;> linarith
  case isFalse hdown =>
    rw [hhalf, not_le] at hdown
    push_cast
    constructor <;> linarith

/-! ## Literals -/

/-- What a numeral denotes is the number of its digits, in units of its last place. -/
theorem Denotes.parts {cs : List Char} {q : ℚ} (h : Denotes cs q) :
    ∃ whole fraction, splitPoint cs = (whole, fraction) ∧ areDigits whole fraction = true ∧
      q = digitsValue (whole ++ fraction) / 10 ^ fraction.length := by
  cases h with
  | whole hdigits =>
    rw [isNumeral, Bool.and_eq_true, List.all_eq_true] at hdigits
    have hpoint : '.' ∉ cs := fun hmem => absurd (hdigits.2 _ hmem) (by decide)
    refine ⟨cs, [], ?_, ?_, ?_⟩
    · rw [splitPoint, cutAt_eq_none hpoint]
      rfl
    · simpa [areDigits] using hdigits
    · simp
  | @point whole fraction hwhole hfraction hsome =>
    have hpoint : '.' ∉ whole := fun hmem => absurd (hwhole _ hmem) (by decide)
    refine ⟨whole, fraction, ?_, ?_, ?_⟩
    · rw [splitPoint, cutAt_append hpoint]
      rfl
    · simp only [areDigits, Bool.and_eq_true, Bool.or_eq_true, Bool.not_eq_true',
        List.isEmpty_eq_false_iff, List.all_eq_true]
      exact ⟨⟨hsome, hwhole⟩, hfraction⟩
    · rw [digitsValue_append]
      push_cast
      field_simp

theorem Denotes.nonneg {cs : List Char} {q : ℚ} (h : Denotes cs q) : 0 ≤ q := by
  cases h <;> positivity

theorem Denotes.mem {cs : List Char} {q : ℚ} (h : Denotes cs q) :
    ∀ c ∈ cs, c.isDigit = true ∨ c = '.' := by
  cases h with
  | whole hdigits =>
    rw [isNumeral, Bool.and_eq_true, List.all_eq_true] at hdigits
    exact fun c hc => .inl (hdigits.2 c hc)
  | point hwhole hfraction _ =>
    intro c hc
    rcases List.mem_append.1 hc with hc | hc
    · exact .inl (hwhole c hc)
    · rcases List.mem_cons.1 hc with hc | hc
      · exact .inr hc
      · exact .inl (hfraction c hc)

theorem Denotes.splitSign {cs : List Char} {q : ℚ} (h : Denotes cs q) :
    splitSign cs = (false, cs) := by
  unfold Decimal.splitSign
  split
  · exact absurd (h.mem _ List.mem_cons_self) (by decide)
  · exact absurd (h.mem _ List.mem_cons_self) (by decide)
  · rfl

theorem Denotes.plainPlaces {cs : List Char} {q : ℚ} (h : Denotes cs q) :
    ∃ whole fraction, splitPoint cs = (whole, fraction) ∧ areDigits whole fraction = true ∧
      ∀ scale negative, plainPlaces scale negative whole fraction =
        numeralOf scale (nearestWhole ((if negative then -q else q) * 10 ^ scale)) := by
  obtain ⟨whole, fraction, hpoint, hdigits, hvalue⟩ := h.parts
  refine ⟨whole, fraction, hpoint, hdigits, fun scale negative => ?_⟩
  simp only [areDigits, Bool.and_eq_true, List.all_eq_true] at hdigits
  rw [plainPlaces_eq hdigits.1.2 hdigits.2]
  dsimp only
  generalize hunits : roundDiv .awayFromZero (digitsValue (whole ++ fraction) * 10 ^ scale)
    (10 ^ fraction.length) = units
  have hround : nearestWhole (q * 10 ^ scale) = units := by
    have hquotient : q * 10 ^ scale =
        ((digitsValue (whole ++ fraction) * 10 ^ scale : ℕ) : ℚ) / (10 ^ fraction.length : ℕ) := by
      rw [hvalue]
      push_cast
      ring
    rw [nearestWhole_of_nonneg (mul_nonneg h.nonneg (by positivity)), hquotient,
      round_div (by positivity), hunits]
  rw [signed_fixedPlaces fun hsign => bne_iff_ne.1 (Bool.and_eq_true_iff.1 hsign).2]
  cases negative with
  | false => rw [Bool.false_and, if_neg Bool.false_ne_true, if_neg Bool.false_ne_true, hround]
  | true =>
    rw [if_pos rfl, neg_mul, nearestWhole_neg, hround]
    rcases eq_or_ne units 0 with rfl | hne
    · rfl
    · rw [if_pos (by simpa using hne)]

/-- A literal is a numeral behind a sign. -/
theorem PlainLiteral.splitSign {cs : List Char} {q : ℚ} (h : PlainLiteral cs q) :
    ∃ negative numeral magnitude, splitSign cs = (negative, numeral) ∧
      Denotes numeral magnitude ∧ q = if negative then -magnitude else magnitude := by
  cases h with
  | unsigned h => exact ⟨false, _, _, h.splitSign, h, rfl⟩
  | plus h => exact ⟨false, _, _, rfl, h, rfl⟩
  | minus h => exact ⟨true, _, _, rfl, h, rfl⟩

/-! ## Canonical numerals -/

section
variable {scale : ℕ}

theorem fixedPlaces_parts (scale n : ℕ) :
    ∃ whole fraction, isNumeral whole = true ∧ (whole.head? = some '0' → whole = ['0']) ∧
      (∀ c ∈ fraction, c.isDigit = true) ∧ fraction.length = scale ∧
      n = 10 ^ scale * digitsValue whole + digitsValue fraction ∧
      fixedPlaces scale n = if scale = 0 then whole else whole ++ '.' :: fraction := by
  refine ⟨digits (n / 10 ^ scale), if scale = 0 then [] else paddedDigits scale (n % 10 ^ scale),
    isNumeral_digits _, fun hhead => ?_, ?_, ?_, ?_, ?_⟩
  · rcases Nat.eq_zero_or_pos (n / 10 ^ scale) with hzero | hpos
    · rw [hzero]
      rfl
    · exact absurd hhead (head?_digits hpos)
  · split
    · exact fun _ hc => absurd hc List.not_mem_nil
    · exact fun _ => isDigit_of_mem_paddedDigits
  · split
    case isTrue hzero => exact hzero.symm
    case isFalse hzero =>
      exact length_paddedDigits (Nat.pos_of_ne_zero hzero) (Nat.mod_lt _ (by positivity))
  · rw [digitsValue_digits]
    split
    case isTrue hzero => simp [hzero, digitsValue]
    case isFalse => rw [digitsValue_paddedDigits, Nat.div_add_mod]
  · rw [fixedPlaces]
    simp only [Nat.pow_eq]
    split <;> rfl

/-- Parts without superfluous zeros are those of their number. -/
theorem fixedPlaces_of_parts {whole fraction : List Char} (hwhole : isNumeral whole = true)
    (hzero : whole.head? = some '0' → whole = ['0']) (hfraction : ∀ c ∈ fraction, c.isDigit = true)
    (hlength : fraction.length = scale) :
    fixedPlaces scale (10 ^ scale * digitsValue whole + digitsValue fraction) =
      if scale = 0 then whole else whole ++ '.' :: fraction := by
  rw [isNumeral, Bool.and_eq_true, List.all_eq_true] at hwhole
  have hdigits : ∀ c ∈ whole ++ fraction, c.isDigit = true :=
    List.forall_mem_append.2 ⟨hwhole.2, hfraction⟩
  have hsplit : (whole ++ fraction).length - scale = whole.length := by
    rw [List.length_append, hlength, Nat.add_sub_cancel]
  have hplain : withoutZeros whole = whole := by
    rw [withoutZeros_eq hwhole.2, digits_digitsValue hwhole.2 (by simpa using hwhole.1) hzero]
  rw [← hlength, ← digitsValue_append, hlength,
    fixedPlaces_digitsValue hdigits (by rw [List.length_append]; omega), hsplit, List.take_left,
    List.drop_left, hplain]
  split
  · rw [List.append_nil]
  · rfl

/-- A number of `scale` places has one canonical numeral. -/
theorem canonical_iff (units : ℤ) (cs : List Char) :
    Canonical scale (units / 10 ^ scale) cs ↔ cs = numeralOf scale units := by
  have hten : (0 : ℚ) < 10 ^ scale := by positivity
  have hnegative : ((units : ℚ) / 10 ^ scale < 0) ↔ units < 0 := by
    rw [div_lt_iff₀ hten, zero_mul]
    exact Int.cast_lt_zero
  have hmagnitude (whole fraction : List Char) :
      |(units : ℚ) / 10 ^ scale| = digitsValue whole + digitsValue fraction / 10 ^ scale ↔
        units.natAbs = 10 ^ scale * digitsValue whole + digitsValue fraction := by
    rw [abs_div, abs_of_pos hten, div_eq_iff hten.ne', add_mul, div_mul_cancel₀ _ hten.ne',
      mul_comm, ← @Nat.cast_inj ℚ, Nat.cast_natAbs]
    push_cast
    rfl
  constructor
  · rintro ⟨hwhole, hzero, hfraction, hlength, hsign, hvalue⟩
    rename_i negative whole fraction
    have hnegative : decide (units < 0) = negative := by
      rw [Bool.eq_iff_iff, decide_eq_true_eq, hsign, hnegative]
    rw [numeralOf, hnegative, (hmagnitude _ _).1 hvalue,
      fixedPlaces_of_parts hwhole hzero hfraction hlength]
  · rintro rfl
    obtain ⟨whole, fraction, hwhole, hzero, hfraction, hlength, hvalue, hplaces⟩ :=
      fixedPlaces_parts scale units.natAbs
    rw [numeralOf, hplaces]
    exact .mk hwhole hzero hfraction hlength (by rw [decide_eq_true_eq, hnegative])
      ((hmagnitude _ _).2 hvalue)

theorem denotes_fixedPlaces (scale n : ℕ) : Denotes (fixedPlaces scale n) (n / 10 ^ scale) := by
  obtain ⟨whole, fraction, hwhole, -, hfraction, hlength, hvalue, hplaces⟩ :=
    fixedPlaces_parts scale n
  rw [hplaces, hvalue]
  split
  case isTrue hscale =>
    have hnil : fraction = [] := List.length_eq_zero_iff.1 (hlength.trans hscale)
    have hzero : digitsValue [] = 0 := rfl
    rw [hnil, hscale, hzero, Nat.add_zero, pow_zero, pow_zero, Nat.one_mul, div_one]
    exact .whole hwhole
  case isFalse =>
    rw [isNumeral, Bool.and_eq_true, List.all_eq_true] at hwhole
    have hdenotes : Denotes (whole ++ '.' :: fraction)
        (digitsValue whole + digitsValue fraction / 10 ^ fraction.length) :=
      .point hwhole.2 hfraction (.inl (by simpa using hwhole.1))
    rw [hlength] at hdenotes
    push_cast
    rwa [add_div, mul_div_cancel_left₀ _ (by positivity)]

theorem plainLiteral_numeralOf (scale : ℕ) (units : ℤ) :
    PlainLiteral (numeralOf scale units) (units / 10 ^ scale) := by
  have hplaces := denotes_fixedPlaces scale units.natAbs
  rw [Nat.cast_natAbs, Int.cast_abs] at hplaces
  unfold numeralOf
  rcases lt_or_ge units 0 with hneg | hnonneg
  · have hunits : (units : ℚ) < 0 := by exact_mod_cast hneg
    rw [abs_of_neg hunits, neg_div] at hplaces
    rw [decide_eq_true hneg, ← neg_neg ((units : ℚ) / 10 ^ scale)]
    exact .minus hplaces
  · have hunits : (0 : ℚ) ≤ units := by exact_mod_cast hnonneg
    rw [abs_of_nonneg hunits] at hplaces
    rw [decide_eq_false hnonneg.not_gt]
    exact .unsigned hplaces

end

end SchemaPlan.Decimal

namespace SchemaPlan.MySql

open Decimal

/-! ## Stored decimals -/

theorem decimalNumeral?_of_plain {cs : List Char} {q : ℚ} (h : PlainLiteral cs q) (scale : ℕ) :
    decimalNumeral? scale cs = some (numeralOf scale (nearestWhole (q * 10 ^ scale))) := by
  obtain ⟨negative, numeral, magnitude, hsign, hnumeral, rfl⟩ := h.splitSign
  obtain ⟨whole, fraction, hpoint, hdigits, hplaces⟩ := hnumeral.plainPlaces
  rw [decimalNumeral?, hsign]
  dsimp only
  rw [hpoint]
  dsimp only
  rw [if_pos hdigits, hplaces]

/-- A canonical numeral is stored as it is. -/
theorem decimalNumeral?_numeralOf (scale : ℕ) (units : ℤ) :
    decimalNumeral? scale (numeralOf scale units) = some (numeralOf scale units) := by
  rw [decimalNumeral?_of_plain (plainLiteral_numeralOf scale units),
    div_mul_cancel₀ _ (by positivity), nearestWhole_intCast]

/-- A literal without an exponent is stored as the canonical numeral of its exact value, rounded
half away from zero. There is one such numeral; it is stored as it is, and so are all other
literals of that value. The digits are not counted: for those of a machine, this is what is laid out
below `capacityBound` digits. -/
theorem decimalNumeral_rounds {cs : List Char} {q : ℚ} (h : PlainLiteral cs q) (scale : ℕ) :
    ∃ numeral, decimalNumeral? scale cs = some numeral ∧
      (∀ other, Canonical scale (roundedTo scale q) other ↔ other = numeral) ∧
      decimalNumeral? scale numeral = some numeral ∧
      ∀ other, PlainLiteral other q → decimalNumeral? scale other = some numeral :=
  ⟨numeralOf scale (nearestWhole (q * 10 ^ scale)), decimalNumeral?_of_plain h scale,
    canonical_iff _, decimalNumeral?_numeralOf scale _,
    fun _ hother => decimalNumeral?_of_plain hother scale⟩

/-- A carry through all digits of a negative number. -/
theorem decimalNumeral_rounds_minus : PlainLiteral "-09.995".toList (-(9 + 995 / 10 ^ 3)) ∧
    ∃ numeral, decimalNumeral? 2 "-09.995".toList = some numeral ∧
      (∀ other, Canonical 2 (roundedTo 2 (-(9 + 995 / 10 ^ 3))) other ↔ other = numeral) ∧
      decimalNumeral? 2 numeral = some numeral ∧
      ∀ other, PlainLiteral other (-(9 + 995 / 10 ^ 3)) →
        decimalNumeral? 2 other = some numeral :=
  have hliteral : PlainLiteral "-09.995".toList (-(9 + 995 / 10 ^ 3)) :=
    .minus (@Denotes.point "09".toList "995".toList (by decide) (by decide) (.inl (by decide)))
  ⟨hliteral, decimalNumeral_rounds hliteral 2⟩

example : decimalNumeral? 2 "-09.995".toList = some "-10.00".toList := by decide

end SchemaPlan.MySql
