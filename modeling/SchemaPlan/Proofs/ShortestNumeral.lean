import SchemaPlan.Decimal.Shortest
import SchemaPlan.Proofs.NumericLiteral

/-!
# Shortest numerals are read back

The shortest numeral of a binary64 number is found on decimal grids that become finer and finer.
The search takes a point of a grid only if it rounds to the number, and the last grid is so fine
that it has such a point: the distance of its points is less than that of the ends of the interval.

* `holds_around_iff`: the test for grid points is that of the interval.
* `rounds_of_fine_grid`: a grid with 17 digits has a point in the interval.
* `shortest_rounds`: the shortest numeral rounds to the number.
* `Denotes.read?`: a numeral behind a sign is read as what it denotes.
-/
namespace SchemaPlan.Decimal

/-! ## The interval -/

section
variable {mantissa : ℕ} {exponent : ℤ}

theorem around_spec (exponent : ℤ) (hpos : 0 < mantissa) :
    let interval := RoundingInterval.around mantissa exponent
    0 < interval.den ∧
      (interval.low / interval.den : ℚ) = (mantissa - gapBelow mantissa exponent) * 2 ^ exponent ∧
      (interval.value / interval.den : ℚ) = mantissa * 2 ^ exponent ∧
      (interval.high / interval.den : ℚ) = (mantissa + 1 / 2) * 2 ^ exponent := by
  obtain ⟨hden, hscale⟩ := binaryFraction_spec 1 (exponent - 2)
  have hquarter : (2 : ℚ) ^ exponent = 4 * 2 ^ (exponent - 2) := by
    rw [zpow_sub₀ two_ne_zero, zpow_ofNat]
    ring
  unfold RoundingInterval.around
  generalize binaryFraction 1 (exponent - 2) = parts at hden hscale
  rw [Nat.cast_one, one_mul] at hscale
  dsimp only
  rw [hquarter, ← hscale]
  have hgap : ((4 * mantissa - if (mantissa = leadingBit && decide (-1074 < exponent)) = true then 1
      else 2 : ℕ) : ℚ) = 4 * (mantissa - gapBelow mantissa exponent) := by
    have hcond : (mantissa = leadingBit && decide (-1074 < exponent)) = true ↔
        mantissa = 2 ^ 52 ∧ -1074 < exponent := by
      rw [Bool.and_eq_true, decide_eq_true_eq, decide_eq_true_eq]
      rfl
    unfold gapBelow
    simp only [hcond]
    split <;> rw [Nat.cast_sub (by omega)] <;> push_cast <;> ring
  refine ⟨hden, ?_, ?_, ?_⟩
  · rw [Nat.cast_mul, hgap]
    ring
  · push_cast
    ring
  · push_cast
    ring

theorem holds_around_iff (hpos : 0 < mantissa) {num den : ℕ} (hden : 0 < den) :
    (RoundingInterval.around mantissa exponent).holds num den = true ↔
      Rounds mantissa exponent (num / den) := by
  obtain ⟨hpart, hlow, -, hhigh⟩ := around_spec exponent hpos
  have hclosed : (RoundingInterval.around mantissa exponent).closed = (mantissa % 2 == 0) := rfl
  generalize RoundingInterval.around mantissa exponent = interval at *
  have hden' : (0 : ℚ) < den := by exact_mod_cast hden
  have hpart' : (0 : ℚ) < interval.den := by exact_mod_cast hpart
  have hle (a b c d : ℕ) (hb : (0 : ℚ) < b) (hd : (0 : ℚ) < d) :
      a * d ≤ c * b ↔ (a / b : ℚ) ≤ c / d := by
    rw [div_le_div_iff₀ hb hd]
    exact_mod_cast Iff.rfl
  have hlt (a b c d : ℕ) (hb : (0 : ℚ) < b) (hd : (0 : ℚ) < d) :
      a * d < c * b ↔ (a / b : ℚ) < c / d := by
    rw [div_lt_div_iff₀ hb hd]
    exact_mod_cast Iff.rfl
  unfold RoundingInterval.holds
  rw [hclosed]
  dsimp only
  split
  case isTrue heven =>
    rw [beq_iff_eq] at heven
    rw [Bool.and_eq_true, decide_eq_true_eq, decide_eq_true_eq, hle _ _ _ _ hpart' hden',
      hle _ _ _ _ hden' hpart', hlow, hhigh]
    exact ⟨fun h => ⟨h.1, h.2, fun hodd => by omega⟩, fun h => ⟨h.low, h.high⟩⟩
  case isFalse hodd =>
    rw [beq_iff_eq] at hodd
    rw [Bool.and_eq_true, decide_eq_true_eq, decide_eq_true_eq, hlt _ _ _ _ hpart' hden',
      hlt _ _ _ _ hden' hpart', hlow, hhigh]
    exact ⟨fun h => ⟨h.1.le, h.2.le, fun _ => h⟩, fun h => h.odd (by omega)⟩

/-! ## Grids -/

/-- A grid with 17 digits of the number has a point in the interval. -/
theorem rounds_of_fine_grid (h : Representable mantissa exponent) {unit : ℚ} (hunit : 0 < unit)
    (hfine : unit * 10 ^ 16 ≤ mantissa * 2 ^ exponent) {floor : ℕ}
    (hlow : floor * unit ≤ mantissa * 2 ^ exponent)
    (hhigh : mantissa * 2 ^ exponent < (floor + 1) * unit) :
    Rounds mantissa exponent (floor * unit) ∨ Rounds mantissa exponent ((floor + 1) * unit) := by
  have hpow := zpow_two_pos exponent
  have hgap := mul_pos (gapBelow_pos mantissa exponent) hpow
  -- The distance of two points is less than that of the ends.
  have hwidth : unit < (1 / 2 + gapBelow mantissa exponent) * 2 ^ exponent := by
    by_cases hleading : mantissa = 2 ^ 52 ∧ -1074 < exponent
    · have hquarter : gapBelow mantissa exponent = 1 / 4 := if_pos hleading
      rw [hleading.1] at hfine
      rw [hquarter]
      norm_num at hfine ⊢
      linarith
    · have hhalf : gapBelow mantissa exponent = 1 / 2 := if_neg hleading
      have hbound : (mantissa : ℚ) * 2 ^ exponent ≤ 2 ^ 53 * 2 ^ exponent :=
        mul_le_mul_of_nonneg_right (by exact_mod_cast h.bound.le) hpow.le
      rw [hhalf]
      norm_num at hfine hbound ⊢
      linarith
  rcases lt_or_ge ((floor + 1) * unit) ((mantissa + 1 / 2) * 2 ^ exponent) with hup | hdown
  · have hinside : (mantissa - gapBelow mantissa exponent) * 2 ^ exponent < (floor + 1) * unit := by
      linarith
    exact .inr ⟨hinside.le, hup.le, fun _ => ⟨hinside, hup⟩⟩
  · have hinside : (mantissa - gapBelow mantissa exponent) * 2 ^ exponent < floor * unit := by
      linarith
    have hbelow : floor * unit < (mantissa + 1 / 2) * 2 ^ exponent := by linarith
    exact .inl ⟨hinside.le, hbelow.le, fun _ => ⟨hinside, hbelow⟩⟩

def Scaled.value (x : Scaled) : ℚ :=
  x.coefficient * 10 ^ x.exponent

theorem gridPoint?_eq (tie : Tie) (interval : RoundingInterval) (grid : ℤ) :
    ∃ unit unitDen : ℕ, 0 < unit ∧ 0 < unitDen ∧ (unit / unitDen : ℚ) = 10 ^ grid ∧
      ∃ roundsUp : Bool, interval.gridPoint? tie grid =
        let floor := interval.value * unitDen / (interval.den * unit)
        let lower := interval.holds (floor * unit) unitDen
        let upper := interval.holds ((floor + 1) * unit) unitDen
        if upper && (roundsUp || !lower) then some ⟨floor + 1, grid⟩
        else if lower then some ⟨floor, grid⟩
        else none := by
  unfold RoundingInterval.gridPoint?
  simp only [Nat.pow_eq]
  by_cases h : 0 ≤ grid
  · refine ⟨10 ^ grid.toNat, 1, by positivity, Nat.one_pos, ?_, _, by rw [if_pos h]⟩
    rw [zpow_of_nonneg 10 h]
    push_cast
    rw [div_one]
  · refine ⟨1, 10 ^ (-grid).toNat, Nat.one_pos, by positivity, ?_, _, by rw [if_neg h]⟩
    rw [zpow_of_neg 10 h]
    push_cast
    rw [one_div]

/-- The point of a grid is the multiple of its unit below the number or the next one. It is in the
interval, and there is one if one of the two is. -/
theorem gridPoint?_cases (tie : Tie) (interval : RoundingInterval) (grid : ℤ) :
    ∃ unit unitDen : ℕ, 0 < unit ∧ 0 < unitDen ∧ (unit / unitDen : ℚ) = 10 ^ grid ∧
      let floor := interval.value * unitDen / (interval.den * unit)
      (∀ x, interval.gridPoint? tie grid = some x →
        x.exponent = grid ∧ interval.holds (x.coefficient * unit) unitDen = true) ∧
      (interval.holds (floor * unit) unitDen = true ∨
          interval.holds ((floor + 1) * unit) unitDen = true →
        ∃ x, interval.gridPoint? tie grid = some x) := by
  obtain ⟨unit, unitDen, hunit, hunitDen, hgrid, roundsUp, hpoint⟩ :=
    gridPoint?_eq tie interval grid
  refine ⟨unit, unitDen, hunit, hunitDen, hgrid, ?_⟩
  dsimp only at hpoint ⊢
  rw [hpoint]
  generalize interval.value * unitDen / (interval.den * unit) = floor
  constructor
  · intro x hx
    split at hx
    case isTrue hup =>
      obtain rfl := Option.some.inj hx
      exact ⟨rfl, (Bool.and_eq_true_iff.1 hup).1⟩
    case isFalse =>
      split at hx
      case isTrue hdown =>
        obtain rfl := Option.some.inj hx
        exact ⟨rfl, hdown⟩
      case isFalse => cases hx
  · intro h
    by_cases hlower : interval.holds (floor * unit) unitDen = true
    · rw [if_pos hlower]
      split <;> exact ⟨_, rfl⟩
    · exact ⟨_, if_pos (by simp [h.resolve_left hlower, hlower])⟩

/-- A grid has a point below the number and one above it. One of them is taken if it rounds to the
number. -/
theorem gridPoint?_around (tie : Tie) (hpos : 0 < mantissa) (grid : ℤ) :
    ∃ floor : ℕ, floor * 10 ^ grid ≤ (mantissa * 2 ^ exponent : ℚ) ∧
      (mantissa * 2 ^ exponent : ℚ) < (floor + 1) * 10 ^ grid ∧
      (∀ x, (RoundingInterval.around mantissa exponent).gridPoint? tie grid = some x →
        Rounds mantissa exponent x.value) ∧
      (Rounds mantissa exponent (floor * 10 ^ grid) ∨
          Rounds mantissa exponent ((floor + 1) * 10 ^ grid) →
        ∃ x, (RoundingInterval.around mantissa exponent).gridPoint? tie grid = some x) := by
  obtain ⟨unit, unitDen, hunit, hunitDen, hgrid, hfound, hexists⟩ :=
    gridPoint?_cases tie (RoundingInterval.around mantissa exponent) grid
  obtain ⟨hden, -, hvalue, -⟩ := around_spec exponent hpos
  have hholds (whole : ℕ) :
      (RoundingInterval.around mantissa exponent).holds (whole * unit) unitDen = true ↔
        Rounds mantissa exponent (whole * 10 ^ grid) := by
    rw [holds_around_iff hpos hunitDen, Nat.cast_mul, mul_div_assoc, hgrid]
  generalize RoundingInterval.around mantissa exponent = interval at *
  obtain ⟨rest, hquotient, hzero, hone, -⟩ :=
    exists_rest (interval.value * unitDen) (Nat.mul_pos hden hunit)
  have hgridpos := zpow_ten_pos grid
  have hnumber : (mantissa * 2 ^ exponent : ℚ) =
      ((interval.value * unitDen / (interval.den * unit) : ℕ) + rest) * 10 ^ grid := by
    have hden' : (interval.den : ℚ) ≠ 0 := by exact_mod_cast hden.ne'
    have hunit' : (unit : ℚ) ≠ 0 := by exact_mod_cast hunit.ne'
    have hunitDen' : (unitDen : ℚ) ≠ 0 := by exact_mod_cast hunitDen.ne'
    rw [← hquotient, ← hvalue, ← hgrid]
    push_cast
    field_simp
  rw [hnumber]
  generalize interval.value * unitDen / (interval.den * unit) = floor at hexists ⊢
  refine ⟨floor, ?_, ?_, fun x hx => ?_, fun h => hexists ?_⟩
  · exact mul_le_mul_of_nonneg_right (by linarith) hgridpos.le
  · exact mul_lt_mul_of_pos_right (by linarith) hgridpos
  · obtain ⟨hexponent, hrounds⟩ := hfound x hx
    rw [Scaled.value, hexponent]
    exact (hholds x.coefficient).1 hrounds
  · rw [hholds, hholds, Nat.cast_add_one]
    exact h

theorem search_of_gridPoint? {interval : RoundingInterval} {tie : Tie} {p : Scaled → Prop}
    (hpoint : ∀ grid x, interval.gridPoint? tie grid = some x → p x) {grid : ℤ} {tries : ℕ}
    (h : ∃ i < tries, ∃ x, interval.gridPoint? tie (grid - i) = some x) :
    p (interval.search tie grid tries) := by
  induction tries generalizing grid with
  | zero =>
    obtain ⟨i, hi, -⟩ := h
    exact absurd hi (Nat.not_lt_zero i)
  | succ tries ih =>
    rw [RoundingInterval.search]
    cases hfound : interval.gridPoint? tie grid with
    | some x => exact hpoint grid x hfound
    | none =>
      refine ih ?_
      obtain ⟨i, hi, x, hx⟩ := h
      cases i with
      | zero =>
        rw [Nat.cast_zero, sub_zero, hfound] at hx
        cases hx
      | succ i =>
        refine ⟨i, Nat.lt_of_succ_lt_succ hi, x, ?_⟩
        rw [← hx]
        congr 1
        push_cast
        ring

theorem floorLog10_le {num den : ℕ} (hnum : 0 < num) (hden : 0 < den) :
    (10 : ℚ) ^ floorLog10 num den ≤ num / den := by
  have hden' : (0 : ℚ) < den := by exact_mod_cast hden
  rw [le_div_iff₀ hden']
  unfold floorLog10
  split
  case isTrue hle =>
    have hlength : 1 ≤ (digits (num / den)).length := Nat.length_toDigits_pos
    have hpower := (digits_bounds (Nat.div_pos hle hden)).1
    rw [Nat.le_div_iff_mul_le hden] at hpower
    rw [← Nat.cast_one, ← Nat.cast_sub hlength, zpow_natCast]
    exact_mod_cast hpower
  case isFalse hgt =>
    -- The reciprocal, rounded up, has one digit more than a power of ten in front of it.
    have hpower : (den + num - 1) / num - 1 < 10 ^ (digits ((den + num - 1) / num - 1)).length :=
      (Nat.length_toDigits_le_iff (by decide) Nat.length_toDigits_pos).1 le_rfl
    generalize (digits ((den + num - 1) / num - 1)).length = length at hpower
    have hbound : (den + num - 1) / num < 10 ^ length + 1 := by omega
    rw [Nat.div_lt_iff_lt_mul hnum, Nat.succ_mul] at hbound
    have hle : den ≤ 10 ^ length * num := by omega
    rw [zpow_neg, zpow_natCast, inv_mul_le_iff₀ (by positivity)]
    exact_mod_cast hle

/-- The shortest numeral of a number rounds to it. -/
theorem shortest_rounds (tie : Tie) (h : Representable mantissa exponent) (hpos : 0 < mantissa) :
    Rounds mantissa exponent (shortest tie mantissa exponent).value := by
  rw [shortest, if_neg hpos.ne']
  refine search_of_gridPoint? (p := fun x => Rounds mantissa exponent x.value)
    (fun grid x hx => ?_) ⟨17, by decide, ?_⟩
  · obtain ⟨-, -, -, hpoint, -⟩ := gridPoint?_around tie hpos grid
    exact hpoint x hx
  · obtain ⟨hden, -, hvalue, -⟩ := around_spec exponent hpos
    have hmantissa : (0 : ℚ) < mantissa := by exact_mod_cast hpos
    have hnum : 0 < (RoundingInterval.around mantissa exponent).value := by
      refine Nat.pos_of_ne_zero fun hzero => ?_
      rw [hzero, Nat.cast_zero, zero_div] at hvalue
      exact absurd hvalue (mul_pos hmantissa (zpow_two_pos exponent)).ne
    have horder := floorLog10_le hnum hden
    rw [hvalue] at horder
    generalize floorLog10 _ _ = order at horder ⊢
    obtain ⟨floor, hlow, hhigh, -, hfound⟩ := gridPoint?_around tie hpos (order + 1 - (17 : ℕ))
    refine hfound (rounds_of_fine_grid h (zpow_ten_pos _) ?_ hlow hhigh)
    refine le_trans (le_of_eq ?_) horder
    rw [← zpow_natCast, ← zpow_add₀ (by norm_num)]
    congr 1
    push_cast
    ring

theorem shortest_zero (tie : Tie) (exponent : ℤ) : shortest tie 0 exponent = ⟨0, 0⟩ := rfl

end

/-! ## Numerals that are read back -/

theorem Denotes.read? {cs : List Char} {q : ℚ} (h : Denotes cs q) (negative : Bool) :
    ∃ number, Literal.read? (Decimal.signed negative cs) = some number ∧
      number.negative = negative ∧ number.magnitude = q := by
  obtain ⟨hliteral, hsign⟩ := h.signed negative
  obtain ⟨number, hread, hvalue, hnegative⟩ := hliteral.read?
  refine ⟨number, hread, by rw [hnegative, hsign], ?_⟩
  rw [← number.abs_value, hvalue]
  cases negative with
  | false => exact abs_of_nonneg h.nonneg
  | true => exact (abs_neg q).trans (abs_of_nonneg h.nonneg)

theorem denotes_positional (x : Scaled) : Denotes x.positional x.value := by
  unfold Scaled.positional Scaled.value
  simp only [Nat.pow_eq]
  split
  case isTrue h =>
    have hwhole := Denotes.whole (isNumeral_digits (x.coefficient * 10 ^ x.exponent.toNat))
    rw [digitsValue_digits] at hwhole
    rw [zpow_of_nonneg 10 h]
    push_cast at hwhole
    exact hwhole
  case isFalse h =>
    rw [zpow_of_neg 10 h, ← div_eq_mul_inv]
    exact denotes_fixedPlaces _ _

/-- The shortest numeral of a binary64 number is read back as this number. -/
theorem read?_shortest (tie : Tie) {mantissa : ℕ} {exponent : ℤ}
    (h : Representable mantissa exponent) (negative : Bool) :
    ∃ number, Literal.read? (signed negative (shortest tie mantissa exponent).positional) =
        some number ∧ number.negative = negative ∧ number.toBinary64 = .finite mantissa exponent := by
  obtain ⟨number, hread, hsign, hvalue⟩ :=
    (denotes_positional (shortest tie mantissa exponent)).read? negative
  refine ⟨number, hread, hsign, ?_⟩
  rcases Nat.eq_zero_or_pos mantissa with rfl | hpos
  · -- Only the least exponent has the mantissa zero.
    have hleast : exponent = -1074 := by
      by_contra hne
      have := h.leading (lt_of_le_of_ne h.least (Ne.symm hne))
      omega
    have hzero : number.coefficient = 0 := by
      rw [shortest_zero, Scaled.value, Literal.magnitude, Nat.cast_zero, zero_mul, mul_eq_zero]
        at hvalue
      exact_mod_cast hvalue.resolve_right (zpow_ten_pos _).ne'
    rw [Literal.toBinary64, if_pos (by simp [hzero]), hleast]
  · exact toBinary64_of_rounds h hpos (hvalue ▸ shortest_rounds tie h hpos)

end SchemaPlan.Decimal
