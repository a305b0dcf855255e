import Mathlib.Data.List.TakeWhile
import SchemaPlan.Proofs.Binary64
import SchemaPlan.Proofs.DecimalRounding

/-!
# The grammar of numeric literals

A numeric literal is a plain one, or a plain one with an exponent behind it: a letter and digits
with a sign. It denotes a rational number, and it is read as this number, however large the exponent
is.

* `ExponentLiteral`: the literals with an exponent and the numbers that they denote.
* `isNumericLiteral_iff`: the texts that are read as numbers are the literals.
* `ExponentLiteral.read?`: a literal is read as the number that it denotes.
-/
namespace SchemaPlan.Decimal

open Text

/-- Digits behind a sign, and the whole number that they denote. -/
inductive WholeLiteral : List Char → ℤ → Prop
  | unsigned {cs : List Char} (h : isNumeral cs = true) : WholeLiteral cs (digitsValue cs)
  | plus {cs : List Char} (h : isNumeral cs = true) : WholeLiteral ('+' :: cs) (digitsValue cs)
  | minus {cs : List Char} (h : isNumeral cs = true) : WholeLiteral ('-' :: cs) (-digitsValue cs)

/-- A decimal literal with an exponent, and the number that it denotes. -/
inductive ExponentLiteral : List Char → ℚ → Prop
  | mk {mantissa power : List Char} {letter : Char} {m : ℚ} {e : ℤ}
      (hmantissa : PlainLiteral mantissa m) (hletter : letter = 'e' ∨ letter = 'E')
      (hpower : WholeLiteral power e) : ExponentLiteral (mantissa ++ letter :: power) (m * 10 ^ e)

def Literal.value (number : Literal) : ℚ :=
  if number.negative then -number.magnitude else number.magnitude

theorem Literal.abs_value (number : Literal) : |number.value| = number.magnitude := by
  have hnonneg : 0 ≤ number.magnitude := mul_nonneg (Nat.cast_nonneg _) (zpow_ten_pos _).le
  unfold Literal.value
  split
  · rw [abs_neg, abs_of_nonneg hnonneg]
  · exact abs_of_nonneg hnonneg

theorem Literal.value_scaled (number : Literal) (e : ℤ) :
    Literal.value { number with exponent := number.exponent + e } = number.value * 10 ^ e := by
  unfold Literal.value Literal.magnitude
  dsimp only
  rw [zpow_add₀ (by norm_num)]
  split <;> ring

/-! ## Signs -/

theorem splitSign_cases (cs : List Char) :
    (∃ rest, cs = '-' :: rest ∧ splitSign cs = (true, rest)) ∨
      (∃ rest, cs = '+' :: rest ∧ splitSign cs = (false, rest)) ∨
      (splitSign cs = (false, cs) ∧ cs.head? ≠ some '-') := by
  unfold splitSign
  split
  · exact .inl ⟨_, rfl, rfl⟩
  · exact .inr (.inl ⟨_, rfl, rfl⟩)
  · rename_i hminus _
    refine .inr (.inr ⟨rfl, fun hhead => ?_⟩)
    obtain ⟨rest, rfl⟩ := List.head?_eq_some_iff.1 hhead
    exact hminus rest rfl

theorem fst_splitSign (cs : List Char) : (splitSign cs).1 = true ↔ cs.head? = some '-' := by
  obtain ⟨rest, rfl, h⟩ | ⟨rest, rfl, h⟩ | ⟨h, hhead⟩ := splitSign_cases cs
  · simp [h]
  · simp [h]
  · simp [h, hhead]

theorem readExponent?_eq_some_iff {cs : List Char} {e : ℤ} :
    readExponent? cs = some e ↔ WholeLiteral cs e := by
  constructor
  · intro h
    unfold readExponent? at h
    obtain ⟨rest, rfl, hsign⟩ | ⟨rest, rfl, hsign⟩ | ⟨hsign, -⟩ := splitSign_cases cs <;>
      rw [hsign] at h <;> dsimp only at h <;> split at h
    · rename_i hdigits
      obtain rfl := Option.some.inj h
      exact .minus hdigits
    · cases h
    · rename_i hdigits
      obtain rfl := Option.some.inj h
      exact .plus hdigits
    · cases h
    · rename_i hdigits
      obtain rfl := Option.some.inj h
      exact .unsigned hdigits
    · cases h
  · rintro (⟨hdigits⟩ | ⟨hdigits⟩ | ⟨hdigits⟩)
    · rw [readExponent?, (Denotes.whole hdigits).splitSign]
      exact if_pos hdigits
    · exact if_pos hdigits
    · exact if_pos hdigits

/-! ## Plain literals -/

/-- Digits around a point denote the number of all digits, in units of the last place. -/
theorem denotes_of_areDigits {cs whole fraction : List Char}
    (hpoint : splitPoint cs = (whole, fraction)) (hdigits : areDigits whole fraction = true) :
    Denotes cs (digitsValue (whole ++ fraction) / 10 ^ fraction.length) := by
  simp only [areDigits, Bool.and_eq_true, Bool.or_eq_true, Bool.not_eq_true',
    List.isEmpty_eq_false_iff, List.all_eq_true] at hdigits
  obtain ⟨⟨hsome, hwhole⟩, hfraction⟩ := hdigits
  unfold splitPoint at hpoint
  cases hcut : cutAt '.' cs with
  | none =>
    rw [hcut] at hpoint
    obtain ⟨rfl, rfl⟩ := Prod.mk.inj hpoint
    rw [List.append_nil, List.length_nil, pow_zero, div_one]
    refine .whole ?_
    rw [isNumeral, Bool.and_eq_true, List.all_eq_true]
    exact ⟨by simpa using hsome, hwhole⟩
  | some parts =>
    rw [hcut, Option.getD_some] at hpoint
    obtain rfl := eq_of_cutAt (hcut.trans (congrArg some hpoint))
    have hvalue : (digitsValue (whole ++ fraction) / 10 ^ fraction.length : ℚ) =
        digitsValue whole + digitsValue fraction / 10 ^ fraction.length := by
      rw [digitsValue_append]
      push_cast
      field_simp
    rw [hvalue]
    exact .point hwhole hfraction hsome

theorem Literal.plain?_eq_some {cs : List Char} {number : Literal} (h : plain? cs = some number) :
    PlainLiteral cs number.value ∧ number.negative = (splitSign cs).1 := by
  unfold plain? at h
  generalize hsign : splitSign cs = parts at h
  obtain ⟨negative, rest⟩ := parts
  dsimp only at h
  generalize hpoint : splitPoint rest = parts at h
  obtain ⟨whole, fraction⟩ := parts
  dsimp only at h
  split at h
  case isFalse => cases h
  case isTrue hdigits =>
    obtain rfl := Option.some.inj h
    have hdenotes := denotes_of_areDigits hpoint hdigits
    have hmagnitude : Literal.magnitude ⟨negative, digitsValue (whole ++ fraction),
        -(fraction.length : ℤ)⟩ = digitsValue (whole ++ fraction) / 10 ^ fraction.length := by
      rw [Literal.magnitude, zpow_neg, zpow_natCast, div_eq_mul_inv]
    rw [← hmagnitude] at hdenotes
    refine ⟨?_, rfl⟩
    obtain ⟨rest, rfl, hcase⟩ | ⟨rest, rfl, hcase⟩ | ⟨hcase, -⟩ := splitSign_cases cs <;>
      obtain ⟨rfl, rfl⟩ := Prod.mk.inj (hcase.symm.trans hsign)
    · exact .minus hdenotes
    · exact .plus hdenotes
    · exact .unsigned hdenotes

theorem PlainLiteral.plain? {cs : List Char} {q : ℚ} (h : PlainLiteral cs q) :
    ∃ number, Literal.plain? cs = some number ∧ number.value = q := by
  obtain ⟨negative, numeral, magnitude, hsign, hnumeral, rfl⟩ := h.splitSign
  obtain ⟨whole, fraction, hpoint, hdigits, rfl⟩ := hnumeral.parts
  refine ⟨⟨negative, digitsValue (whole ++ fraction), -(fraction.length : ℤ)⟩, ?_, ?_⟩
  · rw [Literal.plain?, hsign]
    dsimp only
    rw [hpoint]
    exact if_pos hdigits
  · rw [Literal.value, Literal.magnitude, zpow_neg, zpow_natCast, div_eq_mul_inv]

theorem PlainLiteral.mem {cs : List Char} {q : ℚ} (h : PlainLiteral cs q) :
    ∀ c ∈ cs, c.isDigit = true ∨ c ∈ ['.', '+', '-'] := by
  have hnumeral {numeral : List Char} {magnitude : ℚ} (hdenotes : Denotes numeral magnitude) :
      ∀ c ∈ numeral, c.isDigit = true ∨ c ∈ ['.', '+', '-'] :=
    fun c hc => (hdenotes.mem c hc).imp_right fun hpoint => by simp [hpoint]
  cases h with
  | unsigned hdenotes => exact hnumeral hdenotes
  | plus hdenotes => exact List.forall_mem_cons.2 ⟨.inr (by decide), hnumeral hdenotes⟩
  | minus hdenotes => exact List.forall_mem_cons.2 ⟨.inr (by decide), hnumeral hdenotes⟩

theorem PlainLiteral.ne_nil {cs : List Char} {q : ℚ} (h : PlainLiteral cs q) : cs ≠ [] := by
  cases h with
  | unsigned hdenotes =>
    cases hdenotes with
    | whole hdigits => rintro rfl; cases hdigits
    | point => simp
  | plus => exact List.cons_ne_nil _ _
  | minus => exact List.cons_ne_nil _ _

theorem PlainLiteral.not_letter {cs : List Char} {q : ℚ} (h : PlainLiteral cs q) :
    ∀ c ∈ cs, (c != 'e' && c != 'E') = true := by
  intro c hc
  rcases h.mem c hc with hdigit | hmark
  · have hcode := toNat_of_isDigit hdigit
    rw [Bool.and_eq_true, bne_iff_ne, bne_iff_ne]
    constructor <;> rintro rfl <;> exact absurd hcode (by decide)
  · exact (by decide : ∀ c ∈ ['.', '+', '-'], (c != 'e' && c != 'E') = true) c hmark

theorem Denotes.signed {cs : List Char} {q : ℚ} (h : Denotes cs q) (negative : Bool) :
    PlainLiteral (Decimal.signed negative cs) (if negative then -q else q) ∧
      Decimal.splitSign (Decimal.signed negative cs) = (negative, cs) := by
  cases negative with
  | false => exact ⟨.unsigned h, h.splitSign⟩
  | true => exact ⟨.minus h, rfl⟩

/-! ## Exponents -/

theorem splitExponent_eq_none {cs : List Char} (h : ∀ c ∈ cs, (c != 'e' && c != 'E') = true) :
    splitExponent cs = (cs, none) := by
  rw [splitExponent, List.span_eq_takeWhile_dropWhile, List.takeWhile_eq_self_iff.2 h,
    List.dropWhile_eq_nil_iff.2 h]

theorem splitExponent_append {mantissa power : List Char} {letter : Char}
    (h : ∀ c ∈ mantissa, (c != 'e' && c != 'E') = true) (hletter : letter = 'e' ∨ letter = 'E') :
    splitExponent (mantissa ++ letter :: power) = (mantissa, some power) := by
  have hstop : (letter != 'e' && letter != 'E') = false := by rcases hletter with rfl | rfl <;> rfl
  rw [splitExponent, List.span_eq_takeWhile_dropWhile, List.takeWhile_append_of_pos h,
    List.dropWhile_append_of_pos h, List.takeWhile_cons, List.dropWhile_cons, hstop]
  simp

theorem splitExponent_cases (cs : List Char) :
    (splitExponent cs = (cs, none) ∧ 'e' ∉ cs ∧ 'E' ∉ cs) ∨
      ∃ mantissa letter power, splitExponent cs = (mantissa, some power) ∧
        cs = mantissa ++ letter :: power ∧ (letter = 'e' ∨ letter = 'E') := by
  by_cases hnone : ∀ c ∈ cs, (c != 'e' && c != 'E') = true
  · exact .inl ⟨splitExponent_eq_none hnone, fun hmem => absurd (hnone _ hmem) (by decide),
      fun hmem => absurd (hnone _ hmem) (by decide)⟩
  · have hrest : cs.dropWhile (fun c => c != 'e' && c != 'E') ≠ [] :=
      fun hnil => hnone (List.dropWhile_eq_nil_iff.1 hnil)
    obtain ⟨letter, power, hparts⟩ := List.exists_cons_of_ne_nil hrest
    have hstop := List.head_dropWhile_not _ hrest
    have hletter : letter = 'e' ∨ letter = 'E' := by
      simp only [hparts, List.head_cons] at hstop
      by_contra hother
      simp [not_or.1 hother] at hstop
    have hcs : cs = cs.takeWhile (fun c => c != 'e' && c != 'E') ++ letter :: power := by
      rw [← hparts, List.takeWhile_append_dropWhile]
    refine .inr ⟨_, letter, power, ?_, hcs, hletter⟩
    conv_lhs => rw [hcs]
    exact splitExponent_append (fun c => List.mem_takeWhile_imp) hletter

/-- A literal without an exponent is read as the number that it denotes. -/
theorem PlainLiteral.read? {cs : List Char} {q : ℚ} (h : PlainLiteral cs q) :
    ∃ number, Literal.read? cs = some number ∧ number.value = q ∧
      number.negative = (Decimal.splitSign cs).1 := by
  obtain ⟨number, hplain, hvalue⟩ := h.plain?
  refine ⟨number, ?_, hvalue, (Literal.plain?_eq_some hplain).2⟩
  rw [Literal.read?, splitExponent_eq_none h.not_letter]
  dsimp only
  rw [hplain]
  rfl

/-- A literal with an exponent is read as the number that it denotes. -/
theorem ExponentLiteral.read? {cs : List Char} {q : ℚ} (h : ExponentLiteral cs q) :
    ∃ number, Literal.read? cs = some number ∧ number.value = q ∧
      number.negative = (splitSign cs).1 := by
  obtain ⟨hmantissa, hletter, hpower⟩ := h
  rename_i mantissa power letter m e
  obtain ⟨number, hplain, rfl⟩ := hmantissa.plain?
  refine ⟨{ number with exponent := number.exponent + e }, ?_, number.value_scaled e, ?_⟩
  · rw [Literal.read?, splitExponent_append hmantissa.not_letter hletter]
    dsimp only
    rw [hplain, Option.bind_some, readExponent?_eq_some_iff.2 hpower]
    rfl
  · -- The sign stands in front of the mantissa, which is not empty.
    have hhead : (mantissa ++ letter :: power).head? = mantissa.head? := by
      rw [List.head?_append, List.head?_eq_some_head hmantissa.ne_nil]
      rfl
    rw [(Literal.plain?_eq_some hplain).2, Bool.eq_iff_iff, fst_splitSign, fst_splitSign, hhead]

/-- The texts that are read as numbers are the literals. -/
theorem isNumericLiteral_iff {cs : List Char} :
    isNumericLiteral cs = true ↔ (∃ q, PlainLiteral cs q) ∨ ∃ q, ExponentLiteral cs q := by
  constructor
  · intro h
    obtain ⟨number, hread⟩ := Option.isSome_iff_exists.1 h
    unfold Literal.read? at hread
    obtain ⟨hsplit, -⟩ | ⟨mantissa, letter, power, hsplit, rfl, hletter⟩ := splitExponent_cases cs
    · rw [hsplit] at hread
      obtain ⟨plain, hplain, -⟩ := Option.bind_eq_some_iff.1 hread
      exact .inl ⟨_, (Literal.plain?_eq_some hplain).1⟩
    · rw [hsplit] at hread
      obtain ⟨plain, hplain, hpower⟩ := Option.bind_eq_some_iff.1 hread
      obtain ⟨e, he, -⟩ := Option.map_eq_some_iff.1 hpower
      exact .inr ⟨_, .mk (Literal.plain?_eq_some hplain).1 hletter (readExponent?_eq_some_iff.1 he)⟩
  · rintro (⟨q, h⟩ | ⟨q, h⟩)
    · obtain ⟨number, hread, -⟩ := h.read?
      exact Option.isSome_of_eq_some hread
    · obtain ⟨number, hread, -⟩ := h.read?
      exact Option.isSome_of_eq_some hread

theorem WholeLiteral.mem {cs : List Char} {e : ℤ} (h : WholeLiteral cs e) :
    ∀ c ∈ cs, c.isDigit = true ∨ c ∈ ['+', '-'] := by
  have hnumeral {digits : List Char} (hdigits : isNumeral digits = true) :
      ∀ c ∈ digits, c.isDigit = true ∨ c ∈ ['+', '-'] := by
    rw [isNumeral, Bool.and_eq_true, List.all_eq_true] at hdigits
    exact fun c hc => .inl (hdigits.2 c hc)
  cases h with
  | unsigned hdigits => exact hnumeral hdigits
  | plus hdigits => exact List.forall_mem_cons.2 ⟨.inr (by decide), hnumeral hdigits⟩
  | minus hdigits => exact List.forall_mem_cons.2 ⟨.inr (by decide), hnumeral hdigits⟩

theorem mem_of_isNumericLiteral {cs : List Char} (h : isNumericLiteral cs = true) :
    ∀ c ∈ cs, c.isDigit = true ∨ c ∈ ['.', '+', '-', 'e', 'E'] := by
  have hplain {text : List Char} {q : ℚ} (hliteral : PlainLiteral text q) :
      ∀ c ∈ text, c.isDigit = true ∨ c ∈ ['.', '+', '-', 'e', 'E'] := fun c hc =>
    (hliteral.mem c hc).imp_right fun hmark => List.mem_append_left ['e', 'E'] hmark
  rcases isNumericLiteral_iff.1 h with ⟨q, hliteral⟩ | ⟨q, hmantissa, hletter, hpower⟩
  · exact hplain hliteral
  · refine List.forall_mem_append.2 ⟨hplain hmantissa, List.forall_mem_cons.2 ⟨.inr ?_, ?_⟩⟩
    · rcases hletter with rfl | rfl <;> decide
    · exact fun c hc => (hpower.mem c hc).imp_right fun hmark =>
        (by decide : ∀ c ∈ ['+', '-'], c ∈ ['.', '+', '-', 'e', 'E']) c hmark

end SchemaPlan.Decimal
