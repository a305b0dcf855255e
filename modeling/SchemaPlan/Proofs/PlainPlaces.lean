import Mathlib.Data.Rat.Floor
import Mathlib.Tactic.FieldSimp
import Mathlib.Tactic.Linarith
import Mathlib.Tactic.Positivity
import SchemaPlan.Decimal.Plain

/-!
# Rounding on digits and on numbers

Bringing a plain numeral to a fixed count of places works on its digits; here it is compared with
the same rounding of the number that they stand for. The carry is an induction over the digits from
the last one on, and the digits themselves are known from their number and their count.

* `eq_of_digitsValue`: a count of digits and their value determine the digits.
* `digitsValue_addOne`: what carrying does to the value.
* `digitsValue_roundedDigits`: the digits are those of the rounded quotient.
* `plainPlaces_eq`: the numeral is the one that the rounded number has.
-/
namespace SchemaPlan.Decimal

/-! ## The value of digits -/

theorem toNat_of_isDigit {c : Char} (h : c.isDigit = true) : 48 ≤ c.toNat ∧ c.toNat ≤ 57 := by
  rw [Char.isDigit, Bool.and_eq_true, decide_eq_true_eq, decide_eq_true_eq] at h
  exact ⟨UInt32.le_iff_toNat_le.1 h.1, UInt32.le_iff_toNat_le.1 h.2⟩

theorem digitsValue_append (a b : List Char) :
    digitsValue (a ++ b) = 10 ^ b.length * digitsValue a + digitsValue b := by
  show Nat.ofDigitChars 10 (a ++ b) 0 = _
  rw [Nat.ofDigitChars_append, Nat.ofDigitChars_eq_ofDigitChars_zero]
  rfl

theorem digitsValue_cons (c : Char) (cs : List Char) :
    digitsValue (c :: cs) = 10 ^ cs.length * (c.toNat - 48) + digitsValue cs := by
  rw [← List.singleton_append, digitsValue_append]
  simp [digitsValue]

@[simp] theorem digitsValue_zeros (n : Nat) : digitsValue (List.replicate n '0') = 0 := by
  show Nat.ofDigitChars 10 (List.replicate n '0') 0 = 0
  rw [Nat.ofDigitChars_replicate_zero, Nat.mul_zero]

theorem digitsValue_lt {cs : List Char} (h : ∀ c ∈ cs, c.isDigit = true) :
    digitsValue cs < 10 ^ cs.length := by
  induction cs with
  | nil => decide
  | cons c rest ih =>
    rw [List.forall_mem_cons] at h
    have hrest := ih h.2
    have hdigit : 10 ^ rest.length * (c.toNat - 48) ≤ 10 ^ rest.length * 9 :=
      Nat.mul_le_mul_left _ (by have := toNat_of_isDigit h.1; omega)
    rw [digitsValue_cons, List.length_cons, Nat.pow_succ]
    omega

theorem div_mod_of_lt {base rest : Nat} (first : Nat) (h : rest < base) :
    (base * first + rest) / base = first ∧ (base * first + rest) % base = rest := by
  rw [Nat.mul_add_div (Nat.zero_lt_of_lt h), Nat.div_eq_of_lt h, Nat.mul_add_mod,
    Nat.mod_eq_of_lt h]
  exact ⟨rfl, rfl⟩

/-- A count of digits and their value determine them. -/
theorem eq_of_digitsValue {a b : List Char} (ha : ∀ c ∈ a, c.isDigit = true)
    (hb : ∀ c ∈ b, c.isDigit = true) (hlength : a.length = b.length)
    (hvalue : digitsValue a = digitsValue b) : a = b := by
  induction a generalizing b with
  | nil => exact (List.length_eq_zero_iff.1 hlength.symm).symm
  | cons c rest ih =>
    obtain ⟨d, others, rfl⟩ : ∃ d others, b = d :: others :=
      List.exists_cons_of_ne_nil fun hnil => by simp [hnil] at hlength
    rw [List.forall_mem_cons] at ha hb
    rw [List.length_cons, List.length_cons, Nat.add_right_cancel_iff] at hlength
    rw [digitsValue_cons, digitsValue_cons, hlength] at hvalue
    -- The first digits are the quotients by the power of ten, all others the remainders.
    have hrest := div_mod_of_lt (c.toNat - 48) (hlength ▸ digitsValue_lt ha.2)
    have hothers := div_mod_of_lt (d.toNat - 48) (digitsValue_lt hb.2)
    rw [hvalue, hothers.1, hothers.2] at hrest
    obtain ⟨hfirst, hbehind⟩ := hrest
    have hc := toNat_of_isDigit ha.1
    have hd := toNat_of_isDigit hb.1
    rw [Char.toNat_inj.1 (by omega : c.toNat = d.toNat), ih ha.2 hb.2 hlength hbehind.symm]

theorem digitsValue_eq_zero_iff {cs : List Char} (h : ∀ c ∈ cs, c.isDigit = true) :
    digitsValue cs = 0 ↔ ∀ c ∈ cs, c = '0' := by
  constructor
  · intro hzero c hc
    have hzeros : cs = List.replicate cs.length '0' :=
      eq_of_digitsValue h (fun c hc => by rw [List.eq_of_mem_replicate hc]; decide) (by simp)
        (by rw [hzero, digitsValue_zeros])
    rw [hzeros] at hc
    exact List.eq_of_mem_replicate hc
  · intro hzeros
    rw [List.eq_replicate_iff.2 ⟨rfl, hzeros⟩, digitsValue_zeros]

/-! ## The digits of a value -/

theorem digits_digitsValue {cs : List Char} (h : ∀ c ∈ cs, c.isDigit = true) (hne : cs ≠ [])
    (hzero : cs.head? = some '0' → cs = ['0']) : digits (digitsValue cs) = cs := by
  obtain ⟨c, rest, rfl⟩ := List.exists_cons_of_ne_nil hne
  have hall : ∀ d ∈ digits (digitsValue (c :: rest)), d.isDigit = true :=
    fun d => isDigit_of_mem_digits
  refine eq_of_digitsValue hall h ?_ (digitsValue_digits _)
  refine Nat.le_antisymm ?_ (Nat.le_of_not_lt fun hshort => ?_)
  · exact (Nat.length_toDigits_le_iff (by decide) (by simp)).2 (digitsValue_lt h)
  · -- With fewer digits the value would be below that of the first digit alone.
    rw [List.length_cons, Nat.lt_succ_iff] at hshort
    have hpos : 0 < rest.length := Nat.lt_of_lt_of_le Nat.length_toDigits_pos hshort
    have hsmall := (Nat.length_toDigits_le_iff (by decide) hpos).1 hshort
    have hfirst : c ≠ '0' := by
      rintro rfl
      have hnil := (List.cons.inj (hzero rfl)).2
      simp [hnil] at hpos
    have hc := toNat_of_isDigit (List.forall_mem_cons.1 h).1
    have hcode : c.toNat ≠ 48 := fun heq => hfirst (Char.toNat_inj.1 heq)
    have hlarge : 10 ^ rest.length * 1 ≤ 10 ^ rest.length * (c.toNat - 48) :=
      Nat.mul_le_mul_left _ (by omega)
    rw [digitsValue_cons] at hsmall
    omega

theorem withoutZeros_eq {cs : List Char} (h : ∀ c ∈ cs, c.isDigit = true) :
    withoutZeros cs = digits (digitsValue cs) := by
  induction cs with
  | nil => rfl
  | cons c rest ih =>
    rw [List.forall_mem_cons] at h
    by_cases hc : c = '0'
    · have hskip : withoutZeros (c :: rest) = withoutZeros rest := by
        rw [withoutZeros, List.dropWhile_cons_of_pos (by simp [hc])]
        rfl
      rw [hskip, ih h.2, digitsValue_cons, hc]
      simp
    · have hkeep : withoutZeros (c :: rest) = c :: rest := by
        rw [withoutZeros, List.dropWhile_cons_of_neg (by simp [hc])]
      rw [hkeep, digits_digitsValue (List.forall_mem_cons.2 h) (List.cons_ne_nil _ _)]
      exact fun hzero => absurd (Option.some.inj hzero) hc

theorem isDigit_of_mem_paddedDigits {width n : Nat} {c : Char} (h : c ∈ paddedDigits width n) :
    c.isDigit = true := by
  rcases List.mem_append.1 h with h | h
  · rw [List.eq_of_mem_replicate h]
    decide
  · exact isDigit_of_mem_digits h

@[simp] theorem digitsValue_paddedDigits (width n : Nat) :
    digitsValue (paddedDigits width n) = n := by
  rw [paddedDigits, digitsValue_append, digitsValue_zeros, digitsValue_digits]
  simp

theorem length_paddedDigits {width n : Nat} (hwidth : 0 < width) (h : n < 10 ^ width) :
    (paddedDigits width n).length = width := by
  have hle : (digits n).length ≤ width := (Nat.length_toDigits_le_iff (by decide) hwidth).2 h
  rw [paddedDigits, List.length_append, List.length_replicate]
  omega

/-- Digits are those of their value, filled up with zeros to their count. -/
theorem paddedDigits_digitsValue {cs : List Char} (h : ∀ c ∈ cs, c.isDigit = true) (hne : cs ≠ []) :
    paddedDigits cs.length (digitsValue cs) = cs :=
  eq_of_digitsValue (fun _ => isDigit_of_mem_paddedDigits) h
    (length_paddedDigits (List.length_pos_iff.2 hne) (digitsValue_lt h))
    (digitsValue_paddedDigits _ _)

/-- The numeral of digits of which the last `scale` stand behind the point. -/
theorem fixedPlaces_digitsValue {cs : List Char} (h : ∀ c ∈ cs, c.isDigit = true) {scale : Nat}
    (hscale : scale ≤ cs.length) :
    fixedPlaces scale (digitsValue cs) =
      withoutZeros (cs.take (cs.length - scale)) ++
        (if scale = 0 then [] else '.' :: cs.drop (cs.length - scale)) := by
  have hlength : (cs.drop (cs.length - scale)).length = scale := by
    rw [List.length_drop]
    omega
  have hparts : digitsValue cs = 10 ^ scale * digitsValue (cs.take (cs.length - scale)) +
      digitsValue (cs.drop (cs.length - scale)) := by
    conv_lhs => rw [← List.take_append_drop (cs.length - scale) cs, digitsValue_append, hlength]
  have hbehind : ∀ c ∈ cs.drop (cs.length - scale), c.isDigit = true :=
    fun c hc => h c (List.mem_of_mem_drop hc)
  obtain ⟨hwhole, hrest⟩ := div_mod_of_lt (digitsValue (cs.take (cs.length - scale)))
    (hlength ▸ digitsValue_lt hbehind)
  rw [← hparts] at hwhole hrest
  rw [withoutZeros_eq fun c hc => h c (List.mem_of_mem_take hc), ← hwhole, fixedPlaces]
  simp only [Nat.pow_eq]
  split
  · rw [List.append_nil]
  · rename_i hzero
    have hne : cs.drop (cs.length - scale) ≠ [] := fun hnil =>
      hzero (by simpa [hnil] using hlength.symm)
    have hpadded := paddedDigits_digitsValue hbehind hne
    rw [hlength, ← hrest] at hpadded
    rw [hpadded]

/-! ## Carrying -/

theorem toNat_next {c : Char} (h : c.isDigit = true) (hnine : c ≠ '9') :
    (Char.ofNat (c.toNat + 1)).toNat = c.toNat + 1 ∧ (Char.ofNat (c.toNat + 1)).isDigit = true := by
  have hall : ∀ n < 9, (Char.ofNat (48 + n + 1)).toNat = 48 + n + 1 ∧
      (Char.ofNat (48 + n + 1)).isDigit = true := by decide
  have hc := toNat_of_isDigit h
  have hcode : c.toNat ≠ 57 := fun heq => hnine (Char.toNat_inj.1 heq)
  have hnext := hall (c.toNat - 48) (by omega)
  rwa [Nat.add_sub_cancel' hc.1] at hnext

theorem isDigit_of_mem_addOne {cs : List Char} (h : ∀ c ∈ cs, c.isDigit = true) :
    ∀ c ∈ addOne cs, c.isDigit = true := by
  induction cs with
  | nil =>
    intro c hc
    rw [List.mem_singleton.1 hc]
    decide
  | cons c rest ih =>
    rw [List.forall_mem_cons] at h
    unfold addOne
    split
    · exact List.forall_mem_cons.2 ⟨by decide, ih h.2⟩
    · rename_i hnine
      exact List.forall_mem_cons.2 ⟨(toNat_next h.1 hnine).2, h.2⟩

theorem length_le_addOne (cs : List Char) : cs.length ≤ (addOne cs).length := by
  induction cs with
  | nil => exact Nat.zero_le _
  | cons c rest ih =>
    unfold addOne
    split
    · exact Nat.succ_le_succ ih
    · exact Nat.le_refl _

theorem digitsValue_addOne {cs : List Char} (h : ∀ c ∈ cs, c.isDigit = true) :
    digitsValue (addOne cs).reverse = digitsValue cs.reverse + 1 := by
  induction cs with
  | nil => decide
  | cons c rest ih =>
    rw [List.forall_mem_cons] at h
    have hlast (d : Char) (others : List Char) :
        digitsValue (d :: others).reverse = 10 * digitsValue others.reverse + (d.toNat - 48) := by
      rw [List.reverse_cons, digitsValue_append]
      simp [digitsValue]
    unfold addOne
    split
    · rename_i hnine
      -- A nine becomes a zero, and the one goes to the digits in front of it.
      have hcarry : digitsValue (addOne rest).reverse = digitsValue rest.reverse + 1 := ih h.2
      rw [hlast, hlast, hcarry, hnine]
      simp
      omega
    · rename_i hnine
      have hc := toNat_of_isDigit h.1
      rw [hlast, hlast, (toNat_next h.1 hnine).1]
      omega

/-! ## Rounding -/

theorem roundDiv_mul_right (tie : Tie) (num den : Nat) {scale : Nat} (h : 0 < scale) :
    roundDiv tie (num * scale) (den * scale) = roundDiv tie num den := by
  have hdouble : 2 * (num % den * scale) = 2 * (num % den) * scale := (Nat.mul_assoc _ _ _).symm
  have hle : den * scale ≤ 2 * (num % den) * scale ↔ den ≤ 2 * (num % den) :=
    Nat.mul_le_mul_right_iff h
  have hlt : den * scale < 2 * (num % den) * scale ↔ den < 2 * (num % den) :=
    Nat.mul_lt_mul_right h
  have heq : 2 * (num % den) * scale = den * scale ↔ 2 * (num % den) = den :=
    Nat.mul_left_inj (Nat.ne_of_gt h)
  have hrounds : tie.roundsUp (num / den) (num % den * scale) (den * scale) =
      tie.roundsUp (num / den) (num % den) den := by
    cases tie <;> simp only [Tie.roundsUp, hdouble, hle, hlt, Bool.beq_eq_decide_eq, heq]
  rw [roundDiv, roundDiv, Nat.mul_div_mul_right _ _ h, Nat.mul_mod_mul_right, hrounds]

theorem roundDiv_exact (tie : Tie) (quotient : Nat) {den : Nat} (h : 0 < den) :
    roundDiv tie (quotient * den) den = quotient := by
  have hone : roundDiv tie quotient 1 = quotient := by
    cases tie <;> simp [roundDiv, Tie.roundsUp, Nat.mod_one]
  have hscaled := roundDiv_mul_right tie quotient 1 h
  rwa [Nat.one_mul, hone] at hscaled

/-- A quotient is its whole part and the rest, which tells how it is rounded. -/
theorem exists_rest (num : Nat) {den : Nat} (h : 0 < den) :
    ∃ rest : ℚ, (num / den : ℚ) = (num / den : Nat) + rest ∧ 0 ≤ rest ∧ rest < 1 ∧
      (den ≤ 2 * (num % den) ↔ 1 / 2 ≤ rest) ∧ (2 * (num % den) ≤ den ↔ rest ≤ 1 / 2) := by
  have hden : (0 : ℚ) < den := by exact_mod_cast h
  refine ⟨(num % den : Nat) / den, ?_, by positivity, ?_, ?_, ?_⟩
  · have hparts : (num : ℚ) = den * (num / den : Nat) + (num % den : Nat) := by
      exact_mod_cast (Nat.div_add_mod num den).symm
    rw [hparts]
    field_simp
  · rw [div_lt_one hden]
    exact_mod_cast Nat.mod_lt num h
  · rw [le_div_iff₀ hden, ← @Nat.cast_le ℚ]
    push_cast
    constructor <;> intro hle <;> linarith
  · rw [div_le_iff₀ hden, ← @Nat.cast_le ℚ]
    push_cast
    constructor <;> intro hle <;> linarith

theorem roundDiv_away {den quotient rest : Nat} (h : rest < den) :
    roundDiv .awayFromZero (den * quotient + rest) den =
      if den ≤ 2 * rest then quotient + 1 else quotient := by
  obtain ⟨hquotient, hrest⟩ := div_mod_of_lt quotient h
  rw [roundDiv, hquotient, hrest]
  simp only [Tie.roundsUp, decide_eq_true_eq]

section
variable {whole fraction : List Char} (hwhole : ∀ c ∈ whole, c.isDigit = true)
  (hfraction : ∀ c ∈ fraction, c.isDigit = true)

include hwhole hfraction in
theorem isDigit_of_mem_kept (scale : Nat) :
    ∀ c ∈ whole ++ fraction.take scale ++ List.replicate (scale - fraction.length) '0',
      c.isDigit = true := by
  intro c hc
  rcases List.mem_append.1 hc with hc | hc
  · rcases List.mem_append.1 hc with hc | hc
    · exact hwhole c hc
    · exact hfraction c (List.mem_of_mem_take hc)
  · rw [List.eq_of_mem_replicate hc]
    decide

include hwhole hfraction in
theorem isDigit_of_mem_roundedDigits (scale : Nat) :
    ∀ c ∈ roundedDigits scale whole fraction, c.isDigit = true := by
  have hkept := isDigit_of_mem_kept hwhole hfraction scale
  unfold roundedDigits
  dsimp only
  split
  · intro c hc
    rw [List.mem_reverse] at hc
    exact isDigit_of_mem_addOne (fun d hd => hkept d (List.mem_reverse.1 hd)) c hc
  · exact hkept

theorem le_length_roundedDigits (scale : Nat) (whole fraction : List Char) :
    scale ≤ (roundedDigits scale whole fraction).length := by
  have hkept : scale ≤ (whole ++ fraction.take scale ++
      List.replicate (scale - fraction.length) '0').length := by
    rw [List.length_append, List.length_append, List.length_take, List.length_replicate]
    omega
  unfold roundedDigits
  dsimp only
  split
  · rw [List.length_reverse]
    exact (List.length_reverse ▸ hkept).trans (length_le_addOne _)
  · exact hkept

/-- The first digit of a remainder tells whether it is half of the divisor. -/
theorem half_le_iff {c : Char} {rest : List Char} (hc : c.isDigit = true)
    (hrest : ∀ d ∈ rest, d.isDigit = true) :
    10 ^ (c :: rest).length ≤ 2 * digitsValue (c :: rest) ↔ '5' ≤ c := by
  have hlt := digitsValue_lt hrest
  have hdigit := toNat_of_isDigit hc
  have hcode : '5' ≤ c ↔ 53 ≤ c.toNat := UInt32.le_iff_toNat_le
  rw [hcode, digitsValue_cons, List.length_cons, Nat.pow_succ]
  constructor
  · intro hhalf
    by_contra hsmall
    have := Nat.mul_le_mul_left (10 ^ rest.length) (by omega : c.toNat - 48 ≤ 4)
    omega
  · intro hlarge
    have := Nat.mul_le_mul_left (10 ^ rest.length) (by omega : 5 ≤ c.toNat - 48)
    omega

theorem digitsValue_roundedDigits_of_le {scale : Nat} (hscale : fraction.length ≤ scale) :
    digitsValue (roundedDigits scale whole fraction) =
      roundDiv .awayFromZero (digitsValue (whole ++ fraction) * 10 ^ scale)
        (10 ^ fraction.length) := by
  have hnone : fraction[scale]? = none := List.getElem?_eq_none hscale
  have hvalue : digitsValue (whole ++ fraction ++ List.replicate (scale - fraction.length) '0') =
      digitsValue (whole ++ fraction) * 10 ^ (scale - fraction.length) := by
    rw [digitsValue_append, digitsValue_zeros, List.length_replicate, Nat.add_zero, Nat.mul_comm]
  have hpower : digitsValue (whole ++ fraction) * 10 ^ scale =
      digitsValue (whole ++ fraction) * 10 ^ (scale - fraction.length) * 10 ^ fraction.length := by
    rw [Nat.mul_assoc, ← Nat.pow_add, Nat.sub_add_cancel hscale]
  rw [hpower, roundDiv_exact _ _ (Nat.pow_pos (by decide)), ← hvalue, roundedDigits, hnone,
    List.take_of_length_le hscale]
  rfl

include hwhole hfraction in
theorem digitsValue_roundedDigits_of_lt {scale : Nat} (hscale : scale < fraction.length) :
    digitsValue (roundedDigits scale whole fraction) =
      roundDiv .awayFromZero (digitsValue (whole ++ fraction) * 10 ^ scale)
        (10 ^ fraction.length) := by
  obtain ⟨c, rest, hcut⟩ := List.exists_cons_of_ne_nil
    (fun hnil => absurd (List.drop_eq_nil_iff.1 hnil) (Nat.not_le_of_lt hscale) :
      fraction.drop scale ≠ [])
  have hsome : fraction[scale]? = some c := by
    rw [← List.head?_drop, hcut]
    rfl
  have hrest : ∀ d ∈ c :: rest, d.isDigit = true :=
    fun d hd => hfraction d (List.mem_of_mem_drop (hcut ▸ hd))
  have hlength : (c :: rest).length = fraction.length - scale := by rw [← hcut, List.length_drop]
  have hparts : digitsValue (whole ++ fraction) =
      10 ^ (c :: rest).length * digitsValue (whole ++ fraction.take scale) +
        digitsValue (c :: rest) := by
    conv_lhs => rw [← List.take_append_drop scale fraction, ← List.append_assoc, hcut,
      digitsValue_append]
  have hpower : 10 ^ fraction.length = 10 ^ (c :: rest).length * 10 ^ scale := by
    rw [hlength, ← Nat.pow_add, Nat.sub_add_cancel hscale.le]
  have hzeros : scale - fraction.length = 0 := Nat.sub_eq_zero_of_le hscale.le
  have hkept := isDigit_of_mem_kept hwhole hfraction scale
  rw [hzeros, List.replicate_zero, List.append_nil] at hkept
  rw [hpower, roundDiv_mul_right _ _ _ (Nat.pow_pos (by decide)), hparts,
    roundDiv_away (digitsValue_lt hrest), roundedDigits, hsome, hzeros]
  simp only [List.replicate_zero, List.append_nil, Option.any_some, decide_eq_true_eq,
    half_le_iff (hrest c List.mem_cons_self) fun d hd => hrest d (List.mem_cons_of_mem _ hd)]
  split
  · rw [digitsValue_addOne fun d hd => hkept d (List.mem_reverse.1 hd), List.reverse_reverse]
  · rfl

include hwhole hfraction in
/-- The digits are those of the quotient, rounded half away from zero. -/
theorem digitsValue_roundedDigits (scale : Nat) :
    digitsValue (roundedDigits scale whole fraction) =
      roundDiv .awayFromZero (digitsValue (whole ++ fraction) * 10 ^ scale)
        (10 ^ fraction.length) :=
  (Nat.lt_or_ge scale fraction.length).elim (digitsValue_roundedDigits_of_lt hwhole hfraction)
    digitsValue_roundedDigits_of_le

include hwhole hfraction in
/-- The numeral is the one of the rounded number; zero has no sign. -/
theorem plainPlaces_eq (scale : Nat) (negative : Bool) :
    plainPlaces scale negative whole fraction =
      let units := roundDiv .awayFromZero (digitsValue (whole ++ fraction) * 10 ^ scale)
        (10 ^ fraction.length)
      signed (negative && units != 0) (fixedPlaces scale units) := by
  have hdigits := isDigit_of_mem_roundedDigits hwhole hfraction scale
  have hzero : (roundedDigits scale whole fraction).all (· == '0') =
      (digitsValue (roundedDigits scale whole fraction) == 0) := by
    rw [Bool.eq_iff_iff, List.all_eq_true, beq_iff_eq, digitsValue_eq_zero_iff hdigits]
    simp only [beq_iff_eq]
  dsimp only
  rw [← digitsValue_roundedDigits hwhole hfraction,
    fixedPlaces_digitsValue hdigits (le_length_roundedDigits scale whole fraction), plainPlaces,
    hzero]
  rfl

end

end SchemaPlan.Decimal
