import SchemaPlan.Proofs.ColumnOptions
import SchemaPlan.Proofs.ShortestNumeral

/-!
# Stored defaults are stored as they are

A default is brought into the form in which the server stores it, by the first of several rules
that applies. The result is stored as it is, with two exceptions: a number with an exponent that is
rounded to zero keeps its sign, which the next run drops, and a date without a day may lose the rest
of its time and is then taken for no default.

* `decimalNumeral?_idem`, `floatNumeral?_idem`, `dateTimeLiteral?_text`, `currentTime?_text`: the
  rules by themselves.
* `Wordless.storedDefault?`: a text without letters is left to the rules for numbers and dates.
* `storedDefault?_cases`: the rule by which a default is stored.
* `normalizeDefault_idem_iff`: when a stored default is stored as it is.
-/
namespace SchemaPlan.MySql

open Text Decimal Ddl

/-! ## Numbers -/

theorem decimalNumeral?_cases {scale : ℕ} {value numeral : List Char}
    (h : decimalNumeral? scale value = some numeral) :
    ∃ negative units, numeral = signed negative (fixedPlaces scale units) := by
  unfold decimalNumeral? at h
  dsimp only at h
  split at h
  case isTrue hdigits =>
    simp only [areDigits, Bool.and_eq_true, List.all_eq_true] at hdigits
    rw [plainPlaces_eq hdigits.1.2 hdigits.2] at h
    exact ⟨_, _, (Option.some.inj h).symm⟩
  case isFalse =>
    obtain ⟨number, -, h⟩ := Option.bind_eq_some_iff.1 h
    split at h
    · cases h
    · exact ⟨_, _, (Option.some.inj h).symm⟩

theorem decimalNumeral?_negative_zero (scale : ℕ) :
    decimalNumeral? scale ('-' :: fixedPlaces scale 0) = some (fixedPlaces scale 0) := by
  rw [decimalNumeral?_of_plain (.minus (denotes_fixedPlaces scale 0))]
  simp [numeralOf, nearestWhole, signed]

/-- Every other stored decimal is stored as it is. -/
theorem decimalNumeral?_idem {scale : ℕ} {value numeral : List Char}
    (h : decimalNumeral? scale value = some numeral)
    (hzero : numeral ≠ '-' :: fixedPlaces scale 0) :
    decimalNumeral? scale numeral = some numeral := by
  obtain ⟨negative, units, rfl⟩ := decimalNumeral?_cases h
  rw [signed_fixedPlaces, decimalNumeral?_numeralOf]
  rintro rfl rfl
  exact hzero rfl

/-- A shortest numeral is the shortest numeral of the number that it is read as. -/
theorem floatNumeral?_idem {value numeral : List Char} (h : floatNumeral? value = some numeral) :
    floatNumeral? numeral = some numeral := by
  obtain ⟨number, -, h⟩ := Option.bind_eq_some_iff.1 h
  split at h
  · cases h
  · rename_i mantissa exponent hnumber
    obtain rfl := Option.some.inj h
    obtain ⟨again, hread, hsign, hsame⟩ :=
      read?_shortest .awayFromZero (representable_of_toBinary64 hnumber) number.negative
    rw [floatNumeral?, hread, Option.bind_some, hsame, hsign]

/-- The count of places in which a numeric type stores decimals. -/
def decimalPlaces? (ddl : String) : Option ℕ :=
  let word := firstWord ddl
  if !isNumericType (baseType ddl) then none
  else if word = "DECIMAL" || word = "NUMERIC" then some ((typeArguments ddl)[1]?.getD 0)
  else if word = "FLOAT" || word = "DOUBLE" || word = "REAL" || word = "BIT" then none
  else some 0

theorem isNumericType_of_decimalPlaces? {ddl : String} {scale : ℕ}
    (h : decimalPlaces? ddl = some scale) : isNumericType (baseType ddl) = true := by
  by_contra hnumeric
  simp [decimalPlaces?, hnumeric] at h

section
variable {ddl : String} (hnumeric : isNumericType (baseType ddl) = true)
include hnumeric

theorem columnNumeral?_eq (value : List Char) :
    columnNumeral? ddl value =
      match decimalPlaces? ddl with
      | some scale => decimalNumeral? scale value
      | none => if firstWord ddl = "BIT" then none else floatNumeral? value := by
  unfold columnNumeral? decimalPlaces?
  rw [hnumeric]
  dsimp only
  by_cases hdecimal : (firstWord ddl = "DECIMAL" || firstWord ddl = "NUMERIC") = true
  · simp [hdecimal]
  · by_cases hbit : firstWord ddl = "BIT"
    · simp [hbit]
    · by_cases hfloat : (firstWord ddl = "FLOAT" || firstWord ddl = "DOUBLE" ||
          firstWord ddl = "REAL") = true <;> simp [hdecimal, hbit, hfloat]

theorem columnNumeral?_signed {value numeral : List Char}
    (h : columnNumeral? ddl value = some numeral) :
    ∃ negative cs q, numeral = signed negative cs ∧ Denotes cs q := by
  rw [columnNumeral?_eq hnumeric] at h
  split at h
  · obtain ⟨negative, units, rfl⟩ := decimalNumeral?_cases h
    exact ⟨negative, _, _, rfl, denotes_fixedPlaces _ units⟩
  · split at h
    · cases h
    · obtain ⟨number, -, h⟩ := Option.bind_eq_some_iff.1 h
      split at h
      · cases h
      · obtain rfl := Option.some.inj h
        exact ⟨_, _, _, rfl, denotes_positional _⟩

theorem columnNumeral?_idem {value numeral : List Char}
    (h : columnNumeral? ddl value = some numeral)
    (hzero : ∀ scale, decimalPlaces? ddl = some scale → numeral ≠ '-' :: fixedPlaces scale 0) :
    columnNumeral? ddl numeral = some numeral := by
  rw [columnNumeral?_eq hnumeric] at h ⊢
  split at h
  · rename_i scale hscale
    exact decimalNumeral?_idem h (hzero scale hscale)
  · split at h
    · cases h
    · rename_i hbit
      exact (if_neg hbit).trans (floatNumeral?_idem h)

end

/-! ## Dates -/

theorem mem_of_matchesPattern {pattern value : List Char} (h : matchesPattern pattern value = true)
    {c : Char} (hc : c ∈ value) : c.isDigit = true ∨ c ∈ pattern ∧ c ≠ 'd' := by
  fun_induction matchesPattern pattern value with
  | case1 => cases hc
  | case2 p pattern v value ih =>
    rw [Bool.and_eq_true] at h
    rcases List.mem_cons.1 hc with rfl | hc
    · split at h
      · exact .inl h.1
      · rename_i hp
        have hsame : c = p := by simpa using h.1
        exact .inr ⟨hsame ▸ List.mem_cons_self, hsame ▸ hp⟩
    · exact (ih h.2 hc).imp_right fun h => ⟨List.mem_cons_of_mem _ h.1, h.2⟩
  | case3 => cases h

/-- What is stored of a date and time: the date, the time, and as many digits of a fraction as the
precision says. -/
structure DateParts (precision : ℕ) (date clock fraction : List Char) : Prop where
  date : matchesPattern "dddd-dd-dd".toList date = true
  clock : matchesPattern "dd:dd:dd".toList clock = true
  digits : ∀ c ∈ fraction, c.isDigit = true
  length : fraction.length = precision

def dateTimeText (precision : ℕ) (date clock fraction : List Char) : List Char :=
  date ++ ' ' :: (clock ++ if precision = 0 then [] else '.' :: fraction)

theorem dateTimeLiteral?_cases {precision : ℕ} {value literal : List Char}
    (h : dateTimeLiteral? precision value = some literal) :
    ∃ date clock fraction, DateParts precision date clock fraction ∧
      literal = dateTimeText precision date clock fraction := by
  unfold dateTimeLiteral? at h
  generalize (cutAt ' ' value).getD (value, "00:00:00".toList) = parts at h
  obtain ⟨date, time⟩ := parts
  dsimp only at h
  generalize (cutAt '.' time).getD (time, []) = parts at h
  obtain ⟨clock, fraction⟩ := parts
  dsimp only at h
  split at h
  case isFalse => cases h
  case isTrue hmatch =>
    rw [Bool.and_eq_true, Bool.and_eq_true, List.all_eq_true] at hmatch
    obtain ⟨⟨hdate, hclock⟩, hdigits⟩ := hmatch
    split at h
    case isTrue hzero =>
      refine ⟨date, clock, [], ⟨hdate, hclock, by simp, hzero.symm⟩, ?_⟩
      rw [dateTimeText, if_pos hzero, List.append_nil]
      exact (Option.some.inj h).symm
    case isFalse hzero =>
      refine ⟨date, clock, fraction.take precision ++
        List.replicate (precision - (fraction.take precision).length) '0',
        ⟨hdate, hclock, fun c hc => ?_, ?_⟩, ?_⟩
      · rcases List.mem_append.1 hc with hc | hc
        · exact hdigits c (List.mem_of_mem_take hc)
        · rw [List.eq_of_mem_replicate hc]
          decide
      · rw [List.length_append, List.length_replicate]
        exact Nat.add_sub_cancel' (List.length_take_le _ _)
      · rw [dateTimeText, if_neg hzero, ← Option.some.inj h]
        simp

section
variable {precision : ℕ} {date clock fraction : List Char}
  (h : DateParts precision date clock fraction)
include h

theorem dateTimeLiteral?_text :
    dateTimeLiteral? precision (dateTimeText precision date clock fraction) =
      some (dateTimeText precision date clock fraction) := by
  have hblank : ' ' ∉ date := fun hmem =>
    absurd (mem_of_matchesPattern h.date hmem) (by decide)
  have hpoint : '.' ∉ clock := fun hmem =>
    absurd (mem_of_matchesPattern h.clock hmem) (by decide)
  have hmatch : (matchesPattern "dddd-dd-dd".toList date &&
      matchesPattern "dd:dd:dd".toList clock && fraction.all Char.isDigit) = true := by
    rw [h.date, h.clock, List.all_eq_true.2 h.digits]
    rfl
  rw [dateTimeLiteral?, dateTimeText, cutAt_append hblank]
  by_cases hzero : precision = 0
  · have hnil : fraction = [] := List.length_eq_zero_iff.1 (h.length.trans hzero)
    rw [hnil] at hmatch
    simp only [hzero, if_true, List.append_nil, Option.getD_some, cutAt_eq_none hpoint,
      Option.getD_none, hmatch]
  · have htake : fraction.take precision = fraction := List.take_of_length_le h.length.le
    simp only [hzero, if_false, Option.getD_some, cutAt_append hpoint, hmatch, if_true, htake,
      h.length, Nat.sub_self, List.replicate_zero]
    simp

end

/-! ## Texts without letters -/

/-- A text that no rule for words applies to: it has neither letters nor brackets. -/
structure Wordless (cs : List Char) : Prop where
  trimmed : Trimmed cs
  before : ∀ c ∈ cs, c.toNat < 65
  bracket : '(' ∉ cs

/-- The number or the date that a text stands for in a column of type `ddl`. -/
def columnLiteral? (ddl : String) (value : List Char) : Option (List Char) :=
  let base := baseType ddl
  let number :=
    if isNumericType base && isNumericLiteral value then columnNumeral? ddl value else none
  let date :=
    if firstWord base = "DATETIME" || firstWord base = "TIMESTAMP" then
      dateTimeLiteral? ((typeArguments ddl).head?.getD 0) value
    else none
  number.or date

namespace Wordless

variable {cs : List Char} (h : Wordless cs)
include h

theorem sameLetters_eq_false {word : List Char}
    (hword : (word.any fun c => 65 ≤ c.toLower.toNat) = true) : sameLetters cs word = false := by
  have hlower : lowerAscii cs = cs :=
    (List.map_congr_left fun c hc => toLower_of_lt (h.before c hc)).trans (List.map_id cs)
  rw [sameLetters, hlower, beq_eq_false_iff_ne]
  rintro rfl
  obtain ⟨c, hc, hletter⟩ := List.any_eq_true.1 hword
  exact absurd (h.before _ (List.mem_map_of_mem hc)) (Nat.not_lt.2 (of_decide_eq_true hletter))

theorem currentTime?_eq_none : currentTime? cs = none := by
  have hupper : upperAscii cs = cs :=
    (List.map_congr_left fun c hc => toUpper_of_lt (by have := h.before c hc; omega)).trans
      (List.map_id cs)
  have hname : currentTimeNames.contains cs = false := by
    rw [← Bool.not_eq_true, List.contains_iff_mem]
    intro hmem
    have hletters : (currentTimeNames.all fun name => name.any fun c => 65 ≤ c.toNat) = true := by
      decide
    obtain ⟨c, hc, hletter⟩ := List.any_eq_true.1 (List.all_eq_true.1 hletters cs hmem)
    exact absurd (h.before c hc) (Nat.not_lt.2 (of_decide_eq_true hletter))
  unfold currentTime?
  rw [trim_eq_self h.trimmed, hupper]
  dsimp only
  rw [cutAt_eq_none h.bracket]
  simp only [hname, Bool.false_eq_true, if_false]

/-- Apart from dates without a day, only the rules for numbers and dates are left. -/
theorem storedDefault? (ddl : String) :
    storedDefault? ddl cs =
      if isDateType (baseType ddl) && isZeroDate cs then none
      else some ((columnLiteral? ddl cs).getD cs) := by
  have hnull : sameLetters cs "NULL".toList = false := h.sameLetters_eq_false (by decide)
  have htrue : sameLetters cs "true".toList = false := h.sameLetters_eq_false (by decide)
  have hfalse : sameLetters cs "false".toList = false := h.sameLetters_eq_false (by decide)
  unfold MySql.storedDefault? columnLiteral?
  rw [trim_eq_self h.trimmed]
  simp only [hnull, htrue, hfalse, h.currentTime?_eq_none, Bool.and_false, Bool.false_eq_true,
    if_false]

end Wordless

/-- A digit or a mark that stands between digits. -/
def IsMark (c : Char) : Prop :=
  45 ≤ c.toNat ∧ c.toNat ≤ 58

instance : DecidablePred IsMark :=
  fun c => inferInstanceAs (Decidable (45 ≤ c.toNat ∧ c.toNat ≤ 58))

theorem isMark_of_isDigit {c : Char} (h : c.isDigit = true) : IsMark c := by
  obtain ⟨hfirst, hlast⟩ := toNat_of_isDigit h
  exact ⟨by omega, by omega⟩

theorem isMark_of_matchesPattern {pattern value : List Char}
    (h : matchesPattern pattern value = true) (hpattern : ∀ p ∈ pattern, p ≠ 'd' → IsMark p) :
    ∀ c ∈ value, IsMark c := by
  intro c hc
  rcases mem_of_matchesPattern h hc with hdigit | ⟨hmem, hne⟩
  · exact isMark_of_isDigit hdigit
  · exact hpattern c hmem hne

theorem trimmed_of_marks {cs : List Char} (h : ∀ c ∈ cs, IsMark c) : Trimmed cs := by
  refine trimmed_of_not_blank fun c hc => ?_
  obtain ⟨hfirst, hlast⟩ := h c hc
  simp only [isBlank]
  grind

theorem wordless_of_marks {cs : List Char} (htrimmed : Trimmed cs)
    (h : ∀ c ∈ cs, c = ' ' ∨ IsMark c) : Wordless cs := by
  refine ⟨htrimmed, fun c hc => ?_, fun hc => absurd (h _ hc) (by decide)⟩
  rcases h c hc with rfl | ⟨-, hlast⟩
  · decide
  · omega

theorem wordless_numeral {cs : List Char} {q : ℚ} (h : Denotes cs q) (negative : Bool) :
    Wordless (signed negative cs) := by
  have hmarks : ∀ c ∈ signed negative cs, IsMark c := by
    intro c hc
    have hcases : c = '-' ∨ c ∈ cs := by
      cases negative with
      | false => exact .inr hc
      | true => exact List.mem_cons.1 hc
    rcases hcases with rfl | hc
    · decide
    · rcases h.mem c hc with hdigit | rfl
      · exact isMark_of_isDigit hdigit
      · decide
  exact wordless_of_marks (trimmed_of_marks hmarks) fun c hc => .inr (hmarks c hc)

theorem DateParts.wordless {precision : ℕ} {date clock fraction : List Char}
    (h : DateParts precision date clock fraction) :
    Wordless (dateTimeText precision date clock fraction) := by
  have hdate : ∀ c ∈ date, IsMark c := isMark_of_matchesPattern h.date (by decide)
  have hclock : ∀ c ∈ clock, IsMark c := isMark_of_matchesPattern h.clock (by decide)
  have htime : ∀ c ∈ clock ++ (if precision = 0 then [] else '.' :: fraction), IsMark c := by
    intro c hc
    rcases List.mem_append.1 hc with hc | hc
    · exact hclock c hc
    · split at hc
      · cases hc
      · rcases List.mem_cons.1 hc with rfl | hc
        · decide
        · exact isMark_of_isDigit (h.digits c hc)
  have hdatene : date ≠ [] := by
    rintro rfl
    exact absurd h.date (by decide)
  have hclockne : clock ≠ [] := by
    rintro rfl
    exact absurd h.clock (by decide)
  have hsplit : dateTimeText precision date clock fraction =
      date ++ [' '] ++ (clock ++ if precision = 0 then [] else '.' :: fraction) := by
    rw [List.append_assoc]
    rfl
  rw [hsplit]
  refine wordless_of_marks (Trimmed.append (trimmed_of_marks hdate) (trimmed_of_marks htime) hdatene
    (by simp [hclockne]) _) fun c hc => ?_
  rcases List.mem_append.1 hc with hc | hc
  · exact (List.mem_append.1 hc).symm.imp List.mem_singleton.1 (hdate c)
  · exact .inr (htime c hc)

/-! ## The current time -/

/-- The current time with a precision, as it is stored. -/
def currentTimeText (precision : List Char) : List Char :=
  "CURRENT_TIMESTAMP".toList ++ '(' :: precision ++ [')']

theorem trimmed_currentTimeText (precision : List Char) : Trimmed (currentTimeText precision) :=
  Trimmed.append (by decide) (by decide) (by decide) (by decide) ('(' :: precision)

/-- The current time is stored with no precision, or with one other than zero. -/
theorem currentTime?_cases {value expression : List Char}
    (h : currentTime? value = some expression) :
    expression = "CURRENT_TIMESTAMP".toList ∨
      ∃ precision, (∀ c ∈ precision, c.isDigit = true) ∧ precision ≠ [] ∧ precision ≠ ['0'] ∧
        expression = currentTimeText precision := by
  unfold currentTime? at h
  dsimp only at h
  split at h
  · split at h
    · exact .inl (Option.some.inj h).symm
    · cases h
  · split at h
    · split at h
      · cases h
      · split at h
        · exact .inl (Option.some.inj h).symm
        · rename_i hzero
          simp only [Bool.or_eq_true, List.isEmpty_iff, decide_eq_true_eq, not_or] at hzero
          split at h
          · rename_i hdigits
            exact .inr ⟨_, List.all_eq_true.1 hdigits, hzero.1, hzero.2, (Option.some.inj h).symm⟩
          · cases h
    · cases h

theorem currentTime?_text {precision : List Char} (hdigits : ∀ c ∈ precision, c.isDigit = true)
    (hne : precision ≠ []) (hzero : precision ≠ ['0']) :
    currentTime? (currentTimeText precision) = some (currentTimeText precision) := by
  have hcapital : ∀ c ∈ currentTimeText precision, c.toNat < 97 := by
    intro c hc
    rcases List.mem_append.1 hc with hc | hc
    · rcases List.mem_append.1 hc with hc | hc
      · exact (by decide : ∀ c ∈ "CURRENT_TIMESTAMP".toList, c.toNat < 97) c hc
      · rcases List.mem_cons.1 hc with rfl | hc
        · decide
        · have := toNat_of_isDigit (hdigits c hc)
          omega
    · rw [List.mem_singleton.1 hc]
      decide
  have hupper : upperAscii (currentTimeText precision) = currentTimeText precision :=
    (List.map_congr_left fun c hc => toUpper_of_lt (hcapital c hc)).trans (List.map_id _)
  have hcut : cutAt '(' (currentTimeText precision) =
      some ("CURRENT_TIMESTAMP".toList, precision ++ [')']) := by
    have happend := List.append_assoc "CURRENT_TIMESTAMP".toList ('(' :: precision) [')']
    exact (congrArg _ happend).trans (cutAt_append (by decide) _)
  have htrim : trim precision = precision := trim_eq_self <|
    trimmed_of_marks fun c hc => isMark_of_isDigit (hdigits c hc)
  have hname : currentTimeNames.contains (trim "CURRENT_TIMESTAMP".toList) = true := by
    decide +kernel
  unfold currentTime?
  rw [trim_eq_self (trimmed_currentTimeText precision), hupper]
  dsimp only
  rw [hcut]
  simp only [List.getLast?_concat, if_true, List.dropLast_concat, htrim, hname, Bool.not_true,
    Bool.false_eq_true, if_false, hzero, List.all_eq_true.2 hdigits, decide_false, Bool.or_self,
    List.isEmpty_eq_false_iff.2 hne]
  rfl

theorem storedDefault?_currentTime {value expression : List Char}
    (h : currentTime? value = some expression) (ddl : String) :
    Trimmed expression ∧ storedDefault? ddl expression = some expression := by
  have hstored : Trimmed expression ∧ currentTime? expression = some expression ∧
      ∃ rest, expression = 'C' :: rest := by
    obtain rfl | ⟨precision, hdigits, hne, hzero, rfl⟩ := currentTime?_cases h
    · exact ⟨by decide, by decide +kernel, _, rfl⟩
    · exact ⟨trimmed_currentTimeText precision, currentTime?_text hdigits hne hzero, _, rfl⟩
  obtain ⟨htrimmed, hagain, rest, rfl⟩ := hstored
  have hnull : sameLetters ('C' :: rest) "NULL".toList = false := by
    simp [sameLetters, lowerAscii]
  have hday : isZeroDate ('C' :: rest) = false := by
    simp [isZeroDate]
  refine ⟨htrimmed, ?_⟩
  unfold storedDefault?
  rw [trim_eq_self htrimmed]
  simp only [hnull, hday, hagain, Bool.and_false, Bool.false_eq_true, if_false]

/-! ## Defaults by their rules -/

theorem columnLiteral?_cases {ddl : String} {value text : List Char}
    (h : columnLiteral? ddl value = some text) :
    (isNumericType (baseType ddl) = true ∧ columnNumeral? ddl value = some text) ∨
      ((firstWord (baseType ddl) = "DATETIME" ∨ firstWord (baseType ddl) = "TIMESTAMP") ∧
        dateTimeLiteral? ((typeArguments ddl).head?.getD 0) value = some text) := by
  unfold columnLiteral? at h
  dsimp only at h
  rcases Option.or_eq_some_iff.1 h with h | ⟨-, h⟩
  · split at h
    · rename_i hnumber
      exact .inl ⟨(Bool.and_eq_true _ _ ▸ hnumber).1, h⟩
    · cases h
  · split at h
    · rename_i hdate
      exact .inr ⟨by simpa using hdate, h⟩
    · cases h

theorem columnLiteral?_number {ddl : String} {value text : List Char}
    (hnumeric : isNumericType (baseType ddl) = true) (hnumber : isNumericLiteral value = true)
    (h : columnNumeral? ddl value = some text) : columnLiteral? ddl value = some text := by
  simp [columnLiteral?, hnumeric, hnumber, h]

theorem columnLiteral?_date {ddl : String}
    (hdate : firstWord (baseType ddl) = "DATETIME" ∨ firstWord (baseType ddl) = "TIMESTAMP")
    (value : List Char) :
    columnLiteral? ddl value = dateTimeLiteral? ((typeArguments ddl).head?.getD 0) value := by
  have hnumeric : isNumericType (baseType ddl) = false := by
    rcases hdate with h | h <;> rw [isNumericType, h] <;> decide
  simp [columnLiteral?, hnumeric, hdate]

/-- A default is stored by one of the rules, or as it is apart from the blanks at its ends. -/
theorem storedDefault?_cases {ddl : String} {value text : List Char}
    (h : storedDefault? ddl value = some text) :
    currentTime? (trim value) = some text ∨ (ddl = booleanType ∧ (text = ['1'] ∨ text = ['0'])) ∨
      columnLiteral? ddl (trim value) = some text ∨ text = trim value := by
  unfold storedDefault? at h
  dsimp only at h
  split at h
  · cases h
  split at h
  · cases h
  split at h
  · rename_i hcurrent
    exact .inl (hcurrent.trans h)
  split at h
  · rename_i htrue
    have hddl := of_decide_eq_true (Bool.and_eq_true _ _ ▸ htrue).1
    exact .inr (.inl ⟨hddl, .inl (Option.some.inj h).symm⟩)
  split at h
  · rename_i hfalse
    have hddl := of_decide_eq_true (Bool.and_eq_true _ _ ▸ hfalse).1
    exact .inr (.inl ⟨hddl, .inr (Option.some.inj h).symm⟩)
  change some ((columnLiteral? ddl (trim value)).getD (trim value)) = some text at h
  cases hliteral : columnLiteral? ddl (trim value) with
  | none =>
    rw [hliteral] at h
    exact .inr (.inr (.inr (Option.some.inj h).symm))
  | some literal =>
    rw [hliteral] at h
    exact .inr (.inr (.inl h))

theorem wordless_columnLiteral? {ddl : String} {value text : List Char}
    (h : columnLiteral? ddl value = some text) : Wordless text := by
  rcases columnLiteral?_cases h with ⟨hnumeric, hnumber⟩ | ⟨-, hdate⟩
  · obtain ⟨negative, cs, q, rfl, hq⟩ := columnNumeral?_signed hnumeric hnumber
    exact wordless_numeral hq negative
  · obtain ⟨date, clock, fraction, hparts, rfl⟩ := dateTimeLiteral?_cases hdate
    exact hparts.wordless

theorem trimmed_of_storedDefault? {ddl : String} {value text : List Char}
    (h : storedDefault? ddl value = some text) : Trimmed text := by
  obtain hcurrent | ⟨-, rfl | rfl⟩ | hliteral | rfl := storedDefault?_cases h
  · exact (storedDefault?_currentTime hcurrent ddl).1
  · decide
  · decide
  · exact (wordless_columnLiteral? hliteral).trimmed
  · exact trimmed_trim value

/-! ## Defaults that stay -/

/-- A stored default that neither rule catches by which the next run would change it: it is no date
without a day, and no negative zero of a type that stores decimals. -/
structure Lasting (ddl : String) (text : List Char) : Prop where
  day : ¬(isDateType (baseType ddl) = true ∧ isZeroDate text = true)
  zero : ∀ scale, decimalPlaces? ddl = some scale → text ≠ '-' :: fixedPlaces scale 0

theorem lasting_of_storedDefault? {ddl : String} {text : List Char}
    (h : storedDefault? ddl text = some text) : Lasting ddl text := by
  refine ⟨fun ⟨hdate, hday⟩ => ?_, fun scale hscale => ?_⟩
  · have htrim := trim_eq_self (trimmed_of_storedDefault? h)
    simp [storedDefault?, htrim, hdate, hday] at h
  · rintro rfl
    have hzero := denotes_fixedPlaces scale 0
    have hnumeric := isNumericType_of_decimalPlaces? hscale
    obtain ⟨number, hread, -⟩ := hzero.read? true
    have hnumber : isNumericLiteral ('-' :: fixedPlaces scale 0) = true :=
      Option.isSome_of_eq_some hread
    have hwordless : Wordless ('-' :: fixedPlaces scale 0) := wordless_numeral hzero true
    have hdropped :
        columnNumeral? ddl ('-' :: fixedPlaces scale 0) = some (fixedPlaces scale 0) := by
      rw [columnNumeral?_eq hnumeric, hscale]
      exact decimalNumeral?_negative_zero scale
    rw [hwordless.storedDefault?, columnLiteral?_number hnumeric hnumber hdropped] at h
    split at h
    · cases h
    · exact List.cons_ne_self _ _ (Option.some.inj h).symm

/-- A stored number or date is stored as it is unless it has one of the two forms. -/
theorem columnLiteral?_idem {ddl : String} {value text : List Char}
    (h : columnLiteral? ddl value = some text) (hlasting : Lasting ddl text) :
    columnLiteral? ddl text = some text := by
  rcases columnLiteral?_cases h with ⟨hnumeric, hnumber⟩ | ⟨hdate, hliteral⟩
  · obtain ⟨negative, cs, q, rfl, hq⟩ := columnNumeral?_signed hnumeric hnumber
    obtain ⟨number, hread, -⟩ := hq.read? negative
    exact columnLiteral?_number hnumeric (Option.isSome_of_eq_some hread)
      (columnNumeral?_idem hnumeric hnumber hlasting.zero)
  · obtain ⟨date, clock, fraction, hparts, rfl⟩ := dateTimeLiteral?_cases hliteral
    rw [columnLiteral?_date hdate]
    exact dateTimeLiteral?_text hparts

/-- A stored default is stored as it is exactly if it has none of the two forms. -/
theorem storedDefault?_idem_iff {ddl : String} {value text : List Char}
    (h : storedDefault? ddl value = some text) :
    storedDefault? ddl text = some text ↔ Lasting ddl text := by
  refine ⟨lasting_of_storedDefault?, fun hlasting => ?_⟩
  obtain hcurrent | ⟨rfl, rfl | rfl⟩ | hliteral | rfl := storedDefault?_cases h
  · exact (storedDefault?_currentTime hcurrent ddl).2
  · decide +kernel
  · decide +kernel
  · have hday : (isDateType (baseType ddl) && isZeroDate text) = false := by
      rw [← Bool.not_eq_true, Bool.and_eq_true]
      exact hlasting.day
    rw [(wordless_columnLiteral? hliteral).storedDefault?, hday,
      columnLiteral?_idem hliteral hlasting]
    rfl
  · rw [← h]
    unfold storedDefault?
    rw [trim_eq_self (trimmed_trim value)]

/-- Normalizing a default once more changes nothing exactly if what it is stored as is no date
without a day, and no negative zero of a type that stores decimals. -/
theorem normalizeDefault_idem_iff (dialect : MySql) (field : FieldDecl) :
    dialect.normalizeDefault { field with defaultValue := dialect.normalizeDefault field } =
        dialect.normalizeDefault field ↔
      ∀ text, dialect.normalizeDefault field = some text →
        Lasting (dialect.typeOf field) text.toList := by
  cases hdefault : dialect.normalizeDefault field with
  | none => simp [normalizeDefault]
  | some text =>
    obtain ⟨cs, hcs, rfl⟩ := Option.map_eq_some_iff.1 hdefault
    obtain ⟨value, -, hstored⟩ := Option.bind_eq_some_iff.1 hcs
    have hagain : dialect.normalizeDefault { field with defaultValue := some (String.ofList cs) } =
        (storedDefault? (dialect.typeOf field) cs).map String.ofList := by
      rw [normalizeDefault, Option.bind_some, String.toList_ofList]
      rfl
    have hmap : (storedDefault? (dialect.typeOf field) cs).map String.ofList =
        some (String.ofList cs) ↔ storedDefault? (dialect.typeOf field) cs = some cs := by
      simp [Option.map_eq_some_iff, String.ofList_inj]
    rw [hagain, hmap, storedDefault?_idem_iff hstored]
    simp

/-- A number with an exponent is rounded to a zero with a sign, which goes when it is stored again,
and a date loses the digits that told it from the date without a day. -/
theorem normalizeDefault_not_idem :
    let tiny : FieldDecl := { name := "n", type := "int", defaultValue := some "-1e-3" }
    let early : FieldDecl :=
      { name := "t", type := "datetime", defaultValue := some "0000-00-00 00:00:00.5" }
    (normalizeDefault {} tiny = some "-0" ∧
        normalizeDefault {} { tiny with defaultValue := some "-0" } = some "0") ∧
      normalizeDefault {} early = some "0000-00-00 00:00:00" ∧
        normalizeDefault {} { early with defaultValue := some "0000-00-00 00:00:00" } = none := by
  decide +kernel

end SchemaPlan.MySql
