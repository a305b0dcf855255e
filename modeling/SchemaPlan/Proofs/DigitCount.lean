import SchemaPlan.CountedPlan
import SchemaPlan.Proofs.RequestedSize
import SchemaPlan.Proofs.StoredDefault

/-!
# When the digits of a default can be counted

The digits of a plain number are those in front of its point and the places of its column. They can
be laid out just if there are fewer of them than a buffer holds. From the bound of machine words on,
the sum itself overflows. No difference of counts is ever negative.

* `countedPlaces_eq`, `countedNumeral?_rounds`: a numeral with counted digits is the rounded one.
* `countedDefault?_of_some`, `countedDefault?_of_none`: a default with counted digits; no rule in
  front of the one for numbers catches a number.
* `decimalPlaces?_decimalType`: the places of a decimal type are those that the field asks for.
* `counted_plan_iff`: what becomes of a field's default, and of a plan.
-/
namespace SchemaPlan.MySql

open Text Decimal Ddl

/-- What comes of laying out `count` digits, where `result` is laid out. -/
def counted {α : Type} (count : ℕ) (result : α) : Except CountFault α :=
  if count < capacityBound then .ok result
  else if count < bound64 then .error .capacity
  else .error .overflow

theorem map_counted {α β : Type} (f : α → β) (count : ℕ) (result : α) :
    (counted count result).map f = counted count (f result) := by
  unfold counted
  split
  · rfl
  · split <;> rfl

/-- Laid out in a buffer, the digits are those of the rounded numeral. -/
theorem countedPlaces_eq (scale : ℕ) (negative : Bool) (whole fraction : List Char) :
    countedPlaces scale negative whole fraction =
      counted (whole.length + scale) (plainPlaces scale negative whole fraction) := by
  have hbound : capacityBound ≤ bound64 := by decide
  by_cases hword : whole.length + scale < bound64
  · by_cases hbuffer : whole.length + scale < capacityBound
    · have hkept : (whole ++ fraction.take scale).take (whole.length + scale) ++
          List.replicate (whole.length + scale - (whole ++ fraction.take scale).length) '0' =
            whole ++ fraction.take scale ++ List.replicate (scale - fraction.length) '0' := by
        have hlength : (whole ++ fraction.take scale).length ≤ whole.length + scale := by
          rw [List.length_append, List.length_take]
          omega
        rw [List.take_of_length_le hlength, List.length_append, List.length_take]
        congr 2
        omega
      have hsplit := le_length_roundedDigits scale whole fraction
      rw [counted, if_pos hbuffer, countedPlaces, addCounts, if_pos hword]
      simp only [bind, Except.bind, resizeDigits, if_pos hbuffer, hkept]
      rw [← roundedDigits, subtractCounts, if_pos hsplit]
      rfl
    · rw [counted, if_neg hbuffer, if_pos hword, countedPlaces, addCounts, if_pos hword]
      simp only [bind, Except.bind, resizeDigits, if_neg hbuffer]
  · rw [counted, if_neg fun h => hword (h.trans_le hbound), if_neg hword, countedPlaces, addCounts,
      if_neg hword]
    rfl

/-- The digits that a text without an exponent has in a column with `scale` places. -/
def plainDigits? (scale : ℕ) (value : List Char) : Option ℕ :=
  let (whole, fraction) := splitPoint (splitSign value).2
  if areDigits whole fraction then some (whole.length + scale) else none

/-- The digits of a default that are counted: those of a plain number in a column that stores
decimals. -/
def digitCount? (ddl : String) (value : List Char) : Option ℕ :=
  (decimalPlaces? ddl).bind fun scale => plainDigits? scale (trim value)

theorem countedNumeral?_eq (scale : ℕ) (value : List Char) :
    countedNumeral? scale value =
      (plainDigits? scale value).elim (.ok (decimalNumeral? scale value))
        fun count => counted count (decimalNumeral? scale value) := by
  unfold countedNumeral? plainDigits? decimalNumeral?
  dsimp only
  split
  · rw [countedPlaces_eq, map_counted]
    rfl
  · rfl

/-- Below the bound a plain literal is laid out as its value rounded half away from zero. -/
theorem countedNumeral?_rounds {cs : List Char} {q : ℚ} (h : PlainLiteral cs q) (scale : ℕ) :
    ∃ count, plainDigits? scale cs = some count ∧
      countedNumeral? scale cs =
        counted count (some (numeralOf scale (nearestWhole (q * 10 ^ scale)))) := by
  obtain ⟨negative, numeral, magnitude, hsign, hnumeral, -⟩ := h.splitSign
  obtain ⟨whole, fraction, hpoint, hdigits, -⟩ := hnumeral.parts
  have hcount : plainDigits? scale cs = some (whole.length + scale) := by
    rw [plainDigits?, hsign]
    dsimp only
    rw [hpoint]
    exact if_pos hdigits
  refine ⟨_, hcount, ?_⟩
  rw [countedNumeral?_eq, hcount, decimalNumeral?_of_plain h]
  rfl

theorem plainLiteral_of_plainDigits? {scale count : ℕ} {value : List Char}
    (h : plainDigits? scale value = some count) : ∃ q, PlainLiteral value q := by
  unfold plainDigits? at h
  dsimp only at h
  split at h
  case isFalse => cases h
  case isTrue hdigits =>
    have hplain : Literal.plain? value = some ⟨(splitSign value).1, _, _⟩ := if_pos hdigits
    exact ⟨_, (Literal.plain?_eq_some hplain).1⟩

theorem wordless_plainLiteral {value : List Char} {q : ℚ} (h : PlainLiteral value q) :
    Wordless value := by
  have hcode : ∀ c ∈ value, 43 ≤ c.toNat ∧ c.toNat ≤ 57 := by
    intro c hc
    rcases h.mem c hc with hdigit | hmark
    · obtain ⟨hfirst, hlast⟩ := toNat_of_isDigit hdigit
      omega
    · exact (by decide : ∀ c ∈ ['.', '+', '-'], 43 ≤ c.toNat ∧ c.toNat ≤ 57) c hmark
  refine ⟨trimmed_of_not_blank fun c hc => ?_, fun c hc => ?_, fun hmem => ?_⟩
  · obtain ⟨hfirst, hlast⟩ := hcode c hc
    simp only [isBlank]
    grind
  · exact Nat.lt_of_le_of_lt (hcode c hc).2 (by decide)
  · exact absurd (hcode _ hmem).1 (by decide)

/-! ## Counted defaults -/

section
variable {ddl : String} (hnumeric : isNumericType (baseType ddl) = true)
include hnumeric

theorem countedColumnNumeral?_eq (value : List Char) :
    countedColumnNumeral? ddl value =
      ((decimalPlaces? ddl).bind fun scale => plainDigits? scale value).elim
        (.ok (columnNumeral? ddl value)) fun count => counted count (columnNumeral? ddl value) := by
  rw [columnNumeral?_eq hnumeric]
  unfold countedColumnNumeral? decimalPlaces?
  rw [hnumeric]
  dsimp only
  by_cases hdecimal : (firstWord ddl = "DECIMAL" || firstWord ddl = "NUMERIC") = true
  · simp [hdecimal, countedNumeral?_eq]
  · by_cases hbit : firstWord ddl = "BIT"
    · simp [hbit]
    · by_cases hfloat : (firstWord ddl = "FLOAT" || firstWord ddl = "DOUBLE" ||
          firstWord ddl = "REAL") = true <;> simp [hdecimal, hbit, hfloat, countedNumeral?_eq]

theorem isDateType_of_isNumericType : isDateType (baseType ddl) = false := by
  have hnone : ∀ name ∈ numericTypes, name ∉ ["DATE", "DATETIME", "TIMESTAMP"] := by decide
  have hmem : firstWord (baseType ddl) ∈ numericTypes := by
    simpa [isNumericType] using hnumeric
  simpa [isDateType] using hnone _ hmem

end

theorem countedDefault?_of_none {ddl : String} {value : List Char}
    (h : digitCount? ddl value = none) :
    countedDefault? ddl value = .ok (storedDefault? ddl value) := by
  have hnone : ((decimalPlaces? ddl).bind fun scale => plainDigits? scale (trim value)) = none := h
  unfold countedDefault? storedDefault?
  dsimp only
  cases currentTime? (trim value) with
  | some expression => simp only [apply_ite Except.ok]
  | none =>
    by_cases hboth : (isNumericType (baseType ddl) && isNumericLiteral (trim value)) = true
    · rw [if_pos hboth, if_pos hboth, countedColumnNumeral?_eq (Bool.and_eq_true _ _ ▸ hboth).1,
        hnone]
      simp only [apply_ite Except.ok]
      rfl
    · rw [if_neg hboth, if_neg hboth]
      simp only [apply_ite Except.ok]
      rfl

/-- No rule in front of the one for numbers catches a number whose digits are counted. -/
theorem countedDefault?_of_some {ddl : String} {value : List Char} {count : ℕ}
    (h : digitCount? ddl value = some count) :
    countedDefault? ddl value = counted count (storedDefault? ddl value) := by
  obtain ⟨scale, hscale, hcount⟩ := Option.bind_eq_some_iff.1 h
  have hnumeric := isNumericType_of_decimalPlaces? hscale
  obtain ⟨q, hliteral⟩ := plainLiteral_of_plainDigits? hcount
  have hnumber : isNumericLiteral (trim value) = true := isNumericLiteral_iff.2 (.inl ⟨q, hliteral⟩)
  have hwordless := wordless_plainLiteral hliteral
  have hnull : sameLetters (trim value) "NULL".toList = false :=
    hwordless.sameLetters_eq_false (by decide)
  have htrue : sameLetters (trim value) "true".toList = false :=
    hwordless.sameLetters_eq_false (by decide)
  have hfalse : sameLetters (trim value) "false".toList = false :=
    hwordless.sameLetters_eq_false (by decide)
  have hcolumn : countedColumnNumeral? ddl (trim value) =
      counted count (columnNumeral? ddl (trim value)) := by
    rw [countedColumnNumeral?_eq hnumeric, hscale, Option.bind_some, hcount]
    rfl
  unfold countedDefault? storedDefault?
  simp only [hnull, htrue, hfalse, hwordless.currentTime?_eq_none,
    isDateType_of_isNumericType hnumeric, hnumeric, hnumber, hcolumn, Bool.false_and,
    Bool.and_false, Bool.and_true, Bool.false_eq_true, if_false, if_true]
  exact map_counted _ _ _

/-! ## Fields and plans -/

def fieldDigits? (dialect : MySql) (field : FieldDecl) : Option ℕ :=
  field.defaultValue.bind fun value => digitCount? (dialect.typeOf field) value.toList

theorem countedDefault_eq (dialect : MySql) (field : FieldDecl) :
    dialect.countedDefault field =
      (dialect.fieldDigits? field).elim (.ok (dialect.normalizeDefault field))
        fun count => counted count (dialect.normalizeDefault field) := by
  unfold countedDefault fieldDigits? normalizeDefault
  cases field.defaultValue with
  | none => rfl
  | some value =>
    dsimp only [Option.bind_some]
    cases hcount : digitCount? (dialect.typeOf field) value.toList with
    | none => rw [countedDefault?_of_none hcount]; rfl
    | some count =>
      rw [countedDefault?_of_some hcount, map_counted]
      rfl

theorem defaultFault?_eq_none_iff {dialect : MySql} {field : FieldDecl} :
    Dialect.defaultFault? (.mysql dialect) field = none ↔
      ∀ count, dialect.fieldDigits? field = some count → count < capacityBound := by
  unfold Dialect.defaultFault? Dialect.countedDefault
  dsimp only
  rw [countedDefault_eq]
  cases dialect.fieldDigits? field with
  | none => simp
  | some count =>
    simp only [Option.elim_some, Option.some.injEq, forall_eq', counted]
    grind

/-- No difference of counts is negative. -/
theorem countedDefault_ne_underflow (dialect : MySql) (field : FieldDecl) :
    dialect.countedDefault field ≠ .error .underflow := by
  rw [countedDefault_eq]
  cases dialect.fieldDigits? field with
  | none => simp
  | some count =>
    simp only [Option.elim_some, counted]
    grind

/-- A plan with counted digits is the plan just if the tables are refused, or a buffer holds the
digits of each default that is asked for. -/
theorem countedPlan_eq_ok_iff {dialect : MySql} {declared : List TableDecl}
    {columns : List Column} :
    Dialect.countedPlan (.mysql dialect) declared columns =
        .ok (Dialect.plan (.mysql dialect) declared columns) ↔
      (validate (.mysql dialect) declared = .ok () →
        ∀ field ∈ Dialect.plannedFields (.mysql dialect) declared columns,
          ∀ count, dialect.fieldDigits? field = some count → count < capacityBound) := by
  unfold Dialect.countedPlan Dialect.plan
  cases validate (.mysql dialect) declared with
  | error error => simp [bind, Except.bind]
  | ok accepted =>
    simp only [← defaultFault?_eq_none_iff, ← List.findSome?_eq_none_iff, forall_const]
    cases List.findSome? (Dialect.defaultFault? (.mysql dialect))
        (Dialect.plannedFields (.mysql dialect) declared columns) with
    | none => simp [bind, Except.bind]
    | some fault => simp

/-- The number of places of a decimal type is read back from its text, whatever it is. -/
theorem decimalPlaces?_decimalType (precision scale : UInt64) :
    decimalPlaces? ("DECIMAL(" ++ decimal precision.toNat ++ "," ++ decimal scale.toNat ++ ")") =
      some scale.toNat := by
  generalize hddl :
    "DECIMAL(" ++ decimal precision.toNat ++ "," ++ decimal scale.toNat ++ ")" = ddl
  have htext : ddl.toList = withArguments "DECIMAL".toList
      ((decimal precision.toNat).toList ++ ',' :: (decimal scale.toNat).toList) :=
    hddl ▸ toList_decimalType _ _
  have hbase : baseType ddl = "DECIMAL" := by
    rw [baseType, htext, baseTypeChars_arguments (by decide) (inner_decimalArguments _ _),
      String.ofList_toList]
  have hword : firstWord ddl = "DECIMAL" := by
    rw [firstWord, htext]
    rfl
  have hnumber (n : UInt64) :
      readBelow? bound64 (trim (decimal n.toNat).toList) = some n.toNat := by
    have htrimmed : Trimmed (decimal n.toNat).toList := by
      rw [decimal, String.toList_ofList]
      exact trimmed_of_marks fun c hc => isMark_of_isDigit (isDigit_of_mem_digits hc)
    rw [trim_eq_self htrimmed]
    exact readBelow?_decimal n.toNat_lt
  have harguments : typeArguments ddl = [precision.toNat, scale.toNat] := by
    have hcomma (n : ℕ) : ',' ∉ (decimal n).toList := by
      rw [decimal, String.toList_ofList]
      exact fun hmem => absurd (isDigit_of_mem_digits hmem) (by decide)
    rw [typeArguments, htext, argumentList?_arguments (by decide) (inner_decimalArguments _ _)]
    dsimp only
    rw [pieces_append (hcomma _), pieces_of_not_mem (hcomma _)]
    simp only [List.filterMap_cons, hnumber, List.filterMap_nil]
  have hnumeric : isNumericType (baseType ddl) = true := by
    rw [hbase]
    decide
  simp [decimalPlaces?, hnumeric, hword, harguments]

/-- The digits counted for a field of a decimal type that sets a precision: the places are those
that the field asks for. -/
theorem fieldDigits?_decimal {dialect : MySql} {field : FieldDecl} {ddl : String}
    {precision : UInt64} (hown : field.ddlType = none)
    (hresolve : dialect.types.resolve? field.type field.isNullable = some (.canonical ddl))
    (hbase : baseType ddl = "DECIMAL") (hprecision : field.precision = some precision) :
    dialect.fieldDigits? field =
      field.defaultValue.bind fun value =>
        plainDigits? (field.scale.getD 0).toNat (trim value.toList) := by
  have htype : dialect.typeOf field = sizedType ddl field := by
    rw [typeOf, hown]
    dsimp only
    rw [hresolve]
  rw [fieldDigits?, htype, sizedType_decimal hbase hprecision]
  simp only [digitCount?, decimalPlaces?_decimalType, Option.bind_some]

/-- With counted digits a default of MySQL is what it is without, except that from `capacityBound`
digits on there is a fault; no difference of counts is ever negative. Of a decimal field, the places
that it asks for count. A plan is what it is without just if the tables are refused, or no default
that is asked for has that many digits. Numbers with an exponent and memory are not counted. -/
theorem counted_plan_iff (dialect : MySql) :
    (∀ field : FieldDecl,
      dialect.countedDefault field ≠ .error .underflow ∧
        dialect.countedDefault field =
          (dialect.fieldDigits? field).elim (.ok (dialect.normalizeDefault field))
            fun count => counted count (dialect.normalizeDefault field)) ∧
    (∀ (field : FieldDecl) (ddl : String) (precision : UInt64), field.ddlType = none →
      dialect.types.resolve? field.type field.isNullable = some (.canonical ddl) →
      baseType ddl = "DECIMAL" → field.precision = some precision →
        dialect.fieldDigits? field =
          field.defaultValue.bind fun value =>
            plainDigits? (field.scale.getD 0).toNat (trim value.toList)) ∧
    ∀ (declared : List TableDecl) (columns : List Column),
      Dialect.countedPlan (.mysql dialect) declared columns =
          .ok (Dialect.plan (.mysql dialect) declared columns) ↔
        (validate (.mysql dialect) declared = .ok () →
          ∀ field ∈ Dialect.plannedFields (.mysql dialect) declared columns,
            ∀ count, dialect.fieldDigits? field = some count → count < capacityBound) :=
  ⟨fun field => ⟨countedDefault_ne_underflow dialect field, countedDefault_eq dialect field⟩,
    fun _ _ _ => fieldDigits?_decimal, fun _ _ => countedPlan_eq_ok_iff⟩

/-- A table is accepted whose one default has more digits than a machine word counts, and there is
no plan for it. -/
theorem scale_out_of_words :
    let field : FieldDecl :=
      { name := "n", type := "Decimal", precision := some 10,
        scale := some 18446744073709551615, defaultValue := some "1" }
    let tables : List TableDecl := [{ name := "t", fields := [field] }]
    validate (.mysql {}) tables = .ok () ∧
      countedDefault {} field = .error .overflow ∧
        Dialect.countedPlan (.mysql {}) tables [] = .error .overflow := by
  intro field tables
  have hvalid : validate (.mysql {}) tables = .ok () := eq_ok_of_toOption (by decide +kernel)
  have hfault : ((Dialect.mysql {}).plannedFields tables []).findSome?
      (Dialect.mysql {}).defaultFault? = some .overflow := by decide +kernel
  refine ⟨hvalid, by decide +kernel, ?_⟩
  simp only [Dialect.countedPlan, hvalid, hfault]

end SchemaPlan.MySql
