import SchemaPlan.Proofs.Literals
import SchemaPlan.Proofs.NumericLiteral
import SchemaPlan.Proofs.StoredDefault

/-!
# Defaults in column definitions

A default that is the current time, an expression in brackets or a number of a numeric column stands
in a column definition without quotes, any other one as a literal. Only the start of a text decides
whether it is a call or an expression, so a text that merely starts like one loses its quotes.

* `defaultOperand?`, `columnDefinition_default`: where the default of a field stands.
* `Unquoted`, `Operand`: what may stand there.
* `FalseExpression`: the texts that start like an expression and are none.
* `default_operand_iff`: these are the only ones for which it does not stand as it should.
-/
namespace SchemaPlan.MySql

open Text Decimal Ddl

/-! ## Operands -/

/-- What stands behind the word `DEFAULT` in the definition of a field's column. -/
def defaultOperand? (dialect : MySql) (field : FieldDecl) : Option String :=
  (dialect.normalizeDefault field).map fun value =>
    writtenDefault (dialect.typeOf field) value.toList

/-- A column definition has a clause for the default if there is one, between parts that do not
depend on it. -/
theorem columnDefinition_default (dialect : MySql) (field : FieldDecl) :
    ∃ front back : List String, ∀ value,
      dialect.columnDefinition { field with defaultValue := value } = " ".intercalate (front ++
        ((dialect.defaultOperand? { field with defaultValue := value }).map
          ("DEFAULT " ++ ·)).toList ++ back) := by
  refine ⟨[quoteName field.columnName, dialect.typeOf field,
    if field.isNullable then "NULL" else "NOT NULL"] ++
      if field.autoIncrement then ["AUTO_INCREMENT"] else [],
    (normalizeExtra field.extra).toList ++
      (normalizeComment field.comment).toList.map fun text => "COMMENT " ++ quoteLiteral text,
    fun value => ?_⟩
  rw [defaultOperand?, Option.map_map, Option.toList_map, ← List.append_assoc]
  rfl

def Bracketed (text : List Char) : Prop :=
  text.head? = some '(' ∧ text.getLast? = some ')'

/-- The operands without quotes of a declared default: the current time, with a precision or
without, a text in brackets if the declared one is in brackets, and a number if the column is
numeric. -/
inductive Unquoted (ddl : String) (declared : List Char) : List Char → Prop
  | now : Unquoted ddl declared "CURRENT_TIMESTAMP".toList
  | nowWith {precision : List Char} (h : isNumeral precision = true) :
      Unquoted ddl declared (currentTimeText precision)
  | expression {text : List Char} (hdeclared : Bracketed declared) (htext : Bracketed text) :
      Unquoted ddl declared text
  | number {text : List Char} (hnumeric : isNumericType (baseType ddl) = true)
      (hnumber : isNumericLiteral text = true) : Unquoted ddl declared text

/-- How a default should stand in a column definition: without quotes if it may, and otherwise as
the literal of its stored form. -/
def Operand (ddl : String) (declared : List Char) (stored operand : String) : Prop :=
  Unquoted ddl declared operand.toList ∨
    ¬Unquoted ddl declared stored.toList ∧ operand = quoteLiteral stored

/-- A text that starts like an expression and is none: with the name of the current time, without
being a call of it, or with an opening bracket, without a closing one at the end. -/
def FalseExpression (text : List Char) : Prop :=
  "CURRENT_TIMESTAMP".toList <+: text ∧ currentTime? text = none ∨
    text.head? = some '(' ∧ text.getLast? ≠ some ')'

theorem isRawDefault_iff {ddl : String} {text : List Char} :
    isRawDefault ddl text = true ↔ "CURRENT_TIMESTAMP".toList <+: text ∨ text.head? = some '(' ∨
      isNumericType (baseType ddl) = true ∧ isNumericLiteral text = true := by
  rw [isRawDefault, Bool.or_eq_true, Bool.or_eq_true, Bool.and_eq_true, List.isPrefixOf_iff_prefix,
    decide_eq_true_eq, or_assoc]

theorem Unquoted.isRawDefault {ddl : String} {declared text : List Char}
    (h : Unquoted ddl declared text) : isRawDefault ddl text = true := by
  rw [isRawDefault_iff]
  cases h with
  | now => exact .inl (List.prefix_refl _)
  | nowWith => exact .inl ⟨_, (List.append_assoc _ _ _).symm⟩
  | expression _ htext => exact .inr (.inl htext.1)
  | number hnumeric hnumber => exact .inr (.inr ⟨hnumeric, hnumber⟩)

theorem head?_of_isRawDefault {ddl : String} {text : List Char}
    (h : MySql.isRawDefault ddl text = true) : text.head? ≠ some '\'' := by
  intro hquote
  obtain ⟨rest, rfl⟩ := List.head?_eq_some_iff.1 hquote
  obtain ⟨rest', hstart⟩ | hopen | ⟨-, hnumber⟩ := isRawDefault_iff.1 h
  · exact absurd (congrArg List.head? hstart) (by simp)
  · exact absurd hopen (by simp)
  · exact absurd (mem_of_isNumericLiteral hnumber _ List.mem_cons_self) (by decide)

/-! ## First characters -/

section
variable {c : Char} {rest : List Char} (hc : c = 'C' ∨ c = '(')
include hc

theorem isNumericLiteral_of_head : isNumericLiteral (c :: rest) = false := by
  rw [← Bool.not_eq_true]
  intro hnumber
  have hfirst := mem_of_isNumericLiteral hnumber c List.mem_cons_self
  rcases hc with rfl | rfl <;> exact absurd hfirst (by decide)

theorem dateTimeLiteral?_of_head (precision : ℕ) :
    dateTimeLiteral? precision (c :: rest) = none := by
  have hdate : matchesPattern "dddd-dd-dd".toList
      ((cutAt ' ' (c :: rest)).getD (c :: rest, "00:00:00".toList)).1 = false := by
    cases hcut : cutAt ' ' (c :: rest) with
    | none => rcases hc with rfl | rfl <;> rfl
    | some parts =>
      obtain ⟨date, time⟩ := parts
      have hparts := eq_of_cutAt hcut
      cases date with
      | nil => rcases hc with rfl | rfl <;> exact absurd (List.cons.inj hparts).1 (by decide)
      | cons first date =>
        obtain rfl := (List.cons.inj hparts).1
        rcases hc with rfl | rfl <;> rfl
  unfold dateTimeLiteral?
  dsimp only
  rw [hdate]
  rfl

/-- No rule but that for the current time applies to a text with such a first character. -/
theorem storedDefault?_of_head {value : List Char} (hvalue : trim value = c :: rest)
    (hcurrent : currentTime? (c :: rest) = none) (ddl : String) :
    storedDefault? ddl value = some (c :: rest) := by
  have hnull : sameLetters (c :: rest) "NULL".toList = false := by
    rcases hc with rfl | rfl <;> simp [sameLetters, lowerAscii]
  have htrue : sameLetters (c :: rest) "true".toList = false := by
    rcases hc with rfl | rfl <;> simp [sameLetters, lowerAscii]
  have hfalse : sameLetters (c :: rest) "false".toList = false := by
    rcases hc with rfl | rfl <;> simp [sameLetters, lowerAscii]
  have hday : isZeroDate (c :: rest) = false := by
    rcases hc with rfl | rfl <;> rfl
  unfold storedDefault?
  rw [hvalue]
  simp only [hnull, hday, hcurrent, htrue, hfalse, isNumericLiteral_of_head hc,
    dateTimeLiteral?_of_head hc, Bool.and_false, Bool.false_eq_true, if_false, ite_self]
  rfl

end

theorem exists_currentTime?_text {precision : List Char} (h : isNumeral precision = true) :
    ∃ expression, currentTime? (currentTimeText precision) = some expression := by
  by_cases hzero : precision = ['0']
  · exact ⟨"CURRENT_TIMESTAMP".toList, by rw [hzero]; decide +kernel⟩
  · rw [isNumeral, Bool.and_eq_true, List.all_eq_true] at h
    exact ⟨_, currentTime?_text h.2 (by simpa using h.1) hzero⟩

/-! ## Texts that start like an expression -/

namespace FalseExpression

variable {text : List Char} (h : FalseExpression text)
include h

theorem head : ∃ c rest, text = c :: rest ∧ (c = 'C' ∨ c = '(') := by
  rcases h with ⟨⟨rest, rfl⟩, -⟩ | ⟨hopen, -⟩
  · exact ⟨'C', _, rfl, .inl rfl⟩
  · obtain ⟨rest, rfl⟩ := List.head?_eq_some_iff.1 hopen
    exact ⟨'(', rest, rfl, .inr rfl⟩

theorem currentTime?_eq_none (htrimmed : Trimmed text) : currentTime? text = none := by
  rcases h with ⟨-, hcurrent⟩ | ⟨hopen, -⟩
  · exact hcurrent
  · obtain ⟨rest, rfl⟩ := List.head?_eq_some_iff.1 hopen
    -- There is no name in front of the bracket.
    have hcut : cutAt '(' (upperAscii ('(' :: rest)) = some ([], upperAscii rest) := rfl
    have hname : currentTimeNames.contains (trim []) = false := by decide
    unfold currentTime?
    rw [trim_eq_self htrimmed]
    dsimp only
    rw [hcut]
    simp only [hname, Bool.not_false, if_true, ite_self]

theorem isRawDefault (ddl : String) : isRawDefault ddl text = true :=
  isRawDefault_iff.2 (h.imp And.left fun hopen => .inl hopen.1)

theorem not_unquoted (htrimmed : Trimmed text) (ddl : String) (declared : List Char) :
    ¬Unquoted ddl declared text := by
  have hcurrent := h.currentTime?_eq_none htrimmed
  intro hunquoted
  cases hunquoted with
  | now => exact absurd hcurrent (by decide +kernel)
  | @nowWith precision hnumeral =>
    obtain ⟨expression, hexpression⟩ := exists_currentTime?_text hnumeral
    exact absurd (hexpression.symm.trans hcurrent) nofun
  | expression _ htext =>
    rcases h with ⟨⟨rest, rfl⟩, -⟩ | ⟨-, hclose⟩
    · exact absurd htext.1 (by simp)
    · exact hclose htext.2
  | number _ hnumber =>
    obtain ⟨c, rest, rfl, hc⟩ := h.head
    exact absurd hnumber (by rw [isNumericLiteral_of_head hc]; decide)

end FalseExpression

/-! ## Stored defaults -/

/-- The rule for the current time comes before those for other texts. -/
theorem eq_of_currentTime? {ddl : String} {value text expression : List Char}
    (h : storedDefault? ddl value = some text)
    (hcurrent : currentTime? (trim value) = some expression) : text = expression := by
  unfold storedDefault? at h
  dsimp only at h
  rw [hcurrent] at h
  split at h
  · cases h
  split at h
  · cases h
  exact (Option.some.inj h).symm

theorem unquoted_of_currentTime? {value expression : List Char}
    (h : currentTime? value = some expression) (ddl : String) (declared : List Char) :
    Unquoted ddl declared expression := by
  obtain rfl | ⟨precision, hdigits, hne, -, rfl⟩ := currentTime?_cases h
  · exact .now
  · refine .nowWith ?_
    rw [isNumeral, Bool.and_eq_true, List.all_eq_true]
    exact ⟨by simpa using hne, hdigits⟩

/-- A stored default that stands without quotes may do so, if the declared one does not merely start
like an expression. -/
theorem unquoted_of_isRawDefault {ddl : String} {value text : List Char}
    (h : storedDefault? ddl value = some text) (hraw : isRawDefault ddl text = true)
    (hfalse : ¬FalseExpression (trim value)) : Unquoted ddl (trim value) text := by
  cases hcurrent : currentTime? (trim value) with
  | some expression =>
    obtain rfl := eq_of_currentTime? h hcurrent
    exact unquoted_of_currentTime? hcurrent _ _
  | none =>
    obtain htime | ⟨rfl, htext⟩ | hliteral | rfl := storedDefault?_cases h
    · exact absurd (htime.symm.trans hcurrent) nofun
    · refine .number (by decide +kernel) ?_
      rcases htext with rfl | rfl <;> decide
    · -- A number or a date starts neither like a name nor with a bracket.
      have hwordless := wordless_columnLiteral? hliteral
      obtain ⟨rest, rfl⟩ | hopen | ⟨hnumeric, hnumber⟩ := isRawDefault_iff.1 hraw
      · exact absurd (hwordless.before 'C' List.mem_cons_self) (by decide)
      · exact absurd (List.mem_of_head? hopen) hwordless.bracket
      · exact .number hnumeric hnumber
    · obtain hstart | hopen | ⟨hnumeric, hnumber⟩ := isRawDefault_iff.1 hraw
      · exact absurd (.inl ⟨hstart, hcurrent⟩) hfalse
      · have hclose : (trim value).getLast? = some ')' := by
          by_contra hother
          exact hfalse (.inr ⟨hopen, hother⟩)
        exact .expression ⟨hopen, hclose⟩ ⟨hopen, hclose⟩
      · exact .number hnumeric hnumber

theorem FalseExpression.eq_of_storedDefault? {ddl : String} {value text : List Char}
    (hfalse : FalseExpression (trim value)) (h : storedDefault? ddl value = some text) :
    text = trim value := by
  have hcurrent := hfalse.currentTime?_eq_none (trimmed_trim value)
  obtain ⟨c, rest, hvalue, hc⟩ := hfalse.head
  rw [hvalue] at hcurrent ⊢
  exact Option.some.inj (h.symm.trans (storedDefault?_of_head hc hvalue hcurrent ddl))

/-- A stored default stands as it should just if the declared one does not merely start like an
expression. -/
theorem operand_writtenDefault_iff {ddl : String} {value text : List Char}
    (h : storedDefault? ddl value = some text) :
    Operand ddl (trim value) (String.ofList text) (writtenDefault ddl text) ↔
      ¬FalseExpression (trim value) := by
  unfold Operand writtenDefault
  rw [String.toList_ofList]
  by_cases hraw : isRawDefault ddl text = true
  · rw [if_pos hraw, String.toList_ofList]
    constructor
    · rintro (hunquoted | ⟨-, hliteral⟩) hfalse
      · rw [hfalse.eq_of_storedDefault? h] at hunquoted
        exact hfalse.not_unquoted (trimmed_trim value) _ _ hunquoted
      · have hquote := head?_quoteLiteral .doubled (String.ofList text)
        rw [← quoteLiteral, ← hliteral, String.toList_ofList] at hquote
        exact head?_of_isRawDefault hraw hquote
    · exact fun hfalse => .inl (unquoted_of_isRawDefault h hraw hfalse)
  · rw [if_neg hraw]
    refine iff_of_true (.inr ⟨fun hunquoted => hraw hunquoted.isRawDefault, rfl⟩) fun hfalse => ?_
    rw [hfalse.eq_of_storedDefault? h] at hraw
    exact hraw (hfalse.isRawDefault ddl)

/-- The clause for the default of a field has the operand that it should have, unless the declared
default merely starts like an expression. -/
theorem default_operand_iff (dialect : MySql) (field : FieldDecl) :
    (∃ front back : List String, ∀ value,
      dialect.columnDefinition { field with defaultValue := value } = " ".intercalate (front ++
        ((dialect.defaultOperand? { field with defaultValue := value }).map
          ("DEFAULT " ++ ·)).toList ++ back)) ∧
      ∀ operand, dialect.defaultOperand? field = some operand →
        ∃ declared stored, field.defaultValue = some declared ∧
          dialect.normalizeDefault field = some stored ∧
          (Operand (dialect.typeOf field) (trim declared.toList) stored operand ↔
            ¬FalseExpression (trim declared.toList)) := by
  refine ⟨columnDefinition_default dialect field, fun operand hoperand => ?_⟩
  obtain ⟨stored, hstored, rfl⟩ := Option.map_eq_some_iff.1 hoperand
  obtain ⟨text, htext, rfl⟩ := Option.map_eq_some_iff.1 hstored
  obtain ⟨declared, hdeclared, hvalue⟩ := Option.bind_eq_some_iff.1 htext
  refine ⟨declared, _, hdeclared, hstored, ?_⟩
  rw [String.toList_ofList]
  exact operand_writtenDefault_iff hvalue

/-- A number of a numeric column. -/
theorem default_operand_iff_number :
    let field : FieldDecl := { name := "n", type := "i32", defaultValue := some "007" }
    defaultOperand? {} field = some "7" ∧
      ∃ declared stored, field.defaultValue = some declared ∧
        normalizeDefault {} field = some stored ∧
        (Operand (typeOf {} field) (trim declared.toList) stored "7" ↔
          ¬FalseExpression (trim declared.toList)) := by
  intro field
  have hoperand : defaultOperand? {} field = some "7" := by decide +kernel
  exact ⟨hoperand, (default_operand_iff {} field).2 "7" hoperand⟩

/-- A text with an opening bracket in front loses its quotes. -/
theorem default_operand_unquoted : ¬∀ (dialect : MySql) (field : FieldDecl)
    (declared stored operand : String), field.defaultValue = some declared →
      dialect.normalizeDefault field = some stored → dialect.defaultOperand? field = some operand →
        Operand (dialect.typeOf field) (trim declared.toList) stored operand := by
  intro hproper
  have hfalse : FalseExpression "(see below".toList := .inr ⟨by decide, by decide⟩
  have hoperand := hproper {}
    { name := "note", type := "String", defaultValue := some "(see below" } "(see below"
    "(see below" "(see below" rfl (by decide +kernel) (by decide +kernel)
  rcases hoperand with hunquoted | ⟨-, hliteral⟩
  · exact hfalse.not_unquoted (by decide) _ _ hunquoted
  · exact absurd hliteral (by decide)

example :
    let field : FieldDecl :=
      { name := "at", type := "String", defaultValue := some "CURRENT_TIMESTAMPS of it" }
    columnDefinition {} field =
      "`at` VARCHAR(255) NOT NULL DEFAULT CURRENT_TIMESTAMPS of it" := by
  decide +kernel

end SchemaPlan.MySql
