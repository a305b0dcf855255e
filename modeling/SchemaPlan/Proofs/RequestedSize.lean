import SchemaPlan.Proofs.BaseType
import SchemaPlan.Proofs.FieldType

/-!
# The sizes that fields ask for

A registered type takes the size or the precision of a field in place of its own. The precision of
a temporal type is the exception: it is written behind the registered text, whatever the text ends
with, so a type that is registered with a precision gets a second one.

* `Requested`: the type that a field asks for.
* `sizedType_temporal`: a temporal type with a precision.
* `typeOf_requested_iff`: a field gets the type that it asks for, unless a temporal type already has
  an argument list.
-/
namespace SchemaPlan.MySql

open Text Ddl

/-! ## What a field asks for -/

def temporalTypes : List String :=
  ["DATETIME", "TIMESTAMP", "TIME"]

/-- A field sets a parameter that its registered type has. -/
inductive Resized (ddl : String) (field : FieldDecl) : Prop
  | text {size : UInt64} (hbase : baseType ddl = "VARCHAR") (h : field.size = some size)
  | bytes {size : UInt64} (hbase : baseType ddl = "VARBINARY") (h : field.size = some size)
  | decimal {precision : UInt64} (hbase : baseType ddl = "DECIMAL")
    (h : field.precision = some precision)
  | temporal {precision : UInt64} (hbase : baseType ddl ∈ temporalTypes)
    (h : field.precision = some precision) (hpositive : 0 < precision)

/-- The type that a field asks for: the base of its registered type with the parameter that the
field sets, a type for longer values if the size is out of range, and the registered type itself if
the field sets none. -/
structure Requested (ddl : String) (field : FieldDecl) (type : String) : Prop where
  text : ∀ size, baseType ddl = "VARCHAR" → field.size = some size →
    type =
      if size ≤ 16383 then withArgument "VARCHAR" size
      else if size ≤ 16777215 then "MEDIUMTEXT"
      else "LONGTEXT"
  bytes : ∀ size, baseType ddl = "VARBINARY" → field.size = some size →
    type =
      if size ≤ 65532 then withArgument "VARBINARY" size
      else if size ≤ 16777215 then "MEDIUMBLOB"
      else "LONGBLOB"
  decimal : ∀ precision, baseType ddl = "DECIMAL" → field.precision = some precision →
    type = "DECIMAL(" ++ Decimal.decimal precision.toNat ++ "," ++
      Decimal.decimal (field.scale.getD 0).toNat ++ ")"
  temporal : ∀ precision, baseType ddl ∈ temporalTypes → field.precision = some precision →
    0 < precision → type = withArgument (baseType ddl) precision
  own : ¬Resized ddl field → type = ddl

/-- A field asks for a precision of a temporal type that is registered with an argument list. -/
structure Overloaded (ddl : String) (field : FieldDecl) : Prop where
  temporal : baseType ddl ∈ temporalTypes
  precise : ∃ precision, field.precision = some precision ∧ 0 < precision
  listed : (argumentList? ddl.toList).isSome

/-- A type is a registered one with an argument list behind the one that it has. -/
def Doubled (ddl type : String) : Prop :=
  (argumentList? ddl.toList).isSome ∧
    ∃ arguments, type.toList = withArguments ddl.toList arguments

/-! ## Sized types -/

section
variable {ddl : String} {field : FieldDecl}

theorem inner_temporal (h : baseType ddl ∈ temporalTypes) :
    ∀ c ∈ baseTypeChars ddl.toList, Inner c := by
  have hall : ∀ name ∈ temporalTypes, ∀ c ∈ name.toList, Inner c := by decide
  rw [baseTypeChars_of_baseType rfl]
  exact hall _ h

theorem sizedType_text (hbase : baseType ddl = "VARCHAR") {size : UInt64}
    (h : field.size = some size) :
    sizedType ddl field = typeForLength "VARCHAR" 16383 "MEDIUMTEXT" "LONGTEXT" size := by
  simp [sizedType, hbase, h]

theorem sizedType_bytes (hbase : baseType ddl = "VARBINARY") {size : UInt64}
    (h : field.size = some size) :
    sizedType ddl field = typeForLength "VARBINARY" 65532 "MEDIUMBLOB" "LONGBLOB" size := by
  simp [sizedType, hbase, h]

theorem sizedType_decimal (hbase : baseType ddl = "DECIMAL") {precision : UInt64}
    (h : field.precision = some precision) :
    sizedType ddl field = "DECIMAL(" ++ Decimal.decimal precision.toNat ++ "," ++
      Decimal.decimal (field.scale.getD 0).toNat ++ ")" := by
  simp [sizedType, hbase, h]

theorem sizedType_temporal (hbase : baseType ddl ∈ temporalTypes) {precision : UInt64}
    (h : field.precision = some precision) (hpositive : 0 < precision) :
    sizedType ddl field = withArgument ddl precision := by
  simp only [temporalTypes, List.mem_cons, List.not_mem_nil, or_false] at hbase
  rcases hbase with hbase | hbase | hbase <;> simp [sizedType, hbase, h, hpositive]

/-- A type that has no parameter, or whose parameter the field leaves alone, stays as it is. -/
theorem sizedType_own (h : ¬Resized ddl field) : sizedType ddl field = ddl := by
  unfold sizedType
  dsimp only
  split
  · rename_i hbase
    cases hsize : field.size with
    | none => rfl
    | some size => exact absurd (.text hbase hsize) h
  split
  · rename_i hbase
    cases hsize : field.size with
    | none => rfl
    | some size => exact absurd (.bytes hbase hsize) h
  split
  · rename_i hbase
    cases hprecision : field.precision with
    | none => rfl
    | some precision => exact absurd (.decimal hbase hprecision) h
  split
  · rename_i hbase
    have htemporal : baseType ddl ∈ temporalTypes := by
      simpa [temporalTypes, or_assoc] using hbase
    cases hprecision : field.precision with
    | none => rfl
    | some precision =>
      exact if_neg fun hpositive => h (.temporal htemporal hprecision hpositive)
  · rfl

/-- The precision of a temporal type that has no argument list stands behind its base. -/
theorem requested_sizedType (hddl : Normal ddl.toList) (h : ¬Overloaded ddl field) :
    Requested ddl field (sizedType ddl field) where
  text size hbase hsize := sizedType_text hbase hsize
  bytes size hbase hsize := sizedType_bytes hbase hsize
  decimal precision hbase hprecision := sizedType_decimal hbase hprecision
  temporal precision hbase hprecision hpositive := by
    have hnone : argumentList? ddl.toList = none := Option.not_isSome_iff_eq_none.1 fun hsome =>
      h ⟨hbase, ⟨precision, hprecision, hpositive⟩, hsome⟩
    have hown := (argumentList?_eq_none_iff hddl rfl (inner_temporal hbase)).1 hnone
    rw [sizedType_temporal hbase hprecision hpositive, baseType, ← hown, String.ofList_toList]
  own := sizedType_own

end

/-! ## Argument lists -/

theorem count_withArguments {name arguments : List Char} (hname : ∀ c ∈ name, Inner c)
    (harguments : ∀ c ∈ arguments, Inner c) : (withArguments name arguments).count '(' = 1 := by
  have hnone : ∀ {word : List Char}, (∀ c ∈ word, Inner c) → word.count '(' = 0 := fun hword =>
    List.count_eq_zero.2 fun hmem => (hword _ hmem).not_bracket (by simp)
  rw [withArguments, List.count_append, List.count_cons_self, List.count_append, hnone hname,
    hnone harguments]
  rfl

theorem count_withArgument {name : String} (hname : ∀ c ∈ name.toList, Inner c)
    (argument : UInt64) : (withArgument name argument).toList.count '(' ≤ 1 := by
  rw [toList_withArgument]
  exact Nat.le_of_eq (count_withArguments hname (inner_decimal _))

theorem count_typeForLength {name medium long : String} (hname : ∀ c ∈ name.toList, Inner c)
    (hlong : ∀ ddl ∈ [medium, long], ddl.toList.count '(' = 0) (limit length : UInt64) :
    (typeForLength name limit medium long length).toList.count '(' ≤ 1 := by
  unfold typeForLength
  split
  · exact count_withArgument hname length
  · split
    · exact Nat.le_succ_of_le (Nat.le_of_eq (hlong medium (by simp)))
    · exact Nat.le_succ_of_le (Nat.le_of_eq (hlong long (by simp)))

variable {ddl : String} {field : FieldDecl}

theorem two_le_count_of_doubled {type : String} (h : Doubled ddl type) :
    2 ≤ type.toList.count '(' := by
  obtain ⟨hlisted, arguments, htext⟩ := h
  obtain ⟨⟨before, inside, behind⟩, hlist⟩ := Option.isSome_iff_exists.1 hlisted
  have hopen : '(' ∈ ddl.toList := by simp [eq_of_argumentList? hlist]
  have hpositive := List.count_pos_iff.2 hopen
  rw [htext, withArguments, List.count_append, List.count_cons_self]
  omega

theorem Requested.not_doubled {type : String} (h : Requested ddl field type) :
    ¬Doubled ddl type := by
  intro hdoubled
  have htwo := two_le_count_of_doubled hdoubled
  by_cases hresized : Resized ddl field
  · have hone : type.toList.count '(' ≤ 1 := by
      cases hresized with
      | text hbase hsize =>
        rw [h.text _ hbase hsize]
        exact count_typeForLength (by decide) (by decide) _ _
      | bytes hbase hsize =>
        rw [h.bytes _ hbase hsize]
        exact count_typeForLength (by decide) (by decide) _ _
      | decimal hbase hprecision =>
        rw [h.decimal _ hbase hprecision, toList_decimalType]
        exact Nat.le_of_eq (count_withArguments (by decide) (inner_decimalArguments _ _))
      | temporal hbase hprecision hpositive =>
        rw [h.temporal _ hbase hprecision hpositive]
        refine count_withArgument ?_ _
        rw [baseType, String.toList_ofList]
        exact inner_temporal hbase
    omega
  · obtain ⟨-, arguments, htext⟩ := hdoubled
    have hlength := congrArg List.length htext
    rw [h.own hresized, withArguments, List.length_append, List.length_cons] at hlength
    omega

theorem Overloaded.doubled (h : Overloaded ddl field) : Doubled ddl (sizedType ddl field) := by
  obtain ⟨precision, hprecision, hpositive⟩ := h.precise
  rw [sizedType_temporal h.temporal hprecision hpositive]
  exact ⟨h.listed, _, toList_withArgument ddl precision⟩

/-! ## The types of fields -/

theorem typeOf_canonical {dialect : MySql} {field : FieldDecl} (hown : field.ddlType = none)
    {ddl : String}
    (hresolve : dialect.types.resolve? field.type field.isNullable = some (.canonical ddl)) :
    dialect.typeOf field = sizedType ddl field := by
  unfold typeOf
  rw [hown, hresolve]

/-- A field whose type is found among the entries gets the type that it asks for, unless it asks for
the precision of a temporal type that is registered with an argument list. Just then its type has a
second list. -/
theorem typeOf_requested_iff {dialect : MySql} (hmade : ∀ entry ∈ dialect.registered, entry.Made)
    {field : FieldDecl} (hown : field.ddlType = none) {ddl : String}
    (hresolve : dialect.types.resolve? field.type field.isNullable = some (.canonical ddl)) :
    (Requested ddl field (dialect.typeOf field) ↔ ¬Overloaded ddl field) ∧
      (Doubled ddl (dialect.typeOf field) ↔ Overloaded ddl field) := by
  have hnormal : Normal ddl.toList :=
    @Dialect.normal_resolve (.mysql dialect) hmade _ _ (.canonical ddl) hresolve
  rw [typeOf_canonical hown hresolve]
  refine ⟨⟨fun hrequested hover => hrequested.not_doubled hover.doubled,
    requested_sizedType hnormal⟩, fun hdoubled => ?_, Overloaded.doubled⟩
  exact Classical.byContradiction fun hover =>
    (requested_sizedType hnormal hover).not_doubled hdoubled

/-- A temporal type that is registered without a precision. -/
theorem typeOf_requested_stamp :
    let dialect : MySql := { registered := [.ofSpellings "datetime" ["Stamp"]] }
    let field : FieldDecl := { name := "at", type := "Stamp", precision := some 3 }
    Requested "DATETIME" field (dialect.typeOf field) ∧
      ¬Doubled "DATETIME" (dialect.typeOf field) := by
  intro dialect field
  have hresolve : dialect.types.resolve? field.type field.isNullable =
      some (.canonical "DATETIME") := by decide +kernel
  obtain ⟨hrequested, hdoubled⟩ :=
    typeOf_requested_iff (List.forall_mem_singleton.2 (.ofSpellings _ _)) rfl hresolve
  have hover : ¬Overloaded "DATETIME" field := fun hover =>
    absurd hover.listed (by decide +kernel)
  exact ⟨hrequested.2 hover, fun h => hover (hdoubled.1 h)⟩

/-- A temporal type that is registered with a precision gets a second one. -/
theorem precision_added_twice :
    let dialect : MySql := { registered := [.ofSpellings "datetime(6)" ["Stamp"]] }
    let field : FieldDecl := { name := "at", type := "Stamp", precision := some 3 }
    dialect.types.resolve? field.type field.isNullable = some (.canonical "DATETIME(6)") ∧
      baseType "DATETIME(6)" = "DATETIME" ∧ dialect.typeOf field = "DATETIME(6)(3)" ∧
      ¬Requested "DATETIME(6)" field (dialect.typeOf field) := by
  intro dialect field
  have hbase : baseType "DATETIME(6)" = "DATETIME" := by decide +kernel
  have htype : dialect.typeOf field = "DATETIME(6)(3)" := by decide +kernel
  refine ⟨by decide +kernel, hbase, htype, fun hrequested => ?_⟩
  have := hrequested.temporal 3 (hbase ▸ by decide) rfl (by decide)
  rw [htype, hbase] at this
  exact absurd this (by decide +kernel)

end SchemaPlan.MySql
