import SchemaPlan.Proofs.Comparison
import SchemaPlan.Proofs.FieldType

/-!
# Fields that live columns stand for

A live column is compared through the field that it stands for, and the type of this field is worked
out: the spelling of the stored type is guessed, takes the reported sizes, and is given up for the
stored type if it does not lead back there. Either way the field has the stored type, so that what
is compared is what the catalog says of the column, and the reported sizes do not show.

* `typeOf_fieldOfColumn`: the field has the stored type.
* `isNullable_fieldOfColumn`: its spelling does not make it optional.
* `attributesOfColumn`, `attributes_fieldOfColumn`: what is compared is what the catalog reports.
* `column_read_back`: nothing that is compared is lost, and sizes and places do not show.
-/
namespace SchemaPlan.Dialect

open Text Ddl

/-- The normal form in which a dialect keeps a column type. -/
def normalizeType : Dialect → String → String
  | .mysql _ => MySql.normalizeColumnType
  | .spanner _ => normalize

/-- Whether a type has a path separator, blanks aside. -/
def HasPath (ddl : String) : Prop :=
  occursIn pathSeparator (withoutBlanks ddl.toList) = true

instance (ddl : String) : Decidable (HasPath ddl) :=
  inferInstanceAs (Decidable (_ = true))

/-- A default as the catalog would report it for a column of a type. -/
def defaultAt (dialect : Dialect) (ddl : String) (value : Option String) : Option String :=
  match dialect with
  | .mysql _ =>
    (value.bind fun text => MySql.storedDefault? ddl text.toList).map String.ofList
  | .spanner _ => none

variable {dialect : Dialect}

theorem normalizeDefault_eq (field : FieldDecl) :
    dialect.normalizeDefault field =
      dialect.defaultAt (dialect.typeOf field) field.defaultValue := by
  cases dialect <;> rfl

/-! ## The type of the field -/

theorem normalize_normalizeType (ddl : String) :
    normalize (dialect.normalizeType ddl) = dialect.normalizeType ddl := by
  cases dialect with
  | mysql d => exact MySql.normalize_normalizeColumnType ddl
  | spanner d => exact Ddl.normalize_idem ddl

theorem typeOf_of_ddlType {field : FieldDecl} {ddl : String} (h : field.ddlType = some ddl) :
    dialect.typeOf field = dialect.normalizeType ddl := by
  cases dialect with
  | mysql d =>
    show d.typeOf field = MySql.normalizeColumnType ddl
    rw [MySql.typeOf, h]
  | spanner d =>
    show d.typeOf field = normalize ddl
    rw [Spanner.typeOf, h]

/-- A type that is stable is what the field of its column is stored in, up to normalizing. -/
theorem normalize_typeOf_fieldOfColumn {column : Column}
    (h : dialect.normalizeType column.dataType = column.dataType) :
    normalize (dialect.typeOf (dialect.fieldOfColumn column)) = normalize column.dataType := by
  rw [fieldOfColumn_eq]
  split
  · rename_i hsame
    exact hsame
  · rw [@typeOf_of_ddlType dialect _ column.dataType rfl, h]

section
variable (hbuiltin : dialect.types.registered = []) {column : Column}
  (hstable : dialect.normalizeType column.dataType = column.dataType)
include hbuiltin hstable

/-- The field of a column has the stored type, whether its spelling leads there or not. -/
theorem typeOf_fieldOfColumn :
    dialect.typeOf (dialect.fieldOfColumn column) = column.dataType := by
  have hnormal : normalize column.dataType = column.dataType := by
    rw [← hstable, normalize_normalizeType]
  rw [← normalize_typeOf (made_of_builtin hbuiltin), normalize_typeOf_fieldOfColumn hstable,
    hnormal]

theorem isNullable_fieldOfColumn (hpath : ¬HasPath column.dataType) :
    (dialect.fieldOfColumn column).isNullable = (column.nullable && !column.primaryKey) := by
  have hnormal : Normal column.dataType.toList := by
    rw [normal_toList, ← hstable, normalize_normalizeType]
  have hrequired := required_canonicalSource hbuiltin
    (required_of_normal hnormal (Bool.eq_false_iff.2 hpath))
  have hfield : (dialect.fieldOfColumn column).isNullable =
      ((column.nullable || (stripOption (withoutBlanks ((dialect.types.canonicalSource?
        column.dataType column.nullable).getD column.dataType).toList)).2) &&
          !column.primaryKey) := by
    rw [fieldOfColumn_eq]
    rfl
  rw [hfield]
  cases hnullable : column.nullable with
  | true => rfl
  | false => rw [hrequired, Bool.or_false]

end

/-! ## What is compared -/

/-- What the catalog says of a column, as far as it is compared. -/
def attributesOfColumn (dialect : Dialect) (column : Column) : Attributes where
  ddlType := column.dataType
  nullable := column.nullable && !column.primaryKey
  defaultValue := dialect.defaultAt column.dataType column.defaultValue
  primaryKey := column.primaryKey
  autoIncrement := column.autoIncrement
  unique := column.unique
  extra := dialect.normalizeExtra column.extra
  comment := dialect.normalizeComment column.comment

section
variable (hbuiltin : dialect.types.registered = []) {column : Column}
  (hstable : dialect.normalizeType column.dataType = column.dataType)
  (hpath : ¬HasPath column.dataType)
include hbuiltin hstable hpath

theorem attributes_fieldOfColumn :
    dialect.attributes (dialect.fieldOfColumn column) = dialect.attributesOfColumn column := by
  have htype := typeOf_fieldOfColumn hbuiltin hstable
  have hnormal := normalize_typeOf (made_of_builtin hbuiltin) (dialect.fieldOfColumn column)
  have hvalue : (dialect.fieldOfColumn column).defaultValue = column.defaultValue := by
    rw [fieldOfColumn_eq]
    rfl
  rw [attributes, hnormal, normalizeDefault_eq, htype, hvalue,
    isNullable_fieldOfColumn hbuiltin hstable hpath, fieldOfColumn_eq]
  rfl

/-- A column is compared by its own type, nullability, default, flags, clause and comment, and by
nothing else that the catalog reports. -/
theorem column_read_back :
    dialect.attributes (dialect.fieldOfColumn column) =
        { ddlType := column.dataType
          nullable := column.nullable && !column.primaryKey
          defaultValue := dialect.defaultAt column.dataType column.defaultValue
          primaryKey := column.primaryKey
          autoIncrement := column.autoIncrement
          unique := column.unique
          extra := dialect.normalizeExtra column.extra
          comment := dialect.normalizeComment column.comment } ∧
      ∀ size precision scale position memberships,
        dialect.attributes (dialect.fieldOfColumn
            { column with size, precision, scale, position, memberships }) =
          dialect.attributes (dialect.fieldOfColumn column) := by
  have hself := attributes_fieldOfColumn hbuiltin hstable hpath
  refine ⟨hself, fun size precision scale position memberships => ?_⟩
  rw [hself]
  exact @attributes_fieldOfColumn dialect hbuiltin
    { column with size, precision, scale, position, memberships } hstable hpath

end

/-- A list of strings whose elements have another length than the catalog reports of the column. -/
theorem column_read_back_tags :
    let dialect : Dialect := .spanner {}
    let column : Column :=
      { table := "notes", name := "tags", dataType := "ARRAY<STRING(MAX)>", nullable := false
        size := some 40, extra := some "b = TRUE, a=null" }
    dialect.attributes (dialect.fieldOfColumn column) =
        { ddlType := "ARRAY<STRING(MAX)>", nullable := false, defaultValue := none
          primaryKey := false, autoIncrement := false, unique := false
          extra := some "b=true", comment := none } ∧
      dialect.attributes (dialect.fieldOfColumn { column with size := none, position := 3 }) =
        dialect.attributes (dialect.fieldOfColumn column) := by
  intro dialect column
  obtain ⟨hself, hsizes⟩ :=
    @column_read_back dialect rfl column (by decide +kernel) (by decide +kernel)
  exact ⟨hself.trans (by decide +kernel), hsizes none none none 3 []⟩

/-- A type in normal form without a path separator, which a blank parts: without its blanks it is an
optional spelling. -/
theorem required_column_read_as_optional :
    let dialect : Dialect := .mysql {}
    let column : Column :=
      { table := "notes", name := "note", dataType := "': :Option<a>", nullable := false }
    dialect.normalizeType column.dataType = column.dataType ∧
      occursIn pathSeparator column.dataType.toList = false ∧
      (dialect.attributes (dialect.fieldOfColumn column)).nullable = true ∧
      (column.nullable && !column.primaryKey) = false := by
  decide +kernel

end SchemaPlan.Dialect
