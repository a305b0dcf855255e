import SchemaPlan.Dialect

/-!
# Comparing a field with a live column

What is known of the field that a live column stands for, and of a column that is left as it is.

* `fieldOfColumn_eq`: the field copies the column; only its type is worked out.
* `attributes_eq_of_unchanged`: a column that is not changed has the attributes of its field.
-/
namespace SchemaPlan.Dialect

open Ddl

variable (dialect : Dialect) (column : Column)

/-- The field that a live column stands for, before its type is checked. -/
def readBack : FieldDecl where
  name := column.name
  type := (dialect.types.canonicalSource? column.dataType column.nullable).getD column.dataType
  column := some column.name
  nullable := column.nullable
  comment := column.comment
  unique := column.unique
  primaryKey := column.primaryKey
  autoIncrement := column.autoIncrement
  defaultValue := column.defaultValue
  size := column.size
  precision := column.precision
  scale := column.scale
  extra := column.extra

theorem fieldOfColumn_eq :
    dialect.fieldOfColumn column =
      { dialect.readBack column with
        ddlType :=
          if normalize (dialect.typeOf (dialect.readBack column)) = normalize column.dataType
          then none else some column.dataType } := by
  unfold fieldOfColumn
  dsimp only
  split
  · rename_i h
    rw [if_pos (show normalize (dialect.typeOf (dialect.readBack column)) = _ from h)]
    rfl
  · rename_i h
    rw [if_neg (show ¬ normalize (dialect.typeOf (dialect.readBack column)) = _ from h)]
    rfl

theorem columnName_fieldOfColumn :
    (dialect.fieldOfColumn column).columnName = column.name := by
  rw [fieldOfColumn_eq]
  rfl

theorem autoIncrement_fieldOfColumn :
    (dialect.fieldOfColumn column).autoIncrement = column.autoIncrement := by
  rw [fieldOfColumn_eq]
  rfl

variable {dialect column}

/-- A column that is left as it is has the attributes of its field. -/
theorem attributes_eq_of_unchanged {field : FieldDecl} {unique : Bool}
    (h : dialect.columnChanged field unique column = false) :
    { dialect.attributes field with unique } =
      { dialect.attributes (dialect.fieldOfColumn column) with unique := column.unique } := by
  unfold columnChanged at h
  simp only [Bool.or_eq_false_iff, bne_eq_false_iff_eq] at h
  exact h.2

theorem autoIncrement_eq_of_unchanged {field : FieldDecl} {unique : Bool}
    (h : dialect.columnChanged field unique column = false) :
    field.autoIncrement = column.autoIncrement := by
  have hmark := congrArg Attributes.autoIncrement (attributes_eq_of_unchanged h)
  dsimp only [attributes] at hmark
  rw [hmark, autoIncrement_fieldOfColumn]

end SchemaPlan.Dialect
