import SchemaPlan.Proofs.Comparison
import SchemaPlan.Proofs.FieldType

/-!
# A column that is left as it is has the declared definition

Columns are compared by attributes in normal form, but a definition is written from the field
itself. Nothing is lost in between: every part of a definition is determined by the attributes, the
type because it is a normal form already, and the default because it is written from its stored form
and the type.

* `columnDefinition_eq`: fields with the same name and attributes have the same definition.
* `definition_of_unchanged`: no difference between a field and a live column goes unnoticed.
-/
namespace SchemaPlan

open Ddl

/-! ## What a definition is written from -/

theorem MySql.columnDefinition_congr {dialect : MySql} {a b : FieldDecl}
    (hname : a.columnName = b.columnName) (htype : dialect.typeOf a = dialect.typeOf b)
    (hnull : a.isNullable = b.isNullable) (hcounts : a.autoIncrement = b.autoIncrement)
    (hdefault : dialect.normalizeDefault a = dialect.normalizeDefault b)
    (hextra : normalizeExtra a.extra = normalizeExtra b.extra)
    (hcomment : normalizeComment a.comment = normalizeComment b.comment) :
    dialect.columnDefinition a = dialect.columnDefinition b := by
  unfold columnDefinition
  rw [hname, htype, hnull, hcounts, hdefault, hextra, hcomment]

theorem Spanner.columnDefinition_congr {dialect : Spanner} {a b : FieldDecl}
    (hname : a.columnName = b.columnName) (htype : dialect.typeOf a = dialect.typeOf b)
    (hnull : a.isNullable = b.isNullable)
    (hextra : normalizeExtra a.extra = normalizeExtra b.extra) :
    dialect.columnDefinition a = dialect.columnDefinition b := by
  unfold columnDefinition
  rw [hname, htype, hnull, hextra]

namespace Dialect

variable {dialect : Dialect}

/-- Fields with the same name and attributes have the same definition, whatever uniqueness says. -/
theorem columnDefinition_eq (hmade : ∀ entry ∈ dialect.types.registered, entry.Made)
    {a b : FieldDecl} {u v : Bool} (hname : a.columnName = b.columnName)
    (h : { dialect.attributes a with unique := u } = { dialect.attributes b with unique := v }) :
    dialect.columnDefinition a = dialect.columnDefinition b := by
  simp only [attributes, Attributes.mk.injEq] at h
  obtain ⟨htype, hnull, hdefault, -, hcounts, -, hextra, hcomment⟩ := h
  rw [normalize_typeOf hmade, normalize_typeOf hmade] at htype
  cases dialect with
  | mysql d =>
    have htype : d.typeOf a = d.typeOf b := htype
    have hdefault : d.normalizeDefault a = d.normalizeDefault b := hdefault
    show d.columnDefinition a = d.columnDefinition b
    exact MySql.columnDefinition_congr hname htype hnull hcounts hdefault hextra hcomment
  | spanner d =>
    have htype : d.typeOf a = d.typeOf b := htype
    show d.columnDefinition a = d.columnDefinition b
    exact Spanner.columnDefinition_congr hname htype hnull hextra

/-- A column that is left as it is has the definition that its field declares, is in the primary key
if the field is, and is unique if the declared indexes make it so. -/
theorem definition_of_unchanged (hmade : ∀ entry ∈ dialect.types.registered, entry.Made)
    {field : FieldDecl} {unique : Bool} {column : Column} (hname : column.name = field.columnName)
    (h : dialect.columnChanged field unique column = false) :
    dialect.columnDefinition field = dialect.columnDefinition (dialect.fieldOfColumn column) ∧
      field.primaryKey = (dialect.fieldOfColumn column).primaryKey ∧ unique = column.unique := by
  have hattributes := attributes_eq_of_unchanged h
  have hdefinition := columnDefinition_eq hmade
    (hname.symm.trans (dialect.columnName_fieldOfColumn column).symm) hattributes
  simp only [attributes, Attributes.mk.injEq] at hattributes
  obtain ⟨-, -, -, hkey, -, hunique, -, -⟩ := hattributes
  exact ⟨hdefinition, hkey, hunique⟩

/-- A registered type, with a default and a clause that are not in normal form. -/
theorem definition_of_unchanged_place :
    let dialect : Dialect := .mysql { registered := [(.ofSpellings "point" ["Point"])] }
    let field : FieldDecl :=
      { name := "place", type := "Point", defaultValue := some " x"
        extra := some "default_generated", comment := some "it's" }
    let column : Column :=
      { table := "shops", name := "place", dataType := "POINT", nullable := false
        defaultValue := some "x", unique := true, comment := some "it's" }
    dialect.columnDefinition field = dialect.columnDefinition (dialect.fieldOfColumn column) ∧
      field.primaryKey = (dialect.fieldOfColumn column).primaryKey ∧ true = column.unique :=
  definition_of_unchanged (List.forall_mem_singleton.2 (.ofSpellings _ _)) (by decide +kernel)
    (by decide +kernel)

end Dialect

end SchemaPlan
