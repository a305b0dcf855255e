import SchemaPlan.Plan
import SchemaPlan.Proofs.ColumnReconstruction
import SchemaPlan.Proofs.Snapshot

/-!
# A database that has what is declared needs no change

The snapshot of declared tables is compared with those tables attribute by attribute. What is stored
for a field is a normal form already, so it reads back as itself.

* `columnChanged_snapshot`: the column of a field differs from it in nothing.
* `plan_snapshot`: the plan for a snapshot is empty.
-/
namespace SchemaPlan

open Text Ddl

namespace Dialect

/-- A field whose normal forms are not changed by normalizing them once more. -/
structure Stable (dialect : Dialect) (field : FieldDecl) : Prop where
  type : dialect.normalizeType (dialect.typeOf field) = dialect.typeOf field
  default : dialect.normalizeDefault { field with defaultValue := dialect.normalizeDefault field } =
    dialect.normalizeDefault field
  extra : dialect.normalizeExtra (dialect.normalizeExtra field.extra) =
    dialect.normalizeExtra field.extra

instance (dialect : Dialect) (field : FieldDecl) : Decidable (dialect.Stable field) :=
  decidable_of_iff
    (dialect.normalizeType (dialect.typeOf field) = dialect.typeOf field ∧
      dialect.normalizeDefault { field with defaultValue := dialect.normalizeDefault field } =
        dialect.normalizeDefault field ∧
      dialect.normalizeExtra (dialect.normalizeExtra field.extra) =
        dialect.normalizeExtra field.extra)
    ⟨fun ⟨h₁, h₂, h₃⟩ => ⟨h₁, h₂, h₃⟩, fun ⟨h₁, h₂, h₃⟩ => ⟨h₁, h₂, h₃⟩⟩

variable {dialect : Dialect} (hbuiltin : dialect.types.registered = [])

/-! ## The field that a column of a snapshot stands for -/

include hbuiltin in
theorem equivalent_typeOf {field : FieldDecl} (hddl : field.ddlType = none) {ddl : String}
    (hresolve : dialect.types.resolve? field.type field.isNullable = some (.canonical ddl)) :
    dialect.types.equivalent field.type (dialect.typeOf field) = true := by
  cases dialect with
  | mysql d => exact MySql.equivalent_typeOf hbuiltin hddl hresolve
  | spanner d => exact Spanner.equivalent_typeOf hbuiltin hddl hresolve

theorem normalizeComment_idem (comment : Option String) :
    dialect.normalizeComment (dialect.normalizeComment comment) =
      dialect.normalizeComment comment := by
  cases dialect with
  | mysql d => simp [normalizeComment, MySql.normalizeComment, Option.filter_filter]
  | spanner d => rfl

section
variable {keyName : String} {sizes : TableDecl → FieldDecl → ReportedSize} {table : TableDecl}
  {i : Nat} {field : FieldDecl}

include hbuiltin in
/-- Read back, the column of a field has the attributes of the field. -/
theorem attributes_snapshot (hstable : dialect.Stable field)
    (hpath : ¬ HasPath (dialect.typeOf field)) :
    dialect.attributes
      (dialect.fieldOfColumn (columnOfField dialect keyName sizes table i field)) =
      { dialect.attributes field with
        unique := (soleUniqueColumns table.indexes).contains field.columnName } := by
  have hnullable : (field.isNullable && !field.primaryKey) = field.isNullable := by
    rw [FieldDecl.isNullable, Bool.and_assoc, Bool.and_self]
  have hdefault : dialect.defaultAt (dialect.typeOf field) (dialect.normalizeDefault field) =
      dialect.normalizeDefault field := by
    have hstored := hstable.default
    cases dialect with
    | mysql d => exact hstored
    | spanner d => rfl
  rw [@attributes_fieldOfColumn dialect hbuiltin
    (columnOfField dialect keyName sizes table i field) hstable.type hpath]
  simp only [attributesOfColumn, columnOfField, attributes, hnullable, hdefault, hstable.extra,
    normalizeComment_idem, normalize_typeOf (made_of_builtin hbuiltin)]

include hbuiltin in
theorem columnChanged_snapshot (hstable : dialect.Stable field)
    (hpath : ¬ HasPath (dialect.typeOf field)) :
    dialect.columnChanged field ((soleUniqueColumns table.indexes).contains field.columnName)
      (columnOfField dialect keyName sizes table i field) = false := by
  unfold columnChanged mismatched
  dsimp only
  rw [Bool.or_eq_false_iff, bne_eq_false_iff_eq]
  refine ⟨?_, by rw [attributes_snapshot hbuiltin hstable hpath]; rfl⟩
  cases hddl : field.ddlType with
  | some ddl => rfl
  | none =>
    split
    · rename_i ddl hresolve
      have haccepts := equivalent_typeOf hbuiltin hddl hresolve
      rw [show (columnOfField dialect keyName sizes table i field).dataType =
        dialect.typeOf field from rfl, haccepts]
      rfl
    · rfl

end

/-! ## The plan for a snapshot -/

theorem diffIndexes_self (indexes : NameMap Index) : diffIndexes indexes indexes = ⟨[], []⟩ := by
  have hnone : (indexes.filter fun name index => indexes.find? name != some index) =
      NameMap.empty := by
    refine NameMap.ext_find? fun name => ?_
    rw [NameMap.find?_filter, NameMap.find?_empty]
    cases hindex : indexes.find? name with
    | none => rfl
    | some index => simp [Option.filter]
  rw [diffIndexes, hnone]
  rfl

section
variable {keyName : String} {sizes : TableDecl → FieldDecl → ReportedSize}

include hbuiltin in
theorem tableOperations_snapshot {table : TableDecl} (hnodup : table.columnNames.Nodup)
    (hstable : ∀ field ∈ table.fields, dialect.Stable field)
    (hpath : ∀ field ∈ table.fields, ¬ HasPath (dialect.typeOf field)) :
    dialect.tableOperations table (snapshotTable dialect keyName sizes table) = [] := by
  have hkey : keyOperations table (snapshotTable dialect keyName sizes table) = [] := by
    rw [keyOperations, if_pos (primaryKey_snapshot hnodup).symm]
  have hdrop : (snapshotTable dialect keyName sizes table).columns.filter
      (fun column => !table.columnNames.contains column.name) = [] := by
    rw [List.filter_eq_nil_iff]
    intro column hcolumn
    have hname := List.mem_map_of_mem (f := (·.name)) hcolumn
    rw [map_name_snapshotTable] at hname
    simp [hname]
  have hadd : (table.fields.filter fun field =>
      ((snapshotTable dialect keyName sizes table).column? field.columnName).isNone &&
        !(addedByKey []).contains field.columnName) = [] := by
    rw [List.filter_eq_nil_iff]
    intro field hfield
    obtain ⟨i, hcolumn⟩ := @column?_snapshot dialect keyName sizes table hnodup field hfield
    simp [hcolumn]
  unfold tableOperations
  dsimp only
  rw [hkey, hdrop, hadd, indexes_snapshot hnodup, diffIndexes_self]
  simp only [List.map_nil, List.nil_append, List.append_nil]
  rw [List.filterMap_eq_nil_iff]
  intro field hfield
  obtain ⟨i, hcolumn⟩ := @column?_snapshot dialect keyName sizes table hnodup field hfield
  rw [hcolumn, Option.bind_some, columnChanged_snapshot hbuiltin (hstable field hfield)
    (hpath field hfield), if_neg Bool.false_ne_true]

variable {tables : List TableDecl} {columns : List Column}

include hbuiltin in
/-- A database that has what is declared needs no operation. -/
theorem operations_snapshot (hnames : (tables.map (·.name)).Nodup)
    (hvalid : ∀ table ∈ tables, Valid dialect table)
    (hstable : ∀ table ∈ tables, ∀ field ∈ table.fields, dialect.Stable field)
    (hpath : ∀ table ∈ tables, ∀ field ∈ table.fields, ¬ HasPath (dialect.typeOf field))
    (hperm : columns.Perm (snapshot dialect keyName sizes tables)) :
    dialect.operations tables columns = [] := by
  have hundeclared : undeclaredTables tables columns = [] := by
    refine List.eq_nil_iff_forall_not_mem.2 fun live hlive => ?_
    obtain ⟨hfound, hname⟩ := mem_undeclaredTables.1 hlive
    rw [find?_snapshot_undeclared hperm hname] at hfound
    cases hfound
  rw [operations_eq, hundeclared, List.map_nil, List.append_nil, List.flatMap_eq_nil_iff]
  intro table hmem
  have htable : table ∈ tables := mem_inNameOrder.1 hmem
  have hv := hvalid table htable
  rw [declaredOperations, find?_snapshot hperm hnames htable hv.fields_ne_nil]
  exact tableOperations_snapshot hbuiltin hv.nodup_columns (hstable table htable)
    (hpath table htable)

/-- A database that has what is declared needs no change, whatever sizes its catalog reports and in
whatever order it lists the columns. -/
theorem plan_snapshot (hbuiltin : dialect.types.registered = [])
    (hvalid : validate dialect tables = .ok ())
    (hstable : ∀ table ∈ tables, ∀ field ∈ table.fields, dialect.Stable field)
    (hpath : ∀ table ∈ tables, ∀ field ∈ table.fields, ¬ HasPath (dialect.typeOf field))
    (hperm : columns.Perm (snapshot dialect keyName sizes tables)) :
    dialect.plan tables columns = .ok [] := by
  obtain ⟨hnames, htables⟩ := validate_ok hvalid
  rw [plan, hvalid]
  show dialect.planValidated tables columns = .ok []
  rw [planValidated, operations_snapshot hbuiltin hnames htables hstable hpath hperm]
  rfl

end

/-- A table with a key, a default and an index of two columns. -/
theorem plan_snapshot_orders :
    let orders : TableDecl := { name := "orders", fields := [
      { name := "id", type := "i64", primaryKey := true, autoIncrement := true },
      { name := "customer", type := "Option<String>", size := some 40
        index := some { name := some "by_customer" } },
      { name := "placed", type := "NaiveDateTime", defaultValue := some "now()"
        index := some { name := some "by_customer" } }] }
    let dialect : Dialect := .mysql {}
    dialect.plan [orders] (snapshot dialect "PRIMARY" (fun _ _ => {}) [orders]) = .ok [] :=
  plan_snapshot rfl (eq_ok_of_toOption (by decide +kernel)) (by decide +kernel) (by decide +kernel)
    (.refl _)

/-- A type with a path separator that a blank parts is read as an optional spelling. -/
theorem parted_path_read_as_optional :
    let note : FieldDecl := { name := "note", type := "String", ddlType := some "': :Option<a>" }
    let notes : TableDecl := { name := "notes", fields := [note] }
    let dialect : Dialect := .mysql {}
    validate dialect [notes] = .ok () ∧ dialect.Stable note ∧
      occursIn pathSeparator (dialect.typeOf note).toList = false ∧
      dialect.plan [notes] (snapshot dialect "PRIMARY" (fun _ _ => {}) [notes]) =
        .ok [⟨"notes", "ALTER TABLE `notes` MODIFY `note` ': :Option<a> NOT NULL"⟩] :=
  ⟨eq_ok_of_toOption (by decide +kernel), by decide +kernel, by decide +kernel,
    eq_ok_of_toOption (by decide +kernel)⟩

end Dialect

end SchemaPlan
