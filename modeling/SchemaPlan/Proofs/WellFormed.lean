import SchemaPlan.Proofs.Validation

/-!
# Well-formed schemas

Validation stops at the first fault it comes to. What it accepts is said here without an order: each
field makes sense by itself and can be stored, the columns of a table differ and so do the tables,
and any two uses of an index agree on its uniqueness. So the order of tables and fields may decide
which fault is reported, and not whether there is one.

* `TableDecl.usesOf`: the uses that a table makes of the index of a name.
* `FieldDecl.WellFormed`, `Spanner.Storable`: what is asked of one field.
* `TableDecl.WellFormed`, `WellFormed`: what is asked of a table and of a schema.
* `valid_iff_wellFormed`: the checks of a table ask for just this.
* `validate_accepts_iff`: validation accepts the well-formed schemas, in any order.
-/
namespace SchemaPlan

/-! ## Uses of an index -/

/-- The uses that a field makes of the index of a name, each with the column and whether it asks for
a unique index. An index without a name has the default one. -/
def FieldDecl.usesOf (table : String) (field : FieldDecl) (name : String) : List (String × Bool) :=
  let column := field.columnName
  let fallback := defaultIndexName table column
  (if field.unique = true ∧ field.uniqueIndex.getD fallback = name then [(column, true)] else []) ++
    (field.index.toList.filter fun index => index.name.getD fallback = name).map fun index =>
      (column, index.unique)

/-- The uses that a table makes of the index of a name, in declaration order. -/
def TableDecl.usesOf (table : TableDecl) (name : String) : List (String × Bool) :=
  table.fields.flatMap fun field => field.usesOf table.name name

theorem FieldDecl.usesOf_eq (table : String) (field : FieldDecl) (name : String) :
    field.usesOf table name =
      ((field.indexUses table).filter fun use => use.index = name).map fun use =>
        (use.column, use.unique) := by
  unfold usesOf indexUses
  dsimp only
  rw [List.filter_append, List.map_append]
  congr 1
  · by_cases hunique : field.unique = true
    · by_cases hname : field.uniqueIndex.getD (defaultIndexName table field.columnName) = name <;>
        simp [hunique, hname]
    · simp [hunique]
  · cases field.index with
    | none => rfl
    | some index =>
      by_cases hname : index.name.getD (defaultIndexName table field.columnName) = name <;>
        simp [hname]

theorem TableDecl.usesOf_eq (table : TableDecl) (name : String) :
    table.usesOf name =
      (table.indexUses.filter fun use => use.index = name).map fun use =>
        (use.column, use.unique) := by
  unfold usesOf indexUses
  rw [List.filter_flatMap, List.map_flatMap]
  exact List.flatMap_congr fun field _ => field.usesOf_eq table.name name

/-- All uses of an index ask for the same. -/
def TableDecl.UsesAgree (table : TableDecl) : Prop :=
  ∀ name, ∀ a ∈ table.usesOf name, ∀ b ∈ table.usesOf name, a.2 = b.2

theorem uses_ok_iff {table : TableDecl} :
    validateIndexUses table.name [] table.indexUses = .ok () ↔ table.UsesAgree := by
  rw [validateIndexUses_eq_ok_iff, List.nil_append]
  unfold TableDecl.UsesAgree
  simp only [TableDecl.usesOf_eq, List.mem_map, List.mem_filter, decide_eq_true_eq]
  constructor
  · rintro hagree name _ ⟨a, ⟨ha, hname⟩, rfl⟩ _ ⟨b, ⟨hb, hname'⟩, rfl⟩
    exact hagree b hb a ha (hname.trans hname'.symm)
  · intro hagree a ha b hb heq
    exact hagree a.index _ ⟨b, ⟨hb, heq⟩, rfl⟩ _ ⟨a, ⟨ha, rfl⟩, rfl⟩

/-! ## Fields -/

/-- What any dialect asks of a field: it says how it is stored, and none of its options needs
another one that is missing or excludes another one. -/
structure FieldDecl.WellFormed (types : Registry) (field : FieldDecl) : Prop where
  resolves : field.ddlType = none → types.resolve? field.type field.isNullable ≠ none
  unique_of_named : field.uniqueIndex ≠ none → field.unique = true
  precision_of_scale : field.scale ≠ none → field.precision ≠ none
  no_default_of_counter : field.autoIncrement = true → field.defaultValue = none

/-- What Spanner asks of a field besides: it has no default, does not count, and its options can be
read. -/
structure Spanner.Storable (field : FieldDecl) : Prop where
  no_default : field.defaultValue = none
  no_counter : field.autoIncrement = false
  options_read : ∀ extra, field.extra = some extra → ∃ options, Options.read extra = .ok options

/-- What a dialect asks of a field besides. -/
def Dialect.StoresField : Dialect → FieldDecl → Prop
  | .mysql _ => fun _ => True
  | .spanner _ => Spanner.Storable

theorem Spanner.validateField_eq_ok_iff {table : String} {field : FieldDecl} :
    Spanner.validateField table field = .ok () ↔ Spanner.Storable field := by
  unfold Spanner.validateField
  dsimp only
  rw [ite_error_eq_ok_iff, ite_error_eq_ok_iff, Option.isSome_iff_ne_none, not_not,
    Bool.not_eq_true]
  constructor
  · intro ⟨hdefault, hcounter, hread⟩
    refine ⟨hdefault, hcounter, ?_⟩
    intro extra hextra
    cases hoptions : Options.read extra with
    | ok options => exact ⟨options, rfl⟩
    | error fault => simp [hextra, hoptions] at hread
  · intro h
    refine ⟨h.no_default, h.no_counter, ?_⟩
    cases hextra : field.extra with
    | none => rfl
    | some extra =>
      obtain ⟨options, hoptions⟩ := h.options_read extra hextra
      simp [hoptions]

theorem Dialect.validateField_eq_ok_iff {dialect : Dialect} {table : String} {field : FieldDecl} :
    dialect.validateField table field = .ok () ↔ dialect.StoresField field := by
  cases dialect with
  | mysql d => exact iff_of_true rfl trivial
  | spanner d => exact Spanner.validateField_eq_ok_iff

theorem fieldFault_nil_iff {dialect : Dialect} {table : String} {field : FieldDecl} :
    fieldFault dialect table [] field = .ok () ↔
      field.WellFormed dialect.types ∧ dialect.StoresField field := by
  unfold fieldFault
  dsimp only
  rw [ite_error_eq_ok_iff, ite_error_eq_ok_iff, ite_error_eq_ok_iff, ite_error_eq_ok_iff,
    ite_error_eq_ok_iff, Dialect.validateField_eq_ok_iff]
  simp only [List.contains_nil, Bool.false_eq_true, not_false_eq_true, true_and, Bool.and_eq_true,
    not_and, Bool.not_eq_true', Option.isNone_iff_eq_none, Option.isSome_iff_ne_none,
    Bool.not_eq_false, ne_eq, not_not]
  constructor
  · intro ⟨hresolves, hnamed, hscale, hcounter, hstores⟩
    exact ⟨⟨hresolves, hnamed, hscale, hcounter⟩, hstores⟩
  · intro ⟨h, hstores⟩
    exact ⟨h.resolves, h.unique_of_named, h.precision_of_scale, h.no_default_of_counter, hstores⟩

/-! ## Tables -/

/-- What a dialect asks of a table besides: on Spanner it has a primary key. -/
def Dialect.StoresTable : Dialect → TableDecl → Prop
  | .mysql _ => fun _ => True
  | .spanner _ => fun table => ∃ field ∈ table.fields, field.primaryKey = true

theorem Dialect.validateTable_eq_ok_iff {dialect : Dialect} {table : TableDecl} :
    dialect.validateTable table = .ok () ↔ dialect.StoresTable table := by
  cases dialect with
  | mysql d => exact iff_of_true rfl trivial
  | spanner d =>
    unfold Dialect.validateTable Spanner.validateTable
    rw [ite_error_eq_ok_iff]
    simp [StoresTable, TableDecl.primaryKey]

structure TableDecl.WellFormed (dialect : Dialect) (table : TableDecl) : Prop where
  fields_ne_nil : table.fields ≠ []
  nodup_columns : table.columnNames.Nodup
  fields : ∀ field ∈ table.fields, field.WellFormed dialect.types ∧ dialect.StoresField field
  uses_agree : table.UsesAgree
  stored : dialect.StoresTable table

theorem valid_iff_wellFormed {dialect : Dialect} {table : TableDecl} :
    Valid dialect table ↔ table.WellFormed dialect := by
  constructor
  · intro h
    exact ⟨h.fields_ne_nil, h.nodup_columns,
      fun field hfield => fieldFault_nil_iff.1 (h.fields_ok field hfield),
      uses_ok_iff.1 h.uses_ok, Dialect.validateTable_eq_ok_iff.1 h.dialect_ok⟩
  · intro h
    exact ⟨h.fields_ne_nil, h.nodup_columns,
      fun field hfield => fieldFault_nil_iff.2 (h.fields field hfield),
      uses_ok_iff.2 h.uses_agree, Dialect.validateTable_eq_ok_iff.2 h.stored⟩

/-! ## Schemas -/

/-- What is asked of a schema. -/
structure WellFormed (dialect : Dialect) (tables : List TableDecl) : Prop where
  nodup_names : (tables.map (·.name)).Nodup
  tables : ∀ table ∈ tables, table.WellFormed dialect

/-- The table with its fields in another order. -/
def TableDecl.Reordered (table other : TableDecl) : Prop :=
  ∃ fields, table.fields.Perm fields ∧ other = { table with fields }

/-- The same tables in another order, each of them with its fields in another order. -/
def SchemaReordered (tables others : List TableDecl) : Prop :=
  ∃ between, tables.Perm between ∧ List.Forall₂ TableDecl.Reordered between others

namespace TableDecl.Reordered

variable {dialect : Dialect} {table other : TableDecl}

theorem symm (h : table.Reordered other) : other.Reordered table := by
  obtain ⟨fields, hperm, rfl⟩ := h
  exact ⟨table.fields, hperm.symm, rfl⟩

theorem mem_usesOf (h : table.Reordered other) {name : String} {use : String × Bool} :
    use ∈ other.usesOf name ↔ use ∈ table.usesOf name := by
  obtain ⟨fields, hperm, rfl⟩ := h
  unfold usesOf
  rw [List.mem_flatMap, List.mem_flatMap]
  simp only [hperm.mem_iff]

theorem storesTable (h : table.Reordered other) (hstores : dialect.StoresTable table) :
    dialect.StoresTable other := by
  obtain ⟨fields, hperm, rfl⟩ := h
  cases dialect with
  | mysql d => trivial
  | spanner d =>
    obtain ⟨field, hfield, hkey⟩ := hstores
    exact ⟨field, hperm.mem_iff.1 hfield, hkey⟩

/-- Nothing that is asked of a table depends on the order of its fields. -/
theorem wellFormed (h : table.Reordered other) (hwell : table.WellFormed dialect) :
    other.WellFormed dialect := by
  have hstored := h.storesTable hwell.stored
  have hagree : other.UsesAgree := by
    intro name a ha b hb
    exact hwell.uses_agree name a (h.mem_usesOf.1 ha) b (h.mem_usesOf.1 hb)
  obtain ⟨fields, hperm, rfl⟩ := h
  refine ⟨?_, (hperm.map _).nodup_iff.1 hwell.nodup_columns, ?_, hagree, hstored⟩
  · intro hnil
    subst hnil
    exact hwell.fields_ne_nil hperm.eq_nil
  · intro field hfield
    exact hwell.fields field (hperm.mem_iff.2 hfield)

end TableDecl.Reordered

theorem WellFormed.perm {dialect : Dialect} {tables others : List TableDecl}
    (h : tables.Perm others) (hwell : WellFormed dialect tables) : WellFormed dialect others :=
  ⟨(h.map _).nodup_iff.1 hwell.nodup_names, fun table htable =>
    hwell.tables table (h.mem_iff.2 htable)⟩

theorem WellFormed.forall₂ {dialect : Dialect} {tables others : List TableDecl}
    (h : List.Forall₂ TableDecl.Reordered tables others) (hwell : WellFormed dialect tables) :
    WellFormed dialect others := by
  have hnames : tables.map (·.name) = others.map (·.name) := by
    apply map_eq_of_forall₂
    apply h.imp
    rintro table _ ⟨fields, -, rfl⟩
    rfl
  refine ⟨hnames ▸ hwell.nodup_names, ?_⟩
  intro other hother
  obtain ⟨table, htable, hreordered⟩ := exists_left_of_mem h hother
  exact hreordered.wellFormed (hwell.tables table htable)

theorem SchemaReordered.wellFormed_iff {dialect : Dialect} {tables others : List TableDecl}
    (h : SchemaReordered tables others) :
    WellFormed dialect tables ↔ WellFormed dialect others := by
  obtain ⟨between, hperm, hfields⟩ := h
  have hback : List.Forall₂ TableDecl.Reordered others between :=
    hfields.flip.imp fun _ _ => TableDecl.Reordered.symm
  constructor
  · intro hwell
    exact (hwell.perm hperm).forall₂ hfields
  · intro hwell
    exact (hwell.forall₂ hback).perm hperm.symm

theorem validate_iff_wellFormed {dialect : Dialect} {tables : List TableDecl} :
    validate dialect tables = .ok () ↔ WellFormed dialect tables := by
  rw [validate_eq_ok_iff]
  simp only [validateTable_eq_ok_iff, valid_iff_wellFormed]
  constructor
  · intro ⟨hnodup, htables⟩
    exact ⟨hnodup, htables⟩
  · intro h
    exact ⟨h.nodup_names, h.tables⟩

/-- Validation accepts the well-formed schemas, in any order of tables and fields. -/
theorem validate_accepts_iff (dialect : Dialect) (tables : List TableDecl) :
    (validate dialect tables = .ok () ↔ WellFormed dialect tables) ∧
      ∀ others, SchemaReordered tables others →
        (validate dialect tables = .ok () ↔ validate dialect others = .ok ()) := by
  refine ⟨validate_iff_wellFormed, ?_⟩
  intro others h
  rw [validate_iff_wellFormed, validate_iff_wellFormed, h.wellFormed_iff]

/-- Two tables, one with an index that two of its fields share and one with the default name. -/
theorem validate_accepts_iff_users :
    let id : FieldDecl := { name := "id", type := "i64", primaryKey := true }
    let first : FieldDecl := { name := "first", type := "String", index := some { name := "name" } }
    let last : FieldDecl := { name := "last", type := "String", index := some { name := "name" } }
    let users : TableDecl := { name := "users", fields := [id, first, last] }
    let tags : TableDecl := { name := "tags", fields := [{ id with index := some {} }] }
    let users' : TableDecl := { users with fields := [last, id, first] }
    SchemaReordered [users, tags] [tags, users'] ∧
      validate (.spanner {}) [users, tags] = .ok () ∧
      validate (.spanner {}) [tags, users'] = .ok () := by
  intro id first last users tags users'
  have hreordered : SchemaReordered [users, tags] [tags, users'] := by
    refine ⟨[tags, users], .swap _ _ [], .cons ⟨_, .refl _, rfl⟩ (.cons ?_ .nil)⟩
    exact ⟨[last, id, first], by decide, rfl⟩
  have hvalid : validate (.spanner {}) [users, tags] = .ok () :=
    eq_ok_of_toOption (by decide +kernel)
  exact ⟨hreordered, hvalid,
    ((validate_accepts_iff (.spanner {}) [users, tags]).2 _ hreordered).1 hvalid⟩

end SchemaPlan
