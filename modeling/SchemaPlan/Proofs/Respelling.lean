import SchemaPlan.Proofs.Reconciliation
import SchemaPlan.Proofs.UnchangedColumn

/-!
# Spellings of one type

A type has several source spellings, and a plan does not show which of them a field uses. The check
of a live column looks at the spelling itself and at every entry that has it, so this is no matter
of the resolved type alone. A column whose attributes agree with the field has the type of the field
as its stored type, up to the normal form, and that type holds all spellings that lead to it.

* `MySql.equivalent_congr`: which stored types hold either spelling of a type.
* `Dialect.columnChanged_respelled`: every column differs from both spellings, or from none.
* `Dialect.plan_alike`: plans for tables whose fields are planned alike are the same.
* `Dialect.plan_respelled`: a field may spell its type in any way.
-/
namespace SchemaPlan

open Text Ddl

/-! ## Stored types and the spellings of one entry -/

/-- Whether a stored type may hold a spelling is seen from its normal form. -/
theorem Registry.equivalent_normalize (registry : Registry) (spelling ddl : String) :
    registry.equivalent spelling (normalize ddl) = registry.equivalent spelling ddl := by
  rw [equivalent, Ddl.normalize, String.toList_ofList, equivalentCompact_normalize, equivalent]

namespace MySql

/-- A column type has the normal form of a type text, or it is an integer type. -/
theorem normalizeColumnType_cases (ddl : String) :
    normalizeColumnType ddl = normalize ddl ∨
      ∃ name ∈ integerTypes, ∃ rest, (normalizeColumnType ddl).toList = name.toList ++ rest := by
  unfold normalizeColumnType
  dsimp only
  split
  · exact .inr ⟨"TINYINT", by decide, "(1)".toList, by decide +kernel⟩
  · split
    · rename_i hinteger
      refine .inr ?_
      rw [String.toList_ofList]
      split
      · exact ⟨"INT", by decide, _, rfl⟩
      · exact ⟨_, List.contains_iff_mem.1 hinteger, _, by rw [String.toList_ofList]⟩
    · exact .inl rfl

def momentTypes : List String := ["DATETIME", "TIMESTAMP"]

/-- Unless they are of a moment, the spellings of an entry are all held by another one, or none of
them is. -/
theorem accepts_all_or_none {entry holder : TypeEntry} (hentry : entry ∈ builtinTypes)
    (hmoment : entry.ddlType ∉ momentTypes) (hholder : holder ∈ builtinTypes) :
    ∃ held, ∀ spelling, entry.accepts spelling = true → holder.accepts spelling = held := by
  have hall : ∀ entry ∈ builtinTypes, entry.ddlType ∉ momentTypes → ∀ holder ∈ builtinTypes,
      ∃ held, ∀ spelling ∈ entry.spellings ++ entry.nullableSpellings,
        holder.accepts spelling = held := by
    decide +kernel
  obtain ⟨held, hheld⟩ := hall entry hentry hmoment holder hholder
  refine ⟨held, fun spelling haccepts => hheld spelling ?_⟩
  simpa [TypeEntry.accepts] using haccepts

theorem eq_of_ddlType_eq {entry other : TypeEntry} (hentry : entry ∈ builtinTypes)
    (hother : other ∈ builtinTypes) (h : entry.ddlType = other.ddlType) : entry = other :=
  List.inj_on_of_nodup_map (f := TypeEntry.ddlType) (by decide +kernel) hentry hother h

theorem sizedType_moment {ddl : String} (h : ddl ∈ momentTypes) (field : FieldDecl) :
    ∃ rest, (sizedType ddl field).toList = ddl.toList ++ rest := by
  have hbase : baseType ddl ≠ "VARCHAR" ∧ baseType ddl ≠ "VARBINARY" ∧
      baseType ddl ≠ "DECIMAL" := by
    revert ddl
    decide +kernel
  have hself : ∃ rest, ddl.toList = ddl.toList ++ rest := ⟨[], (List.append_nil _).symm⟩
  unfold sizedType
  dsimp only
  rw [if_neg hbase.1, if_neg hbase.2.1, if_neg hbase.2.2]
  split
  · cases field.precision with
    | none => exact hself
    | some precision =>
      dsimp only
      split
      · exact ⟨_, toList_withArgument ddl precision⟩
      · exact hself
  · exact hself

theorem moment_ne_integer {ddl name : String} (hddl : ddl ∈ momentTypes)
    (hname : name ∈ integerTypes) (rest rest' : List Char) :
    ddl.toList ++ rest ≠ name.toList ++ rest' := by
  intro heq
  have htake := congrArg (List.take 3) heq
  have hall : ∀ ddl ∈ momentTypes, ∀ name ∈ integerTypes, 3 ≤ ddl.length ∧ 3 ≤ name.length ∧
      ddl.toList.take 3 ≠ name.toList.take 3 := by
    decide +kernel
  obtain ⟨hlong, hlong', hne⟩ := hall ddl hddl name hname
  rw [List.take_append_of_le_length hlong, List.take_append_of_le_length hlong'] at htake
  exact hne htake

variable {dialect : MySql}

/-- There are no lists, so a stored type is compared with each entry. -/
theorem equivalent_eq (spelling stored : String) :
    dialect.types.equivalent spelling stored = dialect.types.entries.any fun entry =>
      (entry.ddlType.toList = normalizeChars stored.toList ||
        baseTypeChars entry.ddlType.toList = baseTypeChars (normalizeChars stored.toList)) &&
      entry.accepts (String.ofList (withoutBlanks spelling.toList)) := by
  rw [Registry.equivalent, Registry.equivalentCompact]
  rfl

/-- Spellings of one type are held alike by every stored type that a change of attributes does not
tell from the type of the field. -/
theorem equivalent_congr (hbuiltin : dialect.registered = []) {field other : FieldDecl}
    {ddl : String} (hddl : field.ddlType = none) (hddl' : other.ddlType = none)
    (hresolve : dialect.types.resolve? field.type field.isNullable = some (.canonical ddl))
    (hresolve' : dialect.types.resolve? other.type other.isNullable = some (.canonical ddl))
    (hsame : dialect.typeOf field = dialect.typeOf other) {stored : String}
    (hstored : normalizeColumnType stored = dialect.typeOf field ∨
      normalize stored = dialect.typeOf field) :
    dialect.types.equivalent field.type stored = dialect.types.equivalent other.type stored := by
  by_cases hmoment : ddl ∈ momentTypes
  case pos =>
    have htype : dialect.typeOf field = sizedType ddl field := by rw [typeOf, hddl, hresolve]
    have hnormal : normalize stored = dialect.typeOf field := by
      rcases hstored with hstored | hstored
      · rcases normalizeColumnType_cases stored with hcases | ⟨name, hname, rest, hrest⟩
        · rw [← hcases, hstored]
        · obtain ⟨rest', hmoment'⟩ := sizedType_moment hmoment field
          rw [hstored, htype, hmoment'] at hrest
          exact absurd hrest (moment_ne_integer hmoment hname rest' rest)
      · exact hstored
    rw [← Registry.equivalent_normalize, ← Registry.equivalent_normalize _ other.type, hnormal,
      equivalent_typeOf hbuiltin hddl hresolve, hsame, equivalent_typeOf hbuiltin hddl' hresolve']
  case neg =>
    obtain ⟨entry, hentry, haccepts, rfl⟩ := canonical_entry hresolve
    obtain ⟨entry', hentry', haccepts', hsame'⟩ := canonical_entry hresolve'
    have hentries : dialect.types.entries = builtinTypes := Registry.entries_eq_builtins hbuiltin
    rw [hentries] at hentry hentry'
    obtain rfl := eq_of_ddlType_eq hentry hentry' hsame'
    rw [equivalent_eq, equivalent_eq, hentries, Bool.eq_iff_iff, List.any_eq_true,
      List.any_eq_true]
    refine exists_congr fun holder => and_congr_right fun hholder => ?_
    obtain ⟨held, hheld⟩ := accepts_all_or_none hentry hmoment hholder
    rw [hheld _ haccepts, hheld _ haccepts']

end MySql

namespace Dialect

variable {dialect : Dialect}

/-! ## Fields with another spelling -/

/-- A field that differs from another in the spelling of its type, and in no way in which the
dialect reads the type. -/
structure Respelled (dialect : Dialect) (field other : FieldDecl) : Prop where
  same : other = { field with type := other.type }
  implicit : field.ddlType = none
  nullable : field.isNullable = other.isNullable
  resolved : ∃ ddl, dialect.types.resolve? field.type field.isNullable = some (.canonical ddl) ∧
    dialect.types.resolve? other.type other.isNullable = some (.canonical ddl)

variable {field other : FieldDecl}

theorem Respelled.implicit_other (h : dialect.Respelled field other) : other.ddlType = none := by
  rw [h.same]
  exact h.implicit

theorem typeOf_respelled (h : dialect.Respelled field other) :
    dialect.typeOf field = dialect.typeOf other := by
  obtain ⟨ddl, hfield, hother⟩ := h.resolved
  cases dialect with
  | mysql d =>
    have hfield : d.types.resolve? field.type field.isNullable = some (.canonical ddl) := hfield
    have hother : d.types.resolve? other.type other.isNullable = some (.canonical ddl) := hother
    have hsized : MySql.sizedType ddl field = MySql.sizedType ddl other := by rw [h.same]; rfl
    show d.typeOf field = d.typeOf other
    rw [MySql.typeOf, MySql.typeOf, h.implicit, h.implicit_other, hfield, hother]
    exact hsized
  | spanner d =>
    have hfield : d.types.resolve? field.type field.isNullable = some (.canonical ddl) := hfield
    have hother : d.types.resolve? other.type other.isNullable = some (.canonical ddl) := hother
    have hsize : field.size = other.size := by rw [h.same]
    show d.typeOf field = d.typeOf other
    rw [Spanner.typeOf, Spanner.typeOf, h.implicit, h.implicit_other, hfield, hother, hsize]

theorem normalizeDefault_respelled (h : dialect.Respelled field other) :
    dialect.normalizeDefault field = dialect.normalizeDefault other := by
  have htype := typeOf_respelled h
  have hvalue : field.defaultValue = other.defaultValue := by rw [h.same]
  cases dialect with
  | mysql d =>
    have htype : d.typeOf field = d.typeOf other := htype
    show d.normalizeDefault field = d.normalizeDefault other
    rw [MySql.normalizeDefault, MySql.normalizeDefault, htype, hvalue]
  | spanner d => rfl

theorem attributes_respelled (h : dialect.Respelled field other) :
    dialect.attributes field = dialect.attributes other := by
  simp only [attributes, typeOf_respelled h, h.nullable, normalizeDefault_respelled h]
  rw [h.same]

/-- A column that has the attributes of a field has its type, up to the normal form. -/
theorem stored_cases (hbuiltin : dialect.types.registered = []) {column : Column}
    (h : (dialect.attributes field).ddlType =
      (dialect.attributes (dialect.fieldOfColumn column)).ddlType) :
    dialect.normalizeType column.dataType = dialect.typeOf field ∨
      normalize column.dataType = dialect.typeOf field := by
  have hnormal := normalize_typeOf (made_of_builtin hbuiltin)
  simp only [attributes, hnormal] at h
  rw [h, fieldOfColumn_eq]
  split
  · rename_i hread
    exact .inr (hread.symm.trans (hnormal _))
  · exact .inl (typeOf_of_ddlType rfl).symm

theorem columnChanged_respelled (hbuiltin : dialect.types.registered = [])
    (h : dialect.Respelled field other) (unique : Bool) (column : Column) :
    dialect.columnChanged field unique column = dialect.columnChanged other unique column := by
  have hattributes := attributes_respelled h
  obtain ⟨ddl, hfield, hother⟩ := h.resolved
  unfold columnChanged mismatched
  dsimp only
  rw [hattributes, h.implicit, h.implicit_other, hfield, hother]
  -- a difference in the attributes decides, and without one both spellings are held alike
  by_cases hsame : { dialect.attributes other with unique } =
      { dialect.attributes (dialect.fieldOfColumn column) with unique := column.unique }
  case neg => simp [bne_iff_ne.2 hsame]
  case pos =>
    have htypes : (dialect.attributes field).ddlType =
        (dialect.attributes (dialect.fieldOfColumn column)).ddlType := by
      rw [hattributes]
      have htype := congrArg Attributes.ddlType hsame
      exact htype
    have hstored := stored_cases hbuiltin htypes
    have hequivalent : dialect.types.equivalent field.type column.dataType =
        dialect.types.equivalent other.type column.dataType := by
      cases dialect with
      | mysql d =>
        exact MySql.equivalent_congr hbuiltin h.implicit h.implicit_other hfield hother
          (typeOf_respelled h) hstored
      | spanner d =>
        have hnormal : normalize column.dataType = d.typeOf field := hstored.elim id id
        have htype : d.typeOf field = d.typeOf other := typeOf_respelled h
        show d.types.equivalent field.type column.dataType =
          d.types.equivalent other.type column.dataType
        rw [← Registry.equivalent_normalize, ← Registry.equivalent_normalize _ other.type, hnormal,
          Spanner.equivalent_typeOf hbuiltin h.implicit hfield, htype,
          Spanner.equivalent_typeOf hbuiltin h.implicit_other hother]
    rw [hequivalent]

/-! ## Fields and tables that are planned alike -/

/-- Fields that differ in the spelling of their types alone, with the same faults, the same
definition and the same differences from live columns. -/
structure Alike (dialect : Dialect) (field other : FieldDecl) : Prop where
  same : other = { field with type := other.type }
  nullable : field.isNullable = other.isNullable
  type : dialect.typeOf field = dialect.typeOf other
  definition : dialect.columnDefinition field = dialect.columnDefinition other
  fault : ∀ table before,
    fieldFault dialect table before field = fieldFault dialect table before other
  changed : ∀ unique column,
    dialect.columnChanged field unique column = dialect.columnChanged other unique column

theorem Alike.refl (field : FieldDecl) : dialect.Alike field field :=
  ⟨rfl, rfl, rfl, rfl, fun _ _ => rfl, fun _ _ => rfl⟩

theorem Alike.columnName (h : dialect.Alike field other) :
    field.columnName = other.columnName := by
  rw [h.same]
  rfl

theorem columnDefinition_respelled (hbuiltin : dialect.types.registered = [])
    (h : dialect.Respelled field other) :
    dialect.columnDefinition field = dialect.columnDefinition other := by
  have hname : field.columnName = other.columnName := by rw [h.same]; rfl
  exact columnDefinition_eq (u := true) (v := true) (made_of_builtin hbuiltin) hname
    (by rw [attributes_respelled h])

theorem fieldFault_respelled (h : dialect.Respelled field other) (table : String)
    (before : List String) :
    fieldFault dialect table before field = fieldFault dialect table before other := by
  have hlimits : dialect.validateField table field = dialect.validateField table other := by
    cases dialect with
    | mysql d => rfl
    | spanner d =>
      rw [h.same]
      rfl
  obtain ⟨ddl, hfield, hother⟩ := h.resolved
  have hresolve : (dialect.types.resolve? field.type field.isNullable).isNone = false := by
    rw [hfield]; rfl
  have hresolve' : (dialect.types.resolve? other.type other.isNullable).isNone = false := by
    rw [hother]; rfl
  unfold fieldFault
  dsimp only
  rw [hresolve, hresolve', hlimits, Bool.and_false, Bool.and_false]
  rw [h.same]
  rfl

theorem Respelled.alike (hbuiltin : dialect.types.registered = [])
    (h : dialect.Respelled field other) : dialect.Alike field other :=
  ⟨h.same, h.nullable, typeOf_respelled h, columnDefinition_respelled hbuiltin h,
    fieldFault_respelled h, columnChanged_respelled hbuiltin h⟩

structure TablesAlike (dialect : Dialect) (table other : TableDecl) : Prop where
  same : other = { table with fields := other.fields }
  fields : List.Forall₂ dialect.Alike table.fields other.fields

theorem TablesAlike.refl (table : TableDecl) : dialect.TablesAlike table table :=
  ⟨rfl, List.forall₂_same.2 fun field _ => Alike.refl field⟩

/-- What is the same for fields that are planned alike is the same for lists of them. -/
theorem map_alike {α : Type} {f : FieldDecl → α}
    (hf : ∀ field other, dialect.Alike field other → f field = f other)
    {fields others : List FieldDecl} (h : List.Forall₂ dialect.Alike fields others) :
    fields.map f = others.map f :=
  map_eq_of_forall₂ (h.imp hf)

theorem filter_alike {p : FieldDecl → Bool}
    (hp : ∀ field other, dialect.Alike field other → p field = p other)
    {fields others : List FieldDecl} (h : List.Forall₂ dialect.Alike fields others) :
    List.Forall₂ dialect.Alike (fields.filter p) (others.filter p) :=
  List.rel_filter (fun _ _ hfield => iff_of_eq (congrArg (· = true) (hp _ _ hfield))) h

section
variable {table other : TableDecl}

theorem TablesAlike.name (h : dialect.TablesAlike table other) : table.name = other.name := by
  rw [h.same]

theorem TablesAlike.columnNames (h : dialect.TablesAlike table other) :
    table.columnNames = other.columnNames :=
  map_alike (fun _ _ hfield => hfield.columnName) h.fields

theorem TablesAlike.primaryKey (h : dialect.TablesAlike table other) :
    table.primaryKey = other.primaryKey :=
  map_alike (fun _ _ hfield => hfield.columnName)
    (filter_alike (fun _ _ hfield => by rw [hfield.same]) h.fields)

theorem TablesAlike.indexUses (h : dialect.TablesAlike table other) :
    table.indexUses = other.indexUses := by
  have huses (field other : FieldDecl) (hfield : dialect.Alike field other) (name : String) :
      field.indexUses name = other.indexUses name := by
    rw [hfield.same]
    rfl
  rw [TableDecl.indexUses, TableDecl.indexUses, List.flatMap_def, List.flatMap_def,
    map_alike (fun field other hfield => huses field other hfield table.name) h.fields, h.name]

theorem TablesAlike.indexes (h : dialect.TablesAlike table other) :
    table.indexes = other.indexes := by
  rw [TableDecl.indexes, TableDecl.indexes, h.indexUses]

/-! ## Their faults -/

theorem validateFields_alike (name : String) {fields others : List FieldDecl}
    (h : List.Forall₂ dialect.Alike fields others) (before : List String) :
    validateFields dialect name before fields = validateFields dialect name before others := by
  induction h generalizing before with
  | nil => rfl
  | cons hfield _ ih => rw [validateFields, validateFields, hfield.fault, hfield.columnName, ih]

theorem validateTable_alike (h : dialect.TablesAlike table other) :
    SchemaPlan.validateTable dialect table = SchemaPlan.validateTable dialect other := by
  have hempty : table.fields.isEmpty = other.fields.isEmpty := by
    rw [Bool.eq_iff_iff, List.isEmpty_iff_length_eq_zero, List.isEmpty_iff_length_eq_zero,
      h.fields.length_eq]
  have hlimits : dialect.validateTable table = dialect.validateTable other := by
    cases dialect with
    | mysql d => rfl
    | spanner d =>
      show Spanner.validateTable table = Spanner.validateTable other
      rw [Spanner.validateTable, Spanner.validateTable, h.primaryKey, h.name]
  unfold SchemaPlan.validateTable
  rw [hempty, validateFields_alike table.name h.fields, h.indexUses, hlimits, h.name]

theorem validate_alike {tables others : List TableDecl}
    (h : List.Forall₂ dialect.TablesAlike tables others) :
    validate dialect tables = validate dialect others := by
  have hall : ∀ before, validateTables dialect before tables =
      validateTables dialect before others := by
    induction h with
    | nil => exact fun _ => rfl
    | cons htable _ ih =>
      intro before
      rw [validateTables, validateTables, validateTable_alike htable, htable.name, ih]
  exact hall []

/-! ## Their operations -/

theorem statements_alike {operations others : List Operation}
    (h : List.Forall₂ (fun op other => dialect.statementsOf op = dialect.statementsOf other)
      operations others) : dialect.statements operations = dialect.statements others := by
  rw [statements, statements, mapM_congr h]

theorem statementsOf_createTable (h : dialect.TablesAlike table other) (indexes : List Index) :
    dialect.statementsOf (.createTable table indexes) =
      dialect.statementsOf (.createTable other indexes) := by
  have hoption : table.option = other.option := by rw [h.same]
  have hdefinitions : table.fields.map dialect.columnDefinition =
      other.fields.map dialect.columnDefinition :=
    map_alike (fun _ _ hfield => hfield.definition) h.fields
  cases dialect with
  | mysql d =>
    have hdefinitions : table.fields.map d.columnDefinition =
      other.fields.map d.columnDefinition := hdefinitions
    have hcreate : d.createTable table indexes = d.createTable other indexes := by
      unfold MySql.createTable
      rw [hdefinitions, h.primaryKey, h.name, hoption]
    simp only [statementsOf, render, Operation.table, hcreate, h.name]
  | spanner d =>
    have hdefinitions : table.fields.map d.columnDefinition =
      other.fields.map d.columnDefinition := hdefinitions
    have hcreate : d.createTable table indexes = d.createTable other indexes := by
      unfold Spanner.createTable
      rw [hdefinitions, h.primaryKey, h.name, hoption]
    simp only [statementsOf, render, Operation.table, hcreate, h.name]

theorem statementsOf_changeKey {added added' : List FieldDecl}
    (h : List.Forall₂ dialect.Alike added added') (name : String) (old new : List String) :
    dialect.statementsOf (.changeKey name old new added) =
      dialect.statementsOf (.changeKey name old new added') := by
  have hdefinitions : (added.map fun field => "ADD " ++ dialect.columnDefinition field) =
      added'.map fun field => "ADD " ++ dialect.columnDefinition field :=
    map_alike (fun _ _ hfield => by rw [hfield.definition]) h
  cases dialect with
  | mysql d =>
    have hdefinitions : (added.map fun field => "ADD " ++ d.columnDefinition field) =
      added'.map fun field => "ADD " ++ d.columnDefinition field := hdefinitions
    simp only [statementsOf, render, Operation.table, MySql.changePrimaryKey, hdefinitions]
  | spanner d => rfl

end

theorem statementsOf_addColumn (h : dialect.Alike field other) (name : String) :
    dialect.statementsOf (.addColumn name field) =
      dialect.statementsOf (.addColumn name other) := by
  have hdefinition := h.definition
  cases dialect with
  | mysql d =>
    have hdefinition : d.columnDefinition field = d.columnDefinition other := hdefinition
    simp only [statementsOf, render, Operation.table, MySql.addColumn, hdefinition]
  | spanner d =>
    have hdefinition : d.columnDefinition field = d.columnDefinition other := hdefinition
    simp only [statementsOf, render, Operation.table, Spanner.addColumn, hdefinition, h.nullable,
      h.columnName]

theorem statementsOf_alterColumn (h : dialect.Alike field other) (name : String)
    (old : FieldDecl) :
    dialect.statementsOf (.alterColumn name old field) =
      dialect.statementsOf (.alterColumn name old other) := by
  have hdefinition := h.definition
  have htype := h.type
  have hextra : field.extra = other.extra := by rw [h.same]
  cases dialect with
  | mysql d =>
    have hdefinition : d.columnDefinition field = d.columnDefinition other := hdefinition
    simp only [statementsOf, render, Operation.table, MySql.modifyColumn, hdefinition]
  | spanner d =>
    have htype : d.typeOf field = d.typeOf other := htype
    simp only [statementsOf, render, Operation.table, Spanner.alterColumn, htype, hextra,
      h.nullable, h.columnName]

section
variable {table other : TableDecl}

/-- Two lists of operations with the same statements, one by one. -/
def SameStatements (dialect : Dialect) : List Operation → List Operation → Prop :=
  List.Forall₂ fun op op' => dialect.statementsOf op = dialect.statementsOf op'

theorem SameStatements.refl (operations : List Operation) :
    dialect.SameStatements operations operations :=
  List.forall₂_same.2 fun _ _ => rfl

theorem SameStatements.append {a b c d : List Operation} (h : dialect.SameStatements a b)
    (h' : dialect.SameStatements c d) : dialect.SameStatements (a ++ c) (b ++ d) :=
  List.rel_append h h'

/-- The key of a table changes alike, and the change adds the same columns. -/
theorem keyOperations_alike (h : dialect.TablesAlike table other) (live : LiveTable) :
    dialect.SameStatements (keyOperations table live) (keyOperations other live) ∧
      addedByKey (keyOperations table live) = addedByKey (keyOperations other live) := by
  unfold keyOperations
  rw [h.primaryKey, h.name]
  split
  · exact ⟨.nil, rfl⟩
  · have hadded := filter_alike (p := fun field =>
      other.primaryKey.contains field.columnName && (live.column? field.columnName).isNone)
      (fun _ _ hfield => by rw [hfield.columnName]) h.fields
    refine ⟨.cons (statementsOf_changeKey hadded _ _ _) .nil, ?_⟩
    simp only [addedByKey, List.flatMap_singleton]
    exact map_alike (fun _ _ hfield => hfield.columnName) hadded

theorem tableOperations_alike (h : dialect.TablesAlike table other) (live : LiveTable) :
    dialect.SameStatements (dialect.tableOperations table live)
      (dialect.tableOperations other live) := by
  obtain ⟨hkey, hadded⟩ := keyOperations_alike h live
  unfold tableOperations
  dsimp only
  rw [h.indexes, h.name, h.columnNames, hadded]
  refine ((((hkey.append (.refl _)).append (.refl _)).append ?added).append ?altered).append
    (.refl _)
  case added =>
    rw [SameStatements, List.forall₂_map_left_iff, List.forall₂_map_right_iff]
    refine (filter_alike (fun _ _ hfield => ?_) h.fields).imp fun field field' hfield =>
      statementsOf_addColumn hfield _
    rw [hfield.columnName]
  case altered =>
    refine List.rel_filterMap (fun field field' hfield => ?_) h.fields
    rw [hfield.columnName]
    cases live.column? field'.columnName with
    | none => exact .none
    | some column =>
      simp only [Option.bind_some, hfield.changed]
      split
      · exact .some (statementsOf_alterColumn hfield _ _)
      · exact .none

theorem declaredOperations_alike (h : dialect.TablesAlike table other)
    (live : NameMap LiveTable) :
    dialect.SameStatements (dialect.declaredOperations live table)
      (dialect.declaredOperations live other) := by
  unfold declaredOperations
  rw [h.name, h.indexes]
  split
  · exact .cons (statementsOf_createTable h _) .nil
  · exact tableOperations_alike h _

end

/-- Plans for tables that are planned alike are the same. -/
theorem plan_alike {tables others : List TableDecl}
    (h : List.Forall₂ dialect.TablesAlike tables others) (columns : List Column) :
    dialect.plan tables columns = dialect.plan others columns := by
  have hnames : tables.map (·.name) = others.map (·.name) :=
    map_eq_of_forall₂ (h.imp fun _ _ htable => htable.name)
  have hordered : List.Forall₂ dialect.TablesAlike (inNameOrder tables) (inNameOrder others) :=
    forall₂_mergeSort (fun a b c d hab hcd => by rw [hab.name, hcd.name]) h
  have hoperations : dialect.SameStatements (dialect.operations tables columns)
      (dialect.operations others columns) := by
    rw [operations_eq, operations_eq, undeclaredTables, undeclaredTables, hnames]
    refine SameStatements.append ?_ (.refl _)
    exact List.rel_flatMap hordered fun _ _ htable => declaredOperations_alike htable _
  rw [plan, plan, validate_alike h, planValidated, planValidated, statements_alike hoperations]

/-- A field may spell its type in any way that resolves to the same type of the dialect: the plan
has the same statements, or fails with the same error. -/
theorem plan_respelled (hbuiltin : dialect.types.registered = [])
    (h : dialect.Respelled field other) (table : TableDecl) (before after : List TableDecl)
    (first rest : List FieldDecl) (columns : List Column) :
    dialect.plan (before ++ { table with fields := first ++ field :: rest } :: after) columns =
      dialect.plan (before ++ { table with fields := first ++ other :: rest } :: after)
        columns := by
  have hfields : List.Forall₂ dialect.Alike (first ++ field :: rest) (first ++ other :: rest) :=
    List.rel_append (List.forall₂_same.2 fun field _ => .refl field)
      (.cons (h.alike hbuiltin) (List.forall₂_same.2 fun field _ => .refl field))
  have hsame {tables : List TableDecl} : List.Forall₂ dialect.TablesAlike tables tables :=
    List.forall₂_same.2 fun table _ => .refl table
  exact plan_alike (List.rel_append hsame (.cons ⟨rfl, hfields⟩ hsame)) columns

/-- Two spellings of a moment, one of which the stored type would not hold. -/
theorem plan_respelled_placed :
    let placed : FieldDecl := { name := "placed", type := "DateTime<Utc>" }
    let respelled : FieldDecl := { placed with type := "time :: PrimitiveDateTime" }
    let column : Column :=
      { table := "orders", name := "placed", dataType := "TIMESTAMP", nullable := false }
    let orders (field : FieldDecl) : TableDecl := { name := "orders", fields := [field] }
    (mysql {}).types.equivalent placed.type column.dataType = true ∧
      (mysql {}).types.equivalent respelled.type column.dataType = false ∧
      (mysql {}).plan [orders placed] [column] = (mysql {}).plan [orders respelled] [column] ∧
      (mysql {}).plan [orders placed] [column] =
        .ok [⟨"orders", "ALTER TABLE `orders` MODIFY `placed` DATETIME NOT NULL"⟩] := by
  intro placed respelled column orders
  have hrespelled : (mysql {}).Respelled placed respelled :=
    ⟨rfl, rfl, by decide +kernel, "DATETIME", by decide +kernel, by decide +kernel⟩
  refine ⟨by decide +kernel, by decide +kernel, ?_, eq_ok_of_toOption (by decide +kernel)⟩
  exact plan_respelled rfl hrespelled { name := "orders" } [] [] [] [] [column]

end Dialect

end SchemaPlan
