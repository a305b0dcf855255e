import Mathlib.Data.List.Nodup
import SchemaPlan.Proofs.Operations
import SchemaPlan.Proofs.Sorting
import SchemaPlan.Proofs.Validation

/-!
# Snapshots of declared tables

The catalog of a database that has just what is declared: every field as a column, and every key and
index through the places of its columns. Read back as live tables it gives the declared keys and
indexes again, in whatever order the catalog lists the columns.

* `find?_snapshot`: the live tables of a snapshot are the declared ones.
* `primaryKey_snapshot`, `indexes_snapshot`: they have the declared keys and indexes.
-/
namespace SchemaPlan

/-- The sizes that a catalog reports of a column beside its type. -/
structure ReportedSize where
  size : Option UInt64 := none
  precision : Option UInt64 := none
  scale : Option UInt64 := none

/-- The place of a column in a key or an index, counted from one. -/
def place (columns : List String) (column : String) : Nat :=
  columns.idxOf column + 1

/-- The places of a column in the key and in the indexes of its table. -/
def TableDecl.memberships (table : TableDecl) (keyName column : String) : List Membership :=
  (if table.primaryKey.contains column then [⟨keyName, place table.primaryKey column, true, true⟩]
    else []) ++
  (table.indexes.values.filter fun index => index.columns.contains column).map fun index =>
    ⟨index.name, place index.columns column, index.unique, false⟩

section
variable (dialect : Dialect) (keyName : String) (sizes : TableDecl → FieldDecl → ReportedSize)

/-- The column that a catalog reports for the field at an index of a table. -/
def columnOfField (table : TableDecl) (i : Nat) (field : FieldDecl) : Column where
  table := table.name
  name := field.columnName
  dataType := dialect.typeOf field
  position := i + 1
  nullable := field.isNullable
  defaultValue := dialect.normalizeDefault field
  primaryKey := field.primaryKey
  autoIncrement := field.autoIncrement
  unique := (soleUniqueColumns table.indexes).contains field.columnName
  size := (sizes table field).size
  precision := (sizes table field).precision
  scale := (sizes table field).scale
  extra := dialect.normalizeExtra field.extra
  comment := dialect.normalizeComment field.comment
  memberships := table.memberships keyName field.columnName

/-- The live table that a declared one becomes. -/
def snapshotTable (table : TableDecl) : LiveTable :=
  ⟨table.name, table.fields.mapIdx (columnOfField dialect keyName sizes table)⟩

/-- The catalog of a database that has the declared tables. -/
def snapshot (tables : List TableDecl) : List Column :=
  tables.flatMap fun table => (snapshotTable dialect keyName sizes table).columns

end

/-! ## Sorting by place -/

theorem sort_places {columns names : List String} (hcolumns : columns.Nodup)
    (hnames : names.Nodup) (hsub : columns ⊆ names) :
    (((names.filter fun name => columns.contains name).map fun name =>
      (place columns name, name)).mergeSort keyPartBefore).map Prod.snd = columns := by
  have hperm : (names.filter fun name => columns.contains name).Perm columns := by
    refine (List.perm_ext_iff_of_nodup (hnames.filter _) hcolumns).2 fun name => ?_
    rw [List.mem_filter, List.contains_iff_mem]
    exact ⟨fun h => h.2, fun h => ⟨hsub h, h⟩⟩
  have hsorted : (columns.map fun name => (place columns name, name)).Pairwise
      fun a b => a.1 < b.1 := by
    rw [List.pairwise_map, List.pairwise_iff_getElem]
    intro i j hi hj hij
    simp only [place, hcolumns.idxOf_getElem]
    omega
  rw [@mergeSort_eq_of_perm _ _ Prod.fst keyPartBefore_trans keyPartBefore_total
    fst_le_of_keyPartBefore _ _ (hperm.map _) hsorted, List.map_map]
  exact List.map_id _

/-! ## The live tables of a snapshot -/

section
variable {dialect : Dialect} {keyName : String} {sizes : TableDecl → FieldDecl → ReportedSize}
  {table : TableDecl}

theorem map_name_snapshotTable :
    (snapshotTable dialect keyName sizes table).columns.map (·.name) = table.columnNames := by
  refine List.ext_getElem (by simp [snapshotTable, TableDecl.columnNames]) fun i _ _ => ?_
  simp [snapshotTable, TableDecl.columnNames, columnOfField]

theorem table_of_mem_snapshotTable (table : TableDecl) :
    ∀ column ∈ (snapshotTable dialect keyName sizes table).columns, column.table = table.name := by
  intro column hcolumn
  obtain ⟨i, hi, rfl⟩ := List.mem_mapIdx.1 hcolumn
  rfl

/-- The columns of a snapshot are in the order of their positions. -/
theorem position_snapshotTable (table : TableDecl) :
    (snapshotTable dialect keyName sizes table).columns.Pairwise
      fun a b => a.position < b.position := by
  rw [List.pairwise_iff_getElem]
  intro i j hi hj hij
  simpa [snapshotTable, columnOfField] using hij

variable {tables : List TableDecl} {columns : List Column}

theorem find?_snapshot_undeclared (hperm : columns.Perm (snapshot dialect keyName sizes tables))
    {name : String} (hname : name ∉ tables.map (·.name)) :
    (liveTables columns).find? name = none := by
  have hnone : columns.filter (fun column => column.table = name) = [] := by
    refine List.Perm.eq_nil ((hperm.filter _).trans ?_)
    rw [snapshot, filter_flatMap_eq_nil table_of_mem_snapshotTable hname]
  rw [find?_liveTables, hnone]
  rfl

/-- The live tables of a snapshot are the declared ones, in whatever order the columns come. -/
theorem find?_snapshot (hperm : columns.Perm (snapshot dialect keyName sizes tables))
    (hnames : (tables.map (·.name)).Nodup) (htable : table ∈ tables) (hfields : table.fields ≠ []) :
    (liveTables columns).find? table.name = some (snapshotTable dialect keyName sizes table) := by
  have hfound : (columns.filter fun column => column.table = table.name).Perm
      (snapshotTable dialect keyName sizes table).columns := by
    have hself := filter_flatMap_eq
      (@table_of_mem_snapshotTable dialect keyName sizes) hnames htable
    exact hself ▸ hperm.filter _
  have hne : (columns.filter fun column => column.table = table.name).isEmpty = false := by
    rw [hfound.isEmpty_eq]
    simpa [snapshotTable] using hfields
  rw [find?_liveTables]
  dsimp only
  rw [hne, if_neg Bool.false_ne_true, mergeSort_eq_of_perm _ _ _ hfound
    (position_snapshotTable table)]
  · rfl
  · intro a b c hab hbc
    simp only [decide_eq_true_eq] at hab hbc ⊢
    omega
  · intro a b
    simp only [Bool.or_eq_true, decide_eq_true_eq]
    omega
  · intro a b hab
    simpa using hab


/-! ## Their keys and indexes -/

theorem filter_primary (table : TableDecl) (keyName column : String) :
    (table.memberships keyName column).filter (·.primary) =
      if table.primaryKey.contains column then
        [⟨keyName, place table.primaryKey column, true, true⟩] else [] := by
  have hindexes : ∀ indexes : List Index, (indexes.map fun index => Membership.mk index.name
      (place index.columns column) index.unique false).filter (·.primary) = [] := by
    simp
  rw [TableDecl.memberships, List.filter_append, hindexes, List.append_nil]
  split <;> rfl

theorem filter_secondary (table : TableDecl) (keyName column : String) :
    (table.memberships keyName column).filter (fun m => !m.primary) =
      (table.indexes.values.filter fun index => index.columns.contains column).map fun index =>
        ⟨index.name, place index.columns column, index.unique, false⟩ := by
  have hindexes : ∀ indexes : List Index, (indexes.map fun index => Membership.mk index.name
      (place index.columns column) index.unique false).filter (fun m => !m.primary) =
      indexes.map fun index => ⟨index.name, place index.columns column, index.unique, false⟩ := by
    intro indexes
    exact List.filter_eq_self.2 (by simp)
  rw [TableDecl.memberships, List.filter_append, hindexes]
  split <;> rfl

/-- What is read off the columns of a snapshot is read off their declared names. -/
theorem flatMap_snapshotTable {β : Type} (parts : List Membership → String → List β) :
    ((snapshotTable dialect keyName sizes table).columns.flatMap fun column =>
      parts column.memberships column.name) =
    table.columnNames.flatMap fun name => parts (table.memberships keyName name) name := by
  rw [← @map_name_snapshotTable dialect keyName sizes, List.flatMap_map]
  refine List.flatMap_congr fun column hcolumn => ?_
  obtain ⟨i, hi, rfl⟩ := List.mem_mapIdx.1 hcolumn
  rfl

theorem primaryKey_snapshot (hnodup : table.columnNames.Nodup) :
    (snapshotTable dialect keyName sizes table).primaryKey = table.primaryKey := by
  have hsub : table.primaryKey.Sublist table.columnNames := List.filter_sublist.map _
  have hparts : ∀ name, (((table.memberships keyName name).filter (·.primary)).map fun m =>
      (m.position, name)) = if table.primaryKey.contains name then
        [(place table.primaryKey name, name)] else [] := by
    intro name
    rw [filter_primary]
    split <;> rfl
  rw [LiveTable.primaryKey, flatMap_snapshotTable fun memberships name =>
    (memberships.filter (·.primary)).map fun m => (m.position, name)]
  simp only [hparts]
  rw [flatMap_if, sort_places (hnodup.sublist hsub) hnodup hsub.subset]

/-- The places of a column in the indexes of one name. -/
def indexPlaces (column : String) (index : Index) : Bool × Nat × String :=
  (index.unique, place index.columns column, column)

theorem places_under (table : TableDecl) (keyName name column : String) :
    ((((table.memberships keyName column).filter fun m => !m.primary).map fun m =>
      (m.name, (m.unique, m.position, column))).filter fun x => x.1 = name).map Prod.snd =
    ((table.indexes.find? name).toList.filter fun index => index.columns.contains column).map
      (indexPlaces column) := by
  rw [filter_secondary, List.map_map, List.filter_map, List.map_map, List.filter_filter,
    ← filter_values (named_indexes table), List.filter_filter]
  exact congrArg _ (List.filter_congr fun index _ => Bool.and_comm _ _)

/-- The places in an index, of all the columns of a table. -/
def placesIn (names : List String) (index : Index) : List (Bool × Nat × String) :=
  (names.filter fun column => index.columns.contains column).map fun column =>
    indexPlaces column index

theorem isEmpty_placesIn {names : List String} {name : String} {index : Index}
    (h : index.Covers names name) : (placesIn names index).isEmpty = false := by
  obtain ⟨column, hcolumn⟩ := List.exists_mem_of_ne_nil _ h.columns_ne_nil
  have hmem : column ∈ names.filter fun column => index.columns.contains column :=
    List.mem_filter.2 ⟨h.columns_subset hcolumn, List.contains_iff_mem.2 hcolumn⟩
  rw [List.isEmpty_eq_false_iff]
  exact List.ne_nil_of_mem (List.mem_map_of_mem hmem)

/-- The places of its columns make an index up. -/
theorem index_of_placesIn {names : List String} (hnodup : names.Nodup) {name : String}
    {index : Index} (h : index.Covers names name) :
    { name
      columns := (((placesIn names index).map Prod.snd).mergeSort keyPartBefore).map Prod.snd
      unique := (placesIn names index).head?.any Prod.fst } = index := by
  have hcolumns := sort_places h.nodup_columns hnodup h.columns_subset
  have hunique : (placesIn names index).head?.any Prod.fst = index.unique := by
    obtain ⟨first, rest, hplaces⟩ :=
      List.exists_cons_of_ne_nil (List.isEmpty_eq_false_iff.1 (isEmpty_placesIn h))
    have hmem : first ∈ placesIn names index := hplaces ▸ List.mem_cons_self
    obtain ⟨column, -, rfl⟩ := List.mem_map.1 hmem
    rw [hplaces]
    rfl
  rw [hunique, placesIn, List.map_map]
  obtain ⟨indexName, columns, unique⟩ := index
  obtain rfl : indexName = name := h.name_eq
  exact congrArg (Index.mk indexName · unique) hcolumns

theorem indexes_snapshot (hnodup : table.columnNames.Nodup) :
    (snapshotTable dialect keyName sizes table).indexes = table.indexes := by
  refine NameMap.ext_find? fun name => ?_
  rw [LiveTable.indexes, NameMap.find?_mapValues, NameMap.find?_group,
    flatMap_snapshotTable fun memberships column => (memberships.filter fun m => !m.primary).map
      fun m => (m.name, (m.unique, m.position, column))]
  rw [List.filter_flatMap, List.map_flatMap]
  simp only [places_under]
  cases hindex : table.indexes.find? name with
  | none => simp
  | some index =>
    have hcovers := declared_index hindex
    have hsingle : ∀ column, ([index].filter fun index => index.columns.contains column).map
        (indexPlaces column) =
        if index.columns.contains column then [indexPlaces column index] else [] := by
      intro column
      rw [List.filter_cons]
      split <;> rfl
    simp only [Option.toList_some, hsingle]
    rw [flatMap_if, ← placesIn, isEmpty_placesIn hcovers, if_neg Bool.false_ne_true,
      Option.map_some, index_of_placesIn hnodup hcovers]

theorem column?_snapshot (hnodup : table.columnNames.Nodup) {field : FieldDecl}
    (hfield : field ∈ table.fields) :
    ∃ i, (snapshotTable dialect keyName sizes table).column? field.columnName =
      some (columnOfField dialect keyName sizes table i field) := by
  cases hcolumn : (snapshotTable dialect keyName sizes table).column? field.columnName with
  | none =>
    rw [column?_eq_none, map_name_snapshotTable] at hcolumn
    exact absurd (List.mem_map_of_mem hfield) hcolumn
  | some column =>
    obtain ⟨hmem, hname⟩ := column?_eq_some hcolumn
    obtain ⟨i, hi, rfl⟩ := List.mem_mapIdx.1 hmem
    obtain rfl := eq_of_columnName_eq hnodup (List.getElem_mem hi) hfield hname
    exact ⟨i, rfl⟩

end

end SchemaPlan
