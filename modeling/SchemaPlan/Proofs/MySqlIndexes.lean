import SchemaPlan.Proofs.IndexPlaces
import SchemaPlan.Proofs.MySqlRows

/-!
# Keys and indexes from MySQL rows

A server tells of a table in one row for each column and one row for each part of its key and of its
indexes. However these rows come, and whatever other tables they are mixed with, the columns that
they describe form the table again, with its key and its indexes.

* `placesOf`: the places of columns in keys and indexes that rows tell of.
* `ReportedTable`: a table as a server has it, and the rows about its key and its indexes.
* `placesOf_parts`: the rows of a table tell of the places in its key and its indexes.
* `indexes_recovered`: the rows of tables are read as columns that form them again.
-/
namespace SchemaPlan.MySql

/-! ## The places that rows tell of -/

/-- The place that a row gives a column. -/
def IndexRow.place (row : IndexRow) (column : String) : Place :=
  ⟨row.table, column, ⟨row.index, row.position, !row.nonUnique, row.index = primaryIndex⟩⟩

/-- The places that rows tell of. A part that is an expression has none. -/
def placesOf (parts : List IndexRow) : List Place :=
  parts.filterMap fun part => part.column.map part.place

theorem map_membershipsOf (parts : List IndexRow) (table column : String) :
    (membershipsOf parts table column).map (Place.mk table column) =
      (placesOf parts).filter fun place => place.table = table && place.column = column := by
  induction parts with
  | nil => rfl
  | cons part rest ih =>
    simp only [membershipsOf, placesOf] at ih ⊢
    obtain ⟨partTable, index, partColumn, position, nonUnique⟩ := part
    cases partColumn with
    | none => simpa using ih
    | some name =>
      by_cases htable : partTable = table <;> by_cases hname : name = column <;>
        simp [htable, hname, ih, IndexRow.place]

theorem mem_membershipsOf {parts : List IndexRow} {table column : String}
    {membership : Membership} :
    membership ∈ membershipsOf parts table column ↔
      Place.mk table column membership ∈ placesOf parts := by
  have hinj : Function.Injective (Place.mk table column) := fun _ _ h => (Place.mk.inj h).2.2
  rw [← List.mem_map_of_injective hinj, map_membershipsOf]
  simp

/-- The places in an index are those that its rows tell of. -/
theorem filter_placesOf (parts : List IndexRow) (table index : String) :
    ((placesOf parts).filter fun place => place.table = table && place.membership.name = index) =
      placesOf (parts.filter fun part => part.table = table && part.index = index) := by
  rw [placesOf, placesOf, List.filter_filterMap, List.filterMap_filter]
  refine List.filterMap_congr fun part _ => ?_
  cases part.column with
  | none => simp
  | some column =>
    by_cases hkept : (part.table = table && part.index = index) = true <;>
      simp_all [Option.filter, IndexRow.place]

theorem hasOneColumn_eq (parts : List IndexRow) (table index : String) :
    hasOneColumn parts table index = hasOnePlace (placesOf parts) table index := by
  have hlength (rows : List IndexRow) :
      (placesOf rows).length = (rows.filter (·.column.isSome)).length := by
    rw [placesOf, List.length_filterMap_eq_countP, List.countP_eq_length_filter]
    simp
  rw [hasOneColumn, hasOnePlace, filter_placesOf, hlength, List.filter_filter]
  simp only [Bool.and_comm]

/-- The places of the columns of a table are those that its rows tell of. -/
theorem flatMap_membershipsOf_perm {parts : List IndexRow} {table : String} {names : List String}
    (hnodup : names.Nodup)
    (hcovered : ∀ place ∈ placesOf parts, place.table = table → place.column ∈ names) :
    (names.flatMap fun name => (membershipsOf parts table name).map (Place.mk table name)).Perm
      ((placesOf parts).filter fun place => place.table = table) := by
  have hfilter (name : String) : (membershipsOf parts table name).map (Place.mk table name) =
      ((placesOf parts).filter fun place => place.table = table).filter fun place =>
        place.column = name := by
    rw [map_membershipsOf, List.filter_filter]
    exact List.filter_congr fun place _ => Bool.and_comm _ _
  simp only [hfilter]
  refine flatMap_filter_perm Place.column hnodup fun place hplace => ?_
  obtain ⟨hplace, htable⟩ := List.mem_filter.1 hplace
  exact hcovered place hplace (of_decide_eq_true htable)

/-! ## Tables of a server -/

/-- The rows about the parts of an index, counted from one. -/
def partsOf (table : String) (index : Index) : List IndexRow :=
  (index.columns.zipIdx 1).map fun (column, position) =>
    ⟨table, index.name, some column, position, !index.unique⟩

/-- A table of a server: the rows about its columns, its key and its indexes. -/
structure ReportedTable where
  name : String
  rows : List ColumnRow
  key : List String
  indexes : NameMap Index
  /-- The rows are about this table, name their columns and say whether these are nullable. -/
  well_formed : ∀ row ∈ rows, row.table = name ∧ row.column.isSome ∧
    (row.isNullable = "YES" ∨ row.isNullable = "NO")
  nodup_columns : (rows.map (·.column)).Nodup
  nodup_positions : (rows.map (·.position)).Nodup
  nodup_key : key.Nodup
  key_subset : key ⊆ rows.filterMap (·.column)
  no_primary : indexes.find? primaryIndex = none
  covers : ∀ name index, indexes.find? name = some index →
    index.Covers (rows.filterMap (·.column)) name

namespace ReportedTable

def columnNames (table : ReportedTable) : List String :=
  table.rows.filterMap (·.column)

/-- The key as an index, and the other indexes. -/
def reported (table : ReportedTable) : List Index :=
  ⟨primaryIndex, table.key, true⟩ :: table.indexes.values

def parts (table : ReportedTable) : List IndexRow :=
  table.reported.flatMap (partsOf table.name)

end ReportedTable

section
variable {table : ReportedTable}

/-- The key and the indexes of a table. -/
def ReportedTable.indexing (table : ReportedTable) : Indexing table.columnNames where
  key := ⟨primaryIndex, table.key, true⟩
  indexes := table.indexes
  nodup_key := table.nodup_key
  key_subset := table.key_subset
  key_apart := table.no_primary
  covers := table.covers

theorem reported_eq (table : ReportedTable) :
    table.reported = table.indexing.all.map Prod.fst := by
  rw [Indexing.all, List.map_cons, List.map_map, ReportedTable.reported]
  exact congrArg _ (List.map_id _).symm

theorem nodup_reported (table : ReportedTable) : (table.reported.map (·.name)).Nodup := by
  rw [reported_eq, List.map_map]
  exact table.indexing.nodup_all

theorem nodup_columnNames (table : ReportedTable) : table.columnNames.Nodup := by
  have hsome : table.columnNames.map some = table.rows.map (·.column) := by
    rw [ReportedTable.columnNames, List.map_filterMap, ← List.filterMap_eq_map]
    refine List.filterMap_congr fun row hrow => ?_
    obtain ⟨name, hname⟩ := Option.isSome_iff_exists.1 (table.well_formed row hrow).2.1
    simp [hname]
  exact List.Nodup.of_map _ (hsome ▸ table.nodup_columns)

/-! ## Their places -/

theorem placesOf_perm {parts others : List IndexRow} (h : parts.Perm others) :
    (placesOf parts).Perm (placesOf others) :=
  h.filterMap _

theorem placesOf_partsOf (name : String) (index : Index) :
    placesOf (partsOf name index) = index.places name (index.name = primaryIndex) := by
  rw [placesOf, partsOf, List.filterMap_map, Index.places, ← List.filterMap_eq_map]
  refine List.filterMap_congr fun entry _ => ?_
  simp [IndexRow.place]

theorem placesOf_flatMap {α : Type} (l : List α) (parts : α → List IndexRow) :
    placesOf (l.flatMap parts) = l.flatMap fun a => placesOf (parts a) :=
  List.filterMap_flatMap

/-- The rows of a table tell of the places in its key and its indexes. -/
theorem placesOf_parts (table : ReportedTable) :
    placesOf table.parts = table.indexing.places table.name := by
  rw [ReportedTable.parts, placesOf_flatMap, reported_eq, List.flatMap_map, Indexing.places]
  refine List.flatMap_congr fun entry hentry => ?_
  have hprimary : decide (entry.1.name = primaryIndex) = entry.2 := by
    rcases Indexing.mem_all.1 hentry with rfl | ⟨hindex, hsecondary⟩
    · exact decide_eq_true rfl
    · rw [hsecondary, decide_eq_false_iff_not]
      intro hname
      have hnone : table.indexing.indexes.find? primaryIndex = none := table.indexing.key_apart
      rw [hname, hnone] at hindex
      cases hindex
  rw [placesOf_partsOf, hprimary]

/-- The places that the rows of all tables tell of one of them are its own. -/
theorem places_of_table {tables : List ReportedTable} {parts : List IndexRow}
    (hnames : (tables.map (·.name)).Nodup) (hparts : parts.Perm (tables.flatMap (·.parts)))
    (htable : table ∈ tables) :
    ((placesOf parts).filter fun place => place.table = table.name).Perm
      (table.indexing.places table.name) := by
  have hown : ∀ table : ReportedTable, ∀ place ∈ placesOf table.parts,
      place.table = table.name := by
    intro table place hplace
    rw [placesOf_parts] at hplace
    exact (Indexing.of_mem_places hplace).1
  have hall := (placesOf_perm hparts).filter fun place => place.table = table.name
  rw [placesOf_flatMap, filter_flatMap_eq hown hnames htable, placesOf_parts] at hall
  exact hall

/-! ## Reading the rows of tables -/

theorem of_mem_rows {part : IndexRow} (h : part ∈ table.parts) :
    part.table = table.name ∧ ∃ index ∈ table.reported, part.index = index.name ∧
      part.nonUnique = !index.unique := by
  obtain ⟨index, hindex, hpart⟩ := List.mem_flatMap.1 h
  obtain ⟨entry, -, rfl⟩ := List.mem_map.1 hpart
  exact ⟨rfl, index, hindex, rfl, rfl⟩

variable {tables : List ReportedTable}

theorem consistent_tables (hnames : (tables.map (·.name)).Nodup) :
    Consistent (tables.flatMap (·.rows)) (tables.flatMap (·.parts)) := by
  constructor
  · rw [List.pairwise_flatMap]
    constructor
    · intro table _
      have hcolumns := List.pairwise_map.1 table.nodup_columns
      have hpositions := List.pairwise_map.1 table.nodup_positions
      exact (hcolumns.and hpositions).imp fun h _ _ _ => h
    · refine (List.pairwise_map.1 hnames).imp fun {table other} hne a ha b hb _ _ heq => ?_
      rw [(table.well_formed a ha).1, (other.well_formed b hb).1] at heq
      exact absurd heq hne
  · -- parts with the same names are parts of one index, since names do not repeat
    intro a ha b hb htable hindex
    obtain ⟨table, hmem, ha⟩ := List.mem_flatMap.1 ha
    obtain ⟨other, hmem', hb⟩ := List.mem_flatMap.1 hb
    obtain ⟨haname, index, hreported, hname, hunique⟩ := of_mem_rows ha
    obtain ⟨hbname, index', hreported', hname', hunique'⟩ := of_mem_rows hb
    obtain rfl : table = other :=
      List.inj_on_of_nodup_map hnames hmem hmem' (haname.symm.trans (htable.trans hbname))
    obtain rfl : index = index' := List.inj_on_of_nodup_map (nodup_reported table) hreported
      hreported' (hname.symm.trans (hindex.trans hname'))
    rw [hunique, hunique']

theorem exists_columnsOfRows (dialect : MySql) {rows : List ColumnRow} {parts : List IndexRow}
    (h : Consistent rows parts)
    (hanswered : ∀ row ∈ rows, row.isNullable = "YES" ∨ row.isNullable = "NO") :
    ∃ columns, columnsOfRows dialect rows parts = .ok columns ∧
      List.Forall₂ (fun entry column => describe dialect.version parts entry = .ok column)
        (named rows) columns := by
  rw [columnsOfRows_eq dialect h]
  cases hread : (named rows).mapM (describe dialect.version parts) with
  | ok columns => exact ⟨columns, rfl, mapM_eq_ok_iff.1 hread⟩
  | error error =>
    obtain ⟨before, entry, after, hentries, -, hentry⟩ := mapM_eq_error_iff.1 hread
    have hmem : entry ∈ named rows := by simp [hentries]
    obtain ⟨row, hrow, hname⟩ := List.mem_filterMap.1 hmem
    obtain ⟨name, -, rfl⟩ := Option.map_eq_some_iff.1 hname
    obtain ⟨nullable, hnullable⟩ : ∃ nullable, readNullability row name = .ok nullable := by
      rcases hanswered row hrow with hyes | hno
      · exact ⟨true, if_pos hyes⟩
      · exact ⟨false, by rw [readNullability, if_neg (by simp [hno]), if_pos hno]⟩
    unfold describe columnOfRow at hentry
    rw [hnullable] at hentry
    cases hentry

def rowNames (rows : List ColumnRow) : List (String × String) :=
  rows.filterMap fun row => row.column.map (Prod.mk row.table)

theorem names_read {version : Version} {rows : List ColumnRow} {parts : List IndexRow}
    {columns : List Column}
    (hread : List.Forall₂ (fun entry column => describe version parts entry = .ok column)
      (named rows) columns) :
    columns.map (fun column => (column.table, column.name)) = rowNames rows := by
  have hnamed : rowNames rows = (named rows).map fun entry => (entry.1.table, entry.2) := by
    simp only [rowNames, named, List.map_filterMap, Option.map_map]
    rfl
  rw [hnamed]
  refine map_eq_of_forall₂ (hread.flip.imp fun column entry hcolumn => ?_)
  obtain ⟨htable, hname, -⟩ := describe_ok hcolumn
  rw [htable, hname]

/-- The columns that are read of one table are its own. -/
theorem columnNames_read {rows : List ColumnRow} {columns : List Column}
    (hnames : (tables.map (·.name)).Nodup) (hrows : rows.Perm (tables.flatMap (·.rows)))
    (hread : columns.map (fun column => (column.table, column.name)) = rowNames rows)
    (htable : table ∈ tables) :
    ((columns.filter fun column => column.table = table.name).map (·.name)).Perm
      table.columnNames := by
  have hown : ∀ table : ReportedTable, ∀ entry ∈ rowNames table.rows, entry.1 = table.name := by
    intro table entry hentry
    obtain ⟨row, hrow, hentry⟩ := List.mem_filterMap.1 hentry
    obtain ⟨name, -, rfl⟩ := Option.map_eq_some_iff.1 hentry
    exact (table.well_formed row hrow).1
  have hall : ((rowNames rows).filter fun entry => entry.1 = table.name).Perm
      (rowNames table.rows) := by
    have hflat := (hrows.filterMap fun row => row.column.map (Prod.mk row.table)).filter
      fun entry => entry.1 = table.name
    rw [List.filterMap_flatMap] at hflat
    exact filter_flatMap_eq hown hnames htable ▸ hflat
  have hleft : (columns.filter fun column => column.table = table.name).map (·.name) =
      ((rowNames rows).filter fun entry => entry.1 = table.name).map Prod.snd := by
    rw [← hread, List.filter_map, List.map_map]
    rfl
  have hright : table.columnNames = (rowNames table.rows).map Prod.snd := by
    simp only [rowNames, List.map_filterMap, Option.map_map, ReportedTable.columnNames]
    exact List.filterMap_congr fun row _ => by simp
  rw [hleft, hright]
  exact hall.map _

/-! ## The tables that are read -/

/-- A live table is a reported one: it has its columns, its key and its indexes, and its columns are
flagged by them. -/
structure Recovered (table : ReportedTable) (live : LiveTable) : Prop where
  columnNames : (live.columns.map (·.name)).Perm table.columnNames
  primaryKey : live.primaryKey = table.key
  indexes : live.indexes = table.indexes
  keyFlags : ∀ column ∈ live.columns, column.primaryKey = true ↔ column.name ∈ table.key
  uniqueFlags : ∀ column ∈ live.columns,
    column.unique = true ↔ column.name ∈ soleUniqueColumns live.indexes

/-- A column of a table as it is read beside the rows about index parts. -/
structure ReadBeside (parts : List IndexRow) (table : String) (column : Column) : Prop where
  table_eq : column.table = table
  memberships : column.memberships = membershipsOf parts table column.name
  primaryKey : column.primaryKey = (membershipsOf parts table column.name).any (·.primary)
  unique : column.unique = (membershipsOf parts table column.name).any fun m =>
    m.unique && !m.primary && hasOneColumn parts table m.name

theorem readBeside_of_describe {version : Version} {parts : List IndexRow}
    {entry : ColumnRow × String} {column : Column}
    (h : describe version parts entry = .ok column) : ReadBeside parts column.table column := by
  unfold describe columnOfRow at h
  cases hnull : readNullability entry.1 entry.2 with
  | error error =>
    rw [hnull] at h
    cases h
  | ok nullable =>
    rw [hnull] at h
    cases h
    exact ⟨rfl, rfl, rfl, rfl⟩

theorem readBeside_of_live {version : Version} {rows : List ColumnRow} {parts : List IndexRow}
    {columns : List Column}
    (hread : List.Forall₂ (fun entry column => describe version parts entry = .ok column)
      (named rows) columns) {name : String} {live : LiveTable}
    (hlive : (liveTables columns).find? name = some live) :
    ∀ column ∈ live.columns, ReadBeside parts name column := by
  intro column hcolumn
  obtain ⟨-, -, hperm⟩ := live_table hlive
  obtain ⟨hmem, htable⟩ := List.mem_filter.1 (hperm.mem_iff.1 hcolumn)
  obtain ⟨entry, -, hentry⟩ := exists_left_of_mem hread hmem
  obtain rfl : column.table = name := of_decide_eq_true htable
  exact readBeside_of_describe hentry

/-- The columns of a live table have the places that the rows about its index parts tell of. -/
theorem places_read {parts : List IndexRow} {live : LiveTable} {name : String}
    (hcolumns : ∀ column ∈ live.columns, ReadBeside parts name column)
    (hnodup : (live.columns.map (·.name)).Nodup)
    (hcovered : ∀ place ∈ placesOf parts, place.table = name →
      place.column ∈ live.columns.map (·.name)) :
    (places live.columns).Perm ((placesOf parts).filter fun place => place.table = name) := by
  have hplaces : places live.columns = (live.columns.map (·.name)).flatMap fun column =>
      (membershipsOf parts name column).map (Place.mk name column) := by
    rw [places, List.flatMap_map]
    refine List.flatMap_congr fun column hcolumn => ?_
    rw [(hcolumns column hcolumn).table_eq, (hcolumns column hcolumn).memberships]
  rw [hplaces]
  exact flatMap_membershipsOf_perm hnodup hcovered

/-- The columns that are read of one table form it again. -/
theorem recovered_of_read {version : Version} {rows : List ColumnRow} {parts : List IndexRow}
    {columns : List Column} (hnames : (tables.map (·.name)).Nodup)
    (hrows : rows.Perm (tables.flatMap (·.rows))) (hparts : parts.Perm (tables.flatMap (·.parts)))
    (hread : List.Forall₂ (fun entry column => describe version parts entry = .ok column)
      (named rows) columns) (htable : table ∈ tables) {live : LiveTable}
    (hlive : (liveTables columns).find? table.name = some live) : Recovered table live := by
  obtain ⟨-, -, hperm⟩ := live_table hlive
  have hcolumns := readBeside_of_live hread hlive
  have hcolumnNames : (live.columns.map (·.name)).Perm table.columnNames :=
    (hperm.map _).trans (columnNames_read hnames hrows (names_read hread) htable)
  have hown := places_of_table hnames hparts htable
  have hplaces : (places live.columns).Perm (table.indexing.places table.name) := by
    refine (places_read hcolumns ?_ ?_).trans hown
    · exact hcolumnNames.nodup_iff.2 (nodup_columnNames table)
    · intro place hplace htable
      have hplace := hown.mem_iff.1 (List.mem_filter.2 ⟨hplace, decide_eq_true htable⟩)
      exact hcolumnNames.mem_iff.2 (Indexing.of_mem_places hplace).2
  have hmemberships (column : String) (membership : Membership) :
      membership ∈ membershipsOf parts table.name column ↔
        Place.mk table.name column membership ∈ table.indexing.places table.name := by
    rw [mem_membershipsOf, ← hown.mem_iff, List.mem_filter]
    simp
  have hindexes : live.indexes = table.indexes := Indexing.indexes_eq hplaces
  refine ⟨hcolumnNames, Indexing.primaryKey_eq hplaces, hindexes, fun column hcolumn => ?key,
    fun column hcolumn => ?unique⟩
  case key =>
    rw [(hcolumns column hcolumn).primaryKey, Indexing.any_primary (hmemberships column.name),
      List.contains_iff_mem]
    rfl
  case unique =>
    rw [(hcolumns column hcolumn).unique, hindexes]
    simp only [hasOneColumn_eq]
    rw [Indexing.any_unique (hmemberships column.name) hown, List.contains_iff_mem]
    rfl

theorem exists_live_iff {rows : List ColumnRow} {columns : List Column}
    (hrows : rows.Perm (tables.flatMap (·.rows)))
    (hread : columns.map (fun column => (column.table, column.name)) = rowNames rows)
    (name : String) :
    (∃ live, (liveTables columns).find? name = some live) ↔
      ∃ table ∈ tables, table.name = name ∧ table.rows ≠ [] := by
  have hname : name ∈ columns.map (·.table) ↔ ∃ entry ∈ rowNames rows, entry.1 = name := by
    rw [← hread]
    simp
  rw [exists_find?_liveTables, hname]
  constructor
  · rintro ⟨entry, hentry, rfl⟩
    obtain ⟨row, hrow, hentry⟩ := List.mem_filterMap.1 hentry
    obtain ⟨column, -, rfl⟩ := Option.map_eq_some_iff.1 hentry
    obtain ⟨table, htable, hrow⟩ := List.mem_flatMap.1 (hrows.mem_iff.1 hrow)
    exact ⟨table, htable, (table.well_formed row hrow).1.symm, List.ne_nil_of_mem hrow⟩
  · rintro ⟨table, htable, rfl, hne⟩
    obtain ⟨row, hrow⟩ := List.exists_mem_of_ne_nil _ hne
    obtain ⟨hrowTable, hsome, -⟩ := table.well_formed row hrow
    obtain ⟨column, hcolumn⟩ := Option.isSome_iff_exists.1 hsome
    have hmem := hrows.mem_iff.2 (List.mem_flatMap.2 ⟨table, htable, hrow⟩)
    exact ⟨(row.table, column), List.mem_filterMap.2 ⟨row, hmem, by simp [hcolumn]⟩, hrowTable⟩

/-- The rows about tables of different names, in any order, are read as columns that form just these
tables again, as far as they have columns, each with its key and its indexes. -/
theorem indexes_recovered (dialect : MySql) {rows : List ColumnRow} {parts : List IndexRow}
    (hnames : (tables.map (·.name)).Nodup) (hrows : rows.Perm (tables.flatMap (·.rows)))
    (hparts : parts.Perm (tables.flatMap (·.parts))) :
    ∃ columns, columnsOfRows dialect rows parts = .ok columns ∧
      (∀ name, (∃ live, (liveTables columns).find? name = some live) ↔
        ∃ table ∈ tables, table.name = name ∧ table.rows ≠ []) ∧
      ∀ table ∈ tables, ∀ live, (liveTables columns).find? table.name = some live →
        Recovered table live := by
  have hconsistent := (consistent_tables hnames).perm hrows.symm hparts.symm
  have hanswered : ∀ row ∈ rows, row.isNullable = "YES" ∨ row.isNullable = "NO" := by
    intro row hrow
    obtain ⟨table, -, hrow⟩ := List.mem_flatMap.1 (hrows.mem_iff.1 hrow)
    exact (table.well_formed row hrow).2.2
  obtain ⟨columns, hcolumns, hread⟩ := exists_columnsOfRows dialect hconsistent hanswered
  refine ⟨columns, hcolumns, exists_live_iff hrows (names_read hread), ?_⟩
  exact fun table htable live hlive => recovered_of_read hnames hrows hparts hread htable hlive

end

/-- A table with a key of two columns in another order than its own, and a unique index on one. -/
def orderItems : ReportedTable where
  name := "items"
  rows :=
    [{ table := "items", column := some "order", position := 1, isNullable := "NO" },
      { table := "items", column := some "line", position := 2, isNullable := "NO" },
      { table := "items", column := some "code", position := 3, isNullable := "YES" }]
  key := ["line", "order"]
  indexes := ⟨[("by_code", ⟨"by_code", ["code"], true⟩)], by simp⟩
  well_formed := by decide
  nodup_columns := by decide
  nodup_positions := by decide
  nodup_key := by decide
  key_subset := by decide
  no_primary := by decide
  covers := by
    intro name index h
    obtain ⟨rfl, rfl⟩ : name = "by_code" ∧ index = ⟨"by_code", ["code"], true⟩ := by
      simpa using NameMap.mem_entries.2 h
    exact ⟨rfl, by decide, by decide, by decide⟩

/-- The rows of one table, last ones first. -/
theorem indexes_recovered_items :
    ∃ columns live, columnsOfRows {} orderItems.rows.reverse
        [⟨"items", "by_code", some "code", 1, false⟩, ⟨"items", "PRIMARY", some "order", 2, false⟩,
          ⟨"items", "PRIMARY", some "line", 1, false⟩] = .ok columns ∧
      (liveTables columns).find? "items" = some live ∧ live.primaryKey = ["line", "order"] ∧
      live.indexes.find? "by_code" = some ⟨"by_code", ["code"], true⟩ ∧
      ∀ column ∈ live.columns, column.unique = true ↔ column.name = "code" := by
  have hnames : ([orderItems].map (·.name)).Nodup := List.nodup_singleton _
  have hrows : orderItems.rows.reverse.Perm ([orderItems].flatMap (·.rows)) := by decide
  have hparts : [⟨"items", "by_code", some "code", 1, false⟩,
      ⟨"items", "PRIMARY", some "order", 2, false⟩,
      ⟨"items", "PRIMARY", some "line", 1, false⟩].Perm ([orderItems].flatMap (·.parts)) := by
    decide
  obtain ⟨columns, hcolumns, hlive, hrecovered⟩ :=
    indexes_recovered {} hnames hrows hparts
  obtain ⟨live, hfound⟩ :=
    (hlive "items").2 ⟨orderItems, List.mem_singleton_self _, rfl, by decide⟩
  have hsame := hrecovered orderItems (List.mem_singleton_self _) live hfound
  refine ⟨columns, live, hcolumns, hfound, hsame.primaryKey, ?_, fun column hcolumn => ?_⟩
  · rw [hsame.indexes]
    rfl
  · rw [hsame.uniqueFlags column hcolumn, hsame.indexes,
      show soleUniqueColumns orderItems.indexes = ["code"] by decide +kernel, List.mem_singleton]

end SchemaPlan.MySql
