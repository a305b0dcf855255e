import SchemaPlan.Proofs.ColumnType
import SchemaPlan.Proofs.IndexPlaces
import SchemaPlan.Proofs.SpannerRows

/-!
# Catalogs from Spanner rows

A server joins the columns of its tables with their memberships in the key and the indexes and with
their options, so that a column has one row for each pair of these, and at least one. However the
rows come, they are merged into the columns again, one for each, and these form the tables again.

* `ReportedTable`: a table as a server has it; `ReportedTable.joined`: its rows.
* `ReportedTable.column`: what is to be read of a column; `size_mergedColumn`: a column of strings
  or bytes, or of lists of them, has the length that its type says.
* `DraftOf`: what the rows of a column add up to (`draftOf_of_merged`), and `DraftOf.finish`: its
  flags and options are those of the catalog.
* `catalog_recovered`: the joined rows of tables are read as their columns, which form them again.
-/
namespace SchemaPlan.Spanner

/-! ## Tables of a server -/

/-- A column of a server. -/
structure ReportedColumn where
  name : String
  position : Nat
  nullable : Bool
  /-- The type as the server spells it. -/
  dataType : String
  options : List (String × String)
  position_lt : position < Decimal.bound32
  nodup_options : (options.map fun option => lowerName option.1).Nodup

/-- A table of a server, with its key and its indexes. -/
structure ReportedTable where
  name : String
  columns : List ReportedColumn
  indexing : Indexing (columns.map (·.name))
  nodup_columns : (columns.map (·.name)).Nodup
  nodup_positions : (columns.map (·.position)).Nodup
  length_lt : columns.length < Decimal.bound32

def membershipCells : Option Membership → List Json
  | none => [.null, .null, .null, .null]
  | some membership =>
    [.text membership.name, .text (Decimal.decimal membership.position),
      .text (if membership.primary then "PRIMARY_KEY" else "INDEX"), .bool membership.unique]

def optionCells : Option (String × String) → List Json
  | none => [.null, .null]
  | some (name, value) => [.text name, .text value]

/-- A row about a column, with one membership and one option, if there are any. -/
def ReportedColumn.row (column : ReportedColumn) (table : String) (membership : Option Membership)
    (option : Option (String × String)) : Row :=
  [.text table, .text column.name, .text (Decimal.decimal column.position),
      .text (if column.nullable then "YES" else "NO"), .text column.dataType] ++
    membershipCells membership ++ optionCells option

/-- The options of a column by their names in lower case. -/
def ReportedColumn.kept (column : ReportedColumn) : Options :=
  NameMap.ofList (column.options.map fun option => (lowerName option.1, option.2))

/-- What a column is joined with: nothing once, if there is nothing. -/
def orNull {α : Type} : List α → List (Option α)
  | [] => [none]
  | found => found.map some

namespace ReportedTable

/-- The rows about a column: one for each pair of a membership and an option. -/
def joinedColumn (table : ReportedTable) (column : ReportedColumn) : List Row :=
  (orNull (table.indexing.memberships column.name)).flatMap fun membership =>
    (orNull column.options).map fun option => column.row table.name membership option

/-- The rows about a table. -/
def joined (table : ReportedTable) : List Row :=
  table.columns.flatMap table.joinedColumn

/-- What is to be known of a column when its rows have been merged. -/
def mergedColumn (table : ReportedTable) (column : ReportedColumn) : Column where
  table := table.name
  name := column.name
  dataType := Ddl.normalize column.dataType
  position := column.position
  nullable := column.nullable
  size := declaredSize? (Ddl.normalize column.dataType)
  memberships := table.indexing.memberships column.name

/-- A column of the catalog: flagged by the key and the indexes of its table. -/
def column (table : ReportedTable) (column : ReportedColumn) : Column :=
  { table.mergedColumn column with
    primaryKey := table.indexing.key.columns.contains column.name
    unique := (soleUniqueColumns table.indexing.indexes).contains column.name
    extra := normalizeExtra (some column.kept.render) }

end ReportedTable

theorem mem_orNull {α : Type} {l : List α} {a : α} : some a ∈ orNull l ↔ a ∈ l := by
  cases l <;> simp [orNull]

theorem orNull_ne_nil {α : Type} (l : List α) : orNull l ≠ [] := by
  cases l <;> simp [orNull]

/-! ## Lengths -/

/-- A type with a length, or a list of such a type. -/
inductive SizedSpelling (length : String) : String → Prop
  | string : SizedSpelling length ("STRING(" ++ length ++ ")")
  | bytes : SizedSpelling length ("BYTES(" ++ length ++ ")")
  | list {ddl : String} (h : SizedSpelling length ddl) : SizedSpelling length (arrayForm.wrap ddl)

section
variable {length ddl : String} (h : SizedSpelling length ddl)
include h

theorem SizedSpelling.parts :
    ∃ front back, ddl.toList = front ++ '(' :: (length.toList ++ ')' :: back) ∧ '(' ∉ back ∧
      ∀ c ∈ front ++ back, Ddl.Plain c := by
  induction h with
  | string => exact ⟨"STRING".toList, [], by simp, by simp, by decide⟩
  | bytes => exact ⟨"BYTES".toList, [], by simp, by simp, by decide⟩
  | list _ ih =>
    obtain ⟨front, back, htext, hopen, hplain⟩ := ih
    refine ⟨"ARRAY<".toList ++ front, back ++ ['>'], ?_, by simp [hopen], ?_⟩
    · simp [ArrayForm.wrap, arrayForm, htext]
    · simp only [List.forall_mem_append] at hplain ⊢
      exact ⟨⟨by decide, hplain.1⟩, hplain.2, by decide⟩

variable (hlength : ∀ c ∈ length.toList, Ddl.Inner c)
include hlength

theorem declaredSize?_spelling :
    declaredSize? ddl = (Decimal.readBelow? Decimal.bound64 length.toList).map UInt64.ofNat := by
  obtain ⟨front, back, htext, hopen, -⟩ := h.parts
  have hnot : ∀ mark ∈ ['(', ')', '<'], mark ∉ length.toList :=
    fun mark hmark hmem => (hlength _ hmem).not_bracket hmark
  rw [declaredSize?, htext, Text.cutAtLast_append (by simp [hopen, hnot]), Option.bind_some]
  dsimp only
  rw [Text.cutAt_append (hnot _ (by simp))]
  rfl

theorem normalize_spelling : Ddl.normalize ddl = ddl := by
  obtain ⟨front, back, htext, -, hplain⟩ := h.parts
  have hnormal : Ddl.Normal ddl.toList := by
    rw [htext]
    refine Ddl.normal_of_plain ?_
    simp only [List.forall_mem_append, List.forall_mem_cons] at hplain ⊢
    exact ⟨hplain.1, by decide, fun c hc => (hlength c hc).toPlain, by decide, hplain.2⟩
  rw [Ddl.normalize, hnormal, String.ofList_toList]

end

/-- The size of a column is the length that its type says, and there is none for the greatest. -/
theorem size_mergedColumn (table : ReportedTable) (column : ReportedColumn) :
    (∀ n : UInt64, SizedSpelling (Decimal.decimal n.toNat) column.dataType →
      (table.mergedColumn column).size = some n) ∧
    (SizedSpelling "MAX" column.dataType → (table.mergedColumn column).size = none) := by
  have hsize : (table.mergedColumn column).size =
      declaredSize? (Ddl.normalize column.dataType) := by
    simp only [ReportedTable.mergedColumn]
  refine ⟨fun n h => ?_, fun h => ?_⟩
  · have hread : Decimal.readBelow? Decimal.bound64 (Decimal.decimal n.toNat).toList =
        some n.toNat := Decimal.readBelow?_decimal n.toNat_lt
    rw [hsize, normalize_spelling h (Ddl.inner_decimal _),
      declaredSize?_spelling h (Ddl.inner_decimal _), hread, Option.map_some, UInt64.ofNat_toNat]
  · have hinner : ∀ c ∈ "MAX".toList, Ddl.Inner c := by decide
    rw [hsize, normalize_spelling h hinner, declaredSize?_spelling h hinner]
    decide

/-! ## One row -/

section
variable {table : ReportedTable} {column : ReportedColumn}

theorem positionCell_text {n : Nat} (h : n < Decimal.bound32) {row : Row} {i : Nat}
    (hcell : row[i]? = some (.text (Decimal.decimal n))) : positionCell row i = .ok (some n) := by
  rw [positionCell, hcell]
  dsimp only
  rw [Decimal.readBelow?_decimal h]

theorem newDraft_row (column : ReportedColumn) (table : String) (membership : Option Membership)
    (option : Option (String × String)) :
    newDraft table column.name (column.row table membership option) = .ok
      ⟨{ table, name := column.name, dataType := Ddl.normalize column.dataType,
          position := column.position, nullable := column.nullable,
          size := declaredSize? (Ddl.normalize column.dataType) }, NameMap.empty⟩ := by
  have hposition : positionCell (column.row table membership option) 2 =
      .ok (some column.position) := positionCell_text column.position_lt rfl
  have hnullable : textCell (column.row table membership option) 3 =
      some (if column.nullable then "YES" else "NO") := rfl
  have htype : textCell (column.row table membership option) 4 = some column.dataType := rfl
  unfold newDraft
  rw [hposition, hnullable, htype]
  cases hcase : column.nullable <;> rfl

theorem spelledOption?_row (column : ReportedColumn) (table : String)
    (membership : Option Membership) (option : Option (String × String)) :
    spelledOption? (column.row table membership option) = option := by
  cases membership <;> cases option <;> rfl

theorem positionCell_row (column : ReportedColumn) (table : String) {membership : Option Membership}
    (hmembership : ∀ known, membership = some known → known.position < Decimal.bound32)
    (option : Option (String × String)) :
    positionCell (column.row table membership option) 6 = .ok (membership.map (·.position)) := by
  cases membership with
  | none => rfl
  | some known => exact positionCell_text (hmembership known rfl) rfl

theorem reported?_row (column : ReportedColumn) (table : String) {membership : Option Membership}
    (hmembership : ∀ known, membership = some known → known.position < Decimal.bound32)
    (option : Option (String × String)) :
    reported? (column.row table membership option) = membership := by
  rw [reported?, positionCell_row column table hmembership]
  cases membership with
  | none => rfl
  | some known =>
    obtain ⟨name, position, unique, primary⟩ := known
    cases primary <;> rfl

/-! ## The rows of a column -/

theorem mem_joinedColumn {row : Row} :
    row ∈ table.joinedColumn column ↔
      ∃ membership ∈ orNull (table.indexing.memberships column.name),
        ∃ option ∈ orNull column.options, row = column.row table.name membership option := by
  simp only [ReportedTable.joinedColumn, List.mem_flatMap, List.mem_map, eq_comm]

theorem joinedColumn_ne_nil (table : ReportedTable) (column : ReportedColumn) :
    table.joinedColumn column ≠ [] := by
  obtain ⟨membership, hmembership⟩ :=
    List.exists_mem_of_ne_nil _ (orNull_ne_nil (table.indexing.memberships column.name))
  obtain ⟨option, hoption⟩ := List.exists_mem_of_ne_nil _ (orNull_ne_nil column.options)
  exact List.ne_nil_of_mem (mem_joinedColumn.2 ⟨membership, hmembership, option, hoption, rfl⟩)

/-- Positions in indexes are below the bound, since there are not more columns. -/
theorem position_lt_of_mem {membership : Option Membership}
    (h : membership ∈ orNull (table.indexing.memberships column.name)) :
    ∀ known, membership = some known → known.position < Decimal.bound32 := by
  rintro known rfl
  have hle := Indexing.position_le (mem_orNull.1 h)
  rw [List.length_map] at hle
  exact Nat.lt_of_le_of_lt hle table.length_lt

theorem readable_of_joined {row : Row} (h : row ∈ table.joinedColumn column) : Readable row := by
  obtain ⟨membership, hmembership, option, -, rfl⟩ := mem_joinedColumn.1 h
  refine ⟨⟨rfl, _, positionCell_row column _ (position_lt_of_mem hmembership) option⟩, ?_⟩
  intro tableName name habout
  obtain ⟨rfl, rfl⟩ := Prod.mk.inj (Option.some.inj habout)
  exact ⟨_, newDraft_row column _ _ _⟩

theorem exists_reported_iff {membership : Membership} :
    (∃ row ∈ table.joinedColumn column, reported? row = some membership) ↔
      membership ∈ table.indexing.memberships column.name := by
  constructor
  · rintro ⟨row, hrow, hreported⟩
    obtain ⟨known, hknown, option, -, rfl⟩ := mem_joinedColumn.1 hrow
    rw [reported?_row column _ (position_lt_of_mem hknown)] at hreported
    exact mem_orNull.1 (hreported ▸ hknown)
  · intro h
    have hknown := mem_orNull.2 h
    obtain ⟨option, hoption⟩ := List.exists_mem_of_ne_nil _ (orNull_ne_nil column.options)
    exact ⟨_, mem_joinedColumn.2 ⟨_, hknown, option, hoption, rfl⟩,
      reported?_row column _ (position_lt_of_mem hknown) option⟩

theorem exists_option_iff (table : ReportedTable) {entry : String × String} :
    (∃ row ∈ table.joinedColumn column, option? row = some entry) ↔
      entry ∈ column.options.map fun option => (lowerName option.1, option.2) := by
  constructor
  · rintro ⟨row, hrow, hentry⟩
    obtain ⟨known, -, option, hoption, rfl⟩ := mem_joinedColumn.1 hrow
    rw [option?, spelledOption?_row, Option.map_eq_some_iff] at hentry
    obtain ⟨spelled, rfl, rfl⟩ := hentry
    exact List.mem_map_of_mem (mem_orNull.1 hoption)
  · intro h
    obtain ⟨option, hoption, rfl⟩ := List.mem_map.1 h
    obtain ⟨known, hknown⟩ :=
      List.exists_mem_of_ne_nil _ (orNull_ne_nil (table.indexing.memberships column.name))
    refine ⟨_, mem_joinedColumn.2 ⟨known, hknown, some option, mem_orNull.2 hoption, rfl⟩, ?_⟩
    rw [option?, spelledOption?_row, Option.map_some]

end

/-! ## The rows of a catalog -/

def columnsIn (tables : List ReportedTable) : List (ReportedTable × ReportedColumn) :=
  tables.flatMap fun table => table.columns.map (Prod.mk table)

/-- The table and the name of a column. -/
def keyOf (entry : ReportedTable × ReportedColumn) : String × String :=
  (entry.1.name, entry.2.name)

section
variable {tables : List ReportedTable} {entry other : ReportedTable × ReportedColumn}

theorem mem_columnsIn : entry ∈ columnsIn tables ↔ entry.1 ∈ tables ∧ entry.2 ∈ entry.1.columns := by
  obtain ⟨table, column⟩ := entry
  simp only [columnsIn, List.mem_flatMap, List.mem_map, Prod.mk.injEq]
  constructor
  · rintro ⟨_, htable, _, hcolumn, rfl, rfl⟩
    exact ⟨htable, hcolumn⟩
  · rintro ⟨htable, hcolumn⟩
    exact ⟨table, htable, column, hcolumn, rfl, rfl⟩

theorem nodup_keys (hnames : (tables.map (·.name)).Nodup) :
    ((columnsIn tables).map keyOf).Nodup := by
  refine List.pairwise_map.2 (List.pairwise_flatMap.2 ⟨fun table _ => ?_, ?_⟩)
  · refine List.pairwise_map.2 ((List.pairwise_map.1 table.nodup_columns).imp ?_)
    exact fun hne heq => hne (Prod.mk.inj heq).2
  · refine (List.pairwise_map.1 hnames).imp fun {table other} hne a ha b hb heq => ?_
    obtain ⟨_, -, rfl⟩ := List.mem_map.1 ha
    obtain ⟨_, -, rfl⟩ := List.mem_map.1 hb
    exact hne (Prod.mk.inj heq).1

theorem flatMap_joined (tables : List ReportedTable) :
    tables.flatMap (·.joined) = (columnsIn tables).flatMap fun e => e.1.joinedColumn e.2 := by
  simp only [columnsIn, List.flatMap_assoc, List.flatMap_map]
  rfl

theorem about?_joined {row : Row} (h : row ∈ entry.1.joinedColumn entry.2) :
    about? row = some (keyOf entry) := by
  obtain ⟨membership, -, option, -, rfl⟩ := mem_joinedColumn.1 h
  rfl

variable {rows : List Row} (hnames : (tables.map (·.name)).Nodup)
  (hrows : rows.Perm (tables.flatMap (·.joined)))

include hrows in
theorem mem_rows {row : Row} :
    row ∈ rows ↔ ∃ entry ∈ columnsIn tables, row ∈ entry.1.joinedColumn entry.2 := by
  rw [hrows.mem_iff, flatMap_joined, List.mem_flatMap]

include hnames hrows in
/-- The rows about a column are those that it has been joined to. -/
theorem mem_rows_about (hentry : entry ∈ columnsIn tables) {row : Row} :
    row ∈ rows ∧ about? row = some (keyOf entry) ↔ row ∈ entry.1.joinedColumn entry.2 := by
  constructor
  · rintro ⟨hrow, habout⟩
    obtain ⟨other, hother, hrow⟩ := (mem_rows hrows).1 hrow
    rw [about?_joined hrow, Option.some.injEq] at habout
    rwa [List.inj_on_of_nodup_map (nodup_keys hnames) hother hentry habout] at hrow
  · exact fun hrow => ⟨(mem_rows hrows).2 ⟨entry, hentry, hrow⟩, about?_joined hrow⟩

/-! ## Merging them -/

/-- A draft holds what the rows of a column add up to. -/
structure DraftOf (entry : ReportedTable × ReportedColumn) (draft : Draft) : Prop where
  column : (entry.1.mergedColumn entry.2).Agrees draft.column
  options : draft.options = entry.2.kept

variable {drafts : List Draft}

include hnames hrows in
theorem draftOf_of_merged (h : Merged rows drafts) (hentry : entry ∈ columnsIn tables)
    {draft : Draft} (hdraft : draft ∈ drafts) (hkey : draft.key = keyOf entry) :
    DraftOf entry draft := by
  obtain ⟨first, hfirst, start, habout, hstart, hbare, hnodup, hmembers, hoptions⟩ :=
    h.draft hdraft
  simp only [hkey] at habout hstart hmembers hoptions
  have hown {row : Row} := @mem_rows_about tables entry rows hnames hrows hentry row
  refine ⟨⟨?_, ?_⟩, ?_⟩
  · obtain ⟨membership, -, option, -, rfl⟩ := mem_joinedColumn.1 (hown.1 ⟨hfirst, habout⟩)
    dsimp only [keyOf] at hstart
    rw [newDraft_row, Except.ok.injEq] at hstart
    rw [hbare, ← hstart]
    simp only [Column.bare, ReportedTable.mergedColumn]
  · refine (List.perm_ext_iff_of_nodup (Indexing.nodup_memberships _ _) hnodup).2
      fun membership => ?_
    rw [hmembers]
    refine exists_reported_iff.symm.trans ?_
    simp only [← hown, and_assoc]
  · have hmem (option : String × String) :
        option ∈ (rowsAbout rows (keyOf entry)).filterMap option? ↔
          option ∈ entry.2.options.map fun option => (lowerName option.1, option.2) := by
      rw [← exists_option_iff entry.1]
      simp only [← hown, List.mem_filterMap, rowsAbout, List.mem_filter, decide_eq_true_eq]
    have hoptionNames : ((entry.2.options.map fun option =>
        (lowerName option.1, option.2)).map Prod.fst).Nodup := by
      rw [List.map_map]
      exact entry.2.nodup_options
    rw [hoptions, ReportedColumn.kept]
    refine NameMap.ofList_congr hmem fun a ha b hb hname => ?_
    rw [List.inj_on_of_nodup_map hoptionNames ((hmem a).1 ha) ((hmem b).1 hb) hname]

include hnames hrows in
/-- The drafts of merged rows are those of the columns. -/
theorem exists_drafts (h : Merged rows drafts) :
    ∃ others, List.Forall₂ DraftOf (columnsIn tables) others ∧ others.Perm drafts := by
  have hkeys : ((columnsIn tables).map keyOf).Perm (drafts.map Draft.key) := by
    refine (List.perm_ext_iff_of_nodup (nodup_keys hnames) h.nodup).2 fun key => ?_
    rw [h.keys, List.mem_map]
    constructor
    · rintro ⟨entry, hentry, rfl⟩
      obtain ⟨row, hrow⟩ := List.exists_mem_of_ne_nil _ (joinedColumn_ne_nil entry.1 entry.2)
      exact ⟨row, (mem_rows_about hnames hrows hentry).2 hrow⟩
    · rintro ⟨row, hrow, habout⟩
      obtain ⟨entry, hentry, hrow⟩ := (mem_rows hrows).1 hrow
      rw [about?_joined hrow, Option.some.injEq] at habout
      exact ⟨entry, hentry, habout⟩
  have hself : List.Forall₂ (fun key draft => draft ∈ drafts ∧ draft.key = key)
      (drafts.map Draft.key) drafts :=
    List.forall₂_map_left_iff.2 (List.forall₂_same.2 fun _ hmem => ⟨hmem, rfl⟩)
  obtain ⟨others, hothers, hpermuted⟩ := List.perm_comp_forall₂ hkeys hself
  refine ⟨others, ?_, hpermuted⟩
  have hpairs : List.Forall₂ (fun entry draft => entry ∈ columnsIn tables ∧ draft ∈ drafts ∧
      draft.key = keyOf entry) (columnsIn tables) others :=
    (List.forall₂_and_left _ others).2 ⟨fun _ hmem => hmem, List.forall₂_map_left_iff.1 hothers⟩
  exact hpairs.imp fun entry draft ⟨hentry, hdraft, hkey⟩ =>
    draftOf_of_merged hnames hrows h hentry hdraft hkey

/-- The places of the columns of one of the tables are those in its key and its indexes. -/
theorem places_columnsIn (hnames : (tables.map (·.name)).Nodup) {table : ReportedTable}
    (htable : table ∈ tables) :
    ((places ((columnsIn tables).map fun e => e.1.mergedColumn e.2)).filter fun place =>
      place.table = table.name).Perm (table.indexing.places table.name) := by
  have hall : places ((columnsIn tables).map fun e => e.1.mergedColumn e.2) =
      tables.flatMap fun table => places (table.columns.map table.mergedColumn) := by
    simp only [columnsIn, places, List.flatMap_map, List.flatMap_assoc]
  have hown : ∀ table : ReportedTable, ∀ place ∈ places (table.columns.map table.mergedColumn),
      place.table = table.name := by
    intro table place hplace
    obtain ⟨_, hcolumn, hplace⟩ := List.mem_flatMap.1 hplace
    obtain ⟨column, -, rfl⟩ := List.mem_map.1 hcolumn
    obtain ⟨membership, -, rfl⟩ := List.mem_map.1 hplace
    rfl
  rw [hall, filter_flatMap_eq hown hnames htable]
  have hperm := Indexing.flatMap_memberships_perm table.nodup_columns table.indexing table.name
  rw [List.flatMap_map] at hperm
  rw [places, List.flatMap_map]
  exact hperm

theorem DraftOf.finish {draft : Draft} (h : DraftOf entry draft) {columns : List Column}
    (hplaces : ((places columns).filter fun place => place.table = entry.1.name).Perm
      (entry.1.indexing.places entry.1.name)) :
    (entry.1.column entry.2).Agrees (draft.finish columns) := by
  have hmemberships (membership : Membership) : membership ∈ draft.column.memberships ↔
      Place.mk entry.1.name entry.2.name membership ∈ entry.1.indexing.places entry.1.name := by
    rw [← h.column.memberships.mem_iff]
    exact Indexing.mem_memberships
  have htable : draft.column.table = entry.1.name :=
    (congrArg Column.table h.column.bare).symm
  refine ⟨?_, h.column.memberships⟩
  have hfinish : (draft.finish columns).bare =
      { draft.column.bare with
        unique := draft.column.memberships.any fun m =>
          m.unique && !m.primary && hasOneMember columns draft.column.table m.name
        primaryKey := draft.column.memberships.any (·.primary)
        extra := normalizeExtra (some draft.options.render) } := rfl
  simp only [hfinish, hasOneMember_eq, htable, ← h.column.bare, h.options]
  rw [Indexing.any_primary hmemberships, Indexing.any_unique hmemberships hplaces]
  rfl

theorem columnBefore_trans (a b c : Column) (hab : columnBefore a b = true)
    (hbc : columnBefore b c = true) : columnBefore a c = true := by
  simp only [columnBefore, Bool.or_eq_true, Bool.and_eq_true, decide_eq_true_eq,
    beq_iff_eq] at hab hbc ⊢
  rcases hab with hab | ⟨hab, hab'⟩
  · rcases hbc with hbc | ⟨hbc, -⟩
    · exact .inl (String.lt_trans hab hbc)
    · exact .inl (hbc ▸ hab)
  · rcases hbc with hbc | ⟨hbc, hbc'⟩
    · exact .inl (hab ▸ hbc)
    · exact .inr ⟨hab.trans hbc, Nat.le_trans hab' hbc'⟩

theorem columnBefore_total (a b : Column) : (columnBefore a b || columnBefore b a) = true := by
  simp only [columnBefore, Bool.or_eq_true, Bool.and_eq_true, decide_eq_true_eq, beq_iff_eq]
  by_cases hab : a.table < b.table
  · exact .inl (.inl hab)
  · by_cases hba : b.table < a.table
    · exact .inr (.inl hba)
    · have htable := String.le_antisymm (String.not_lt.1 hba) (String.not_lt.1 hab)
      exact (Nat.le_total a.position b.position).imp (fun hle => .inr ⟨htable, hle⟩)
        fun hle => .inr ⟨htable.symm, hle⟩

/-! ## Reading them -/

/-- The columns of tables as they are to be read. -/
def catalogOf (tables : List ReportedTable) : List Column :=
  (columnsIn tables).map fun entry => entry.1.column entry.2

include hnames hrows in
theorem exists_columnsOfRows :
    ∃ columns, columnsOfRows rows = .ok columns ∧
      (∃ others, List.Forall₂ Column.Agrees (catalogOf tables) others ∧ others.Perm columns) ∧
      columns.Pairwise fun a b => columnBefore a b = true := by
  have hreadable : ∀ row ∈ rows, Readable row := by
    intro row hrow
    obtain ⟨entry, -, hrow⟩ := (mem_rows hrows).1 hrow
    exact readable_of_joined hrow
  obtain ⟨drafts, hdrafts⟩ := foldlM_of_readable hreadable []
  have hmerged := merged_foldlM merged_nil hdrafts
  rw [List.nil_append] at hmerged
  obtain ⟨others, hothers, hperm⟩ := exists_drafts hnames hrows hmerged
  refine ⟨_, columnsOfRows_ok.2 ⟨drafts, hdrafts, rfl⟩,
    ⟨others.map (·.finish (drafts.map (·.column))), ?_, ?_⟩,
    List.pairwise_mergeSort columnBefore_trans columnBefore_total _⟩
  · have hreordered : Reordered ((columnsIn tables).map fun e => e.1.mergedColumn e.2)
        (drafts.map (·.column)) := by
      refine (reordered_of_forall₂ ?_).trans (reordered_of_perm (hperm.map _))
      rw [List.forall₂_map_left_iff, List.forall₂_map_right_iff]
      exact hothers.imp fun _ _ hdraft => hdraft.column
    have hpairs := (List.forall₂_and_left _ others).2 ⟨fun _ hmem => hmem, hothers⟩
    rw [catalogOf, List.forall₂_map_left_iff, List.forall₂_map_right_iff]
    refine hpairs.imp fun entry draft ⟨hentry, hdraft⟩ => hdraft.finish ?_
    refine (hreordered.places.filter _).symm.trans ?_
    exact places_columnsIn hnames (mem_columnsIn.1 hentry).1
  · exact (hperm.map _).trans (List.mergeSort_perm _ _).symm

/-- A live table is one of the server: it has its columns, its key and its indexes, and its columns
are flagged by them. -/
structure Recovered (table : ReportedTable) (live : LiveTable) : Prop where
  columnNames : (live.columns.map (·.name)).Perm (table.columns.map (·.name))
  primaryKey : live.primaryKey = table.indexing.key.columns
  indexes : live.indexes = table.indexing.indexes
  keyFlags : ∀ column ∈ live.columns,
    column.primaryKey = true ↔ column.name ∈ table.indexing.key.columns
  uniqueFlags : ∀ column ∈ live.columns,
    column.unique = true ↔ column.name ∈ soleUniqueColumns live.indexes

section
variable {columns others : List Column}
  (hagrees : List.Forall₂ Column.Agrees (catalogOf tables) others) (hperm : others.Perm columns)

include hagrees hperm in
theorem exists_entry {column : Column} (hcolumn : column ∈ columns) :
    ∃ entry ∈ columnsIn tables, (entry.1.column entry.2).Agrees column := by
  obtain ⟨found, hfound, hsame⟩ := exists_left_of_mem hagrees (hperm.mem_iff.2 hcolumn)
  obtain ⟨entry, hentry, rfl⟩ := List.mem_map.1 hfound
  exact ⟨entry, hentry, hsame⟩

include hagrees in
/-- What does not depend on memberships is read as it is in the catalog. -/
theorem map_catalogOf {γ : Type} (f : Column → γ) (hf : ∀ column, f column.bare = f column) :
    (catalogOf tables).map f = others.map f := by
  refine map_eq_of_forall₂ (hagrees.imp fun column other hpair => ?_)
  rw [← hf column, hpair.bare, hf]

include hnames hagrees hperm in
theorem nodup_positions_read : (columns.map fun column => (column.table, column.position)).Nodup := by
  rw [← (hperm.map _).nodup_iff, ← map_catalogOf hagrees _ fun _ => rfl, catalogOf, List.map_map]
  refine List.pairwise_map.2 (List.pairwise_flatMap.2 ⟨fun table _ => ?_, ?_⟩)
  · refine List.pairwise_map.2 ((List.pairwise_map.1 table.nodup_positions).imp ?_)
    exact fun hne heq => hne (Prod.mk.inj heq).2
  · refine (List.pairwise_map.1 hnames).imp fun {table other} hne a ha b hb heq => ?_
    obtain ⟨_, -, rfl⟩ := List.mem_map.1 ha
    obtain ⟨_, -, rfl⟩ := List.mem_map.1 hb
    exact hne (Prod.mk.inj heq).1

include hnames hagrees hperm in
theorem columnNames_read {table : ReportedTable} (htable : table ∈ tables) :
    ((columns.filter fun column => column.table = table.name).map (·.name)).Perm
      (table.columns.map (·.name)) := by
  have hpairs (l : List Column) : (l.filter fun column => column.table = table.name).map (·.name) =
      ((l.map fun column => (column.table, column.name)).filter fun pair =>
        pair.1 = table.name).map Prod.snd := by
    rw [List.filter_map, List.map_map]
    rfl
  have hall : (catalogOf tables).map (fun column => (column.table, column.name)) =
      tables.flatMap fun table => table.columns.map fun column => (table.name, column.name) := by
    simp only [catalogOf, columnsIn, List.map_flatMap, List.map_map]
    rfl
  have hown : ∀ table : ReportedTable,
      ∀ pair ∈ table.columns.map fun column => (table.name, column.name), pair.1 = table.name := by
    intro table pair hpair
    obtain ⟨_, -, rfl⟩ := List.mem_map.1 hpair
    rfl
  refine ((hperm.filter _).map _).symm.trans (.of_eq ?_)
  rw [hpairs, ← map_catalogOf hagrees _ fun _ => rfl, hall, filter_flatMap_eq hown hnames htable,
    List.map_map]
  rfl

include hnames hagrees hperm in
/-- The live table of a name is the table of the server. -/
theorem recovered_of_read {table : ReportedTable} (htable : table ∈ tables) {live : LiveTable}
    (hlive : (liveTables columns).find? table.name = some live) : Recovered table live := by
  obtain ⟨-, -, hfound⟩ := live_table hlive
  have hreordered : Reordered (catalogOf tables) columns :=
    (reordered_of_forall₂ hagrees).trans (reordered_of_perm hperm)
  have hplaces : (places live.columns).Perm (table.indexing.places table.name) := by
    refine ((places_perm hfound).trans ?_).trans (places_columnsIn hnames htable)
    rw [places_filter]
    refine (hreordered.places.filter _).symm.trans (.of_eq ?_)
    simp only [catalogOf, places, List.flatMap_map]
    rfl
  have hindexes := Indexing.indexes_eq hplaces
  have hflags : ∀ column ∈ live.columns,
      column.primaryKey = table.indexing.key.columns.contains column.name ∧
        column.unique = (soleUniqueColumns table.indexing.indexes).contains column.name := by
    intro column hcolumn
    obtain ⟨hmem, hname⟩ := List.mem_filter.1 (hfound.mem_iff.1 hcolumn)
    obtain ⟨entry, hentry, hsame⟩ := exists_entry hagrees hperm hmem
    have hsameTable : entry.1.name = column.table := congrArg Column.table hsame.bare
    obtain rfl : entry.1 = table := List.inj_on_of_nodup_map hnames (mem_columnsIn.1 hentry).1
      htable (hsameTable.trans (of_decide_eq_true hname))
    have hsameName : entry.2.name = column.name := congrArg Column.name hsame.bare
    rw [← hsameName]
    exact ⟨(congrArg Column.primaryKey hsame.bare).symm, (congrArg Column.unique hsame.bare).symm⟩
  refine ⟨?_, Indexing.primaryKey_eq hplaces, hindexes, fun column hcolumn => ?_,
    fun column hcolumn => ?_⟩
  · exact (hfound.map _).trans (columnNames_read hnames hagrees hperm htable)
  · rw [(hflags column hcolumn).1, List.contains_iff_mem]
  · rw [(hflags column hcolumn).2, hindexes, List.contains_iff_mem]

include hagrees hperm in
theorem exists_live_iff (name : String) :
    (∃ live, (liveTables columns).find? name = some live) ↔
      ∃ table ∈ tables, table.name = name ∧ table.columns ≠ [] := by
  rw [exists_find?_liveTables, ← (hperm.map _).mem_iff, ← map_catalogOf hagrees _ fun _ => rfl]
  simp only [catalogOf, List.map_map, List.mem_map]
  constructor
  · rintro ⟨entry, hentry, rfl⟩
    obtain ⟨htable, hcolumn⟩ := mem_columnsIn.1 hentry
    exact ⟨entry.1, htable, rfl, List.ne_nil_of_mem hcolumn⟩
  · rintro ⟨table, htable, rfl, hne⟩
    obtain ⟨column, hcolumn⟩ := List.exists_mem_of_ne_nil _ hne
    exact ⟨(table, column), mem_columnsIn.2 ⟨htable, hcolumn⟩, rfl⟩

end

include hnames hrows in
/-- The rows that a server joins for tables of different names are read, in any order, as just the
columns of these tables, each with its memberships and once, by table and position. The columns form
these tables again, as far as they have columns, each with its key and its indexes. -/
theorem catalog_recovered :
    ∃ columns, columnsOfRows rows = .ok columns ∧
      (∃ others, List.Forall₂ Column.Agrees (catalogOf tables) others ∧ others.Perm columns) ∧
      (∀ column ∈ columns, column.memberships.Nodup) ∧
      columns.Pairwise (fun a b => a.table < b.table ∨ a.table = b.table ∧ a.position < b.position) ∧
      (∀ name, (∃ live, (liveTables columns).find? name = some live) ↔
        ∃ table ∈ tables, table.name = name ∧ table.columns ≠ []) ∧
      ∀ table ∈ tables, ∀ live, (liveTables columns).find? table.name = some live →
        Recovered table live := by
  obtain ⟨columns, hcolumns, ⟨others, hagrees, hperm⟩, hsorted⟩ :=
    exists_columnsOfRows hnames hrows
  refine ⟨columns, hcolumns, ⟨others, hagrees, hperm⟩, fun column hcolumn => ?_, ?_,
    exists_live_iff hagrees hperm,
    fun table htable live => recovered_of_read hnames hagrees hperm htable⟩
  · obtain ⟨entry, -, hsame⟩ := exists_entry hagrees hperm hcolumn
    exact hsame.memberships.nodup_iff.1 (Indexing.nodup_memberships _ _)
  · have hpositions := List.pairwise_map.1 (nodup_positions_read hnames hagrees hperm)
    refine (hsorted.and hpositions).imp fun {a b} ⟨hbefore, hne⟩ => ?_
    simp only [columnBefore, Bool.or_eq_true, Bool.and_eq_true, decide_eq_true_eq,
      beq_iff_eq] at hbefore
    refine hbefore.imp id fun ⟨htable, hle⟩ => ⟨htable, ?_⟩
    exact Nat.lt_of_le_of_ne hle fun heq => hne (Prod.ext htable heq)

end

/-- A table with a key of two columns, one of which is in another index as well and has options, and
with a column of texts. -/
def orderItems : ReportedTable where
  name := "items"
  columns := [
    { name := "order", position := 1, nullable := false, dataType := "INT64", options := []
      position_lt := by decide, nodup_options := by decide },
    { name := "placed", position := 2, nullable := false, dataType := "TIMESTAMP"
      options := [("allow_commit_timestamp", "TRUE"), ("Comment", "x")]
      position_lt := by decide, nodup_options := by decide +kernel },
    { name := "notes", position := 3, nullable := true, dataType := "ARRAY<STRING(20)>"
      options := [], position_lt := by decide, nodup_options := by decide }]
  indexing := {
    key := ⟨"PRIMARY_KEY", ["placed", "order"], true⟩
    indexes := ⟨[("by_time", ⟨"by_time", ["placed"], true⟩)], by simp⟩
    nodup_key := by decide
    key_subset := by decide
    key_apart := by decide
    covers := by
      intro name index h
      obtain ⟨rfl, rfl⟩ : name = "by_time" ∧ index = ⟨"by_time", ["placed"], true⟩ := by
        simpa using NameMap.mem_entries.2 h
      exact ⟨rfl, by decide, by decide, by decide⟩ }
  nodup_columns := by decide
  nodup_positions := by decide
  length_lt := by decide

/-- The rows of one table, last ones first: four of them are about one column, and one is about a
column with a length. -/
theorem catalog_recovered_items :
    (orderItems.joined.length = 6) ∧
      ∃ columns live, columnsOfRows orderItems.joined.reverse = .ok columns ∧
        (liveTables columns).find? "items" = some live ∧ live.primaryKey = ["placed", "order"] ∧
        live.indexes.find? "by_time" = some ⟨"by_time", ["placed"], true⟩ ∧
        (∀ column ∈ live.columns, column.unique = true ↔ column.name = "placed") ∧
        ∃ column ∈ columns, column.name = "notes" ∧ column.size = some 20 := by
  have hnames : ([orderItems].map (·.name)).Nodup := List.nodup_singleton _
  have hrows : orderItems.joined.reverse.Perm ([orderItems].flatMap (·.joined)) := by
    rw [List.flatMap_singleton]
    exact List.reverse_perm _
  obtain ⟨columns, hcolumns, ⟨others, hagrees, hperm⟩, -, -, hlive, hrecovered⟩ :=
    catalog_recovered hnames hrows
  obtain ⟨live, hfound⟩ :=
    (hlive "items").2 ⟨orderItems, List.mem_singleton_self _, rfl, by simp [orderItems]⟩
  have hsame := hrecovered orderItems (List.mem_singleton_self _) live hfound
  refine ⟨by decide +kernel, columns, live, hcolumns, hfound, hsame.primaryKey, ?_,
    fun column hcolumn => ?_, ?_⟩
  · rw [hsame.indexes]
    rfl
  · rw [hsame.uniqueFlags column hcolumn, hsame.indexes,
      show soleUniqueColumns orderItems.indexing.indexes = ["placed"] by decide +kernel,
      List.mem_singleton]
  · have hnotes : ∃ column ∈ catalogOf [orderItems], column.name = "notes" ∧
        column.size = some 20 := by decide +kernel
    obtain ⟨column, hcolumn, hname, hsize⟩ := hnotes
    obtain ⟨other, hother, hsame⟩ := exists_right_of_mem hagrees hcolumn
    refine ⟨other, hperm.mem_iff.1 hother, ?_, ?_⟩
    · exact (congrArg Column.name hsame.bare).symm.trans hname
    · exact (congrArg Column.size hsame.bare).symm.trans hsize

end SchemaPlan.Spanner
