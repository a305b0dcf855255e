import SchemaPlan.Proofs.MySqlIndexes

/-!
# Indexes that a plan leaves alone

A server has one row for each part of an index, and the row of a part that is an expression names no
column. Columns are all that is read of an index: a plan leaves a declared index alone if the parts
that have a column are the declared ones, whether or not there are expressions between them.

* `Reported`: rows about columns and index parts as a server has them.
* `places_columnsOfRows`: the columns that are read have the places that the rows tell of.
* `index_of_untouched`: a declared index that a plan leaves alone is a live one.
* `untouched_index_iff`: an index that is left alone has the declared parts just if none of its
  parts is an expression.
-/
namespace SchemaPlan.MySql

/-! ## The rows of one index -/

def indexRows (parts : List IndexRow) (table index : String) : List IndexRow :=
  (parts.filter fun part => part.table = table && part.index = index).mergeSort
    fun a b => a.position ≤ b.position

/-- Rows as a server has them: the parts of an index are counted from one and agree on its
uniqueness, and a part that is no expression is a column that another row is about. -/
structure Reported (rows : List ColumnRow) (parts : List IndexRow) : Prop where
  counted : ∀ part ∈ parts, (indexRows parts part.table part.index).map (·.position) =
    List.range' 1 (indexRows parts part.table part.index).length
  unique : ∀ a ∈ parts, ∀ b ∈ parts, a.table = b.table → a.index = b.index →
    a.nonUnique = b.nonUnique
  known : ∀ part ∈ parts, ∀ column, part.column = some column →
    (part.table, column) ∈ rowNames rows

section
variable {parts : List IndexRow} {table index : String}

theorem mem_indexRows {part : IndexRow} :
    part ∈ indexRows parts table index ↔
      part ∈ parts ∧ part.table = table ∧ part.index = index := by
  simp [indexRows, List.mem_mergeSort, List.mem_filter]

theorem Reported.pairwise_position {rows : List ColumnRow} (h : Reported rows parts) :
    (indexRows parts table index).Pairwise fun a b => a.position < b.position := by
  cases hparts : indexRows parts table index with
  | nil => exact .nil
  | cons part rest =>
    obtain ⟨hpart, rfl, rfl⟩ := mem_indexRows.1 (hparts ▸ List.mem_cons_self (a := part))
    refine hparts ▸ (List.pairwise_map (f := IndexRow.position)).1 ?_
    rw [h.counted part hpart]
    exact List.pairwise_lt_range'

/-- The places that rows about one index tell of are the places in it. -/
theorem placesOf_indexRows (parts : List IndexRow) (table index : String) :
    (placesOf (indexRows parts table index)).Perm ((placesOf parts).filter fun place =>
      place.table = table && place.membership.name = index) := by
  rw [filter_placesOf]
  exact placesOf_perm (List.mergeSort_perm _ _)

theorem map_column_placesOf (parts : List IndexRow) :
    (placesOf parts).map (·.column) = parts.filterMap (·.column) := by
  rw [placesOf, List.map_filterMap]
  refine List.filterMap_congr fun part _ => ?_
  cases part.column <;> rfl

theorem map_column_eq_iff {columns : List String}
    (h : (indexRows parts table index).filterMap (·.column) = columns) :
    (indexRows parts table index).map (·.column) = columns.map some ↔
      ∀ part ∈ indexRows parts table index, part.column.isSome := by
  subst h
  generalize indexRows parts table index = rows
  constructor
  · intro hall part hpart
    have hmem := List.mem_map_of_mem (f := (·.column)) hpart
    rw [hall] at hmem
    obtain ⟨column, -, hcolumn⟩ := List.mem_map.1 hmem
    rw [← hcolumn]
    rfl
  · intro hall
    rw [List.map_filterMap, ← List.filterMap_eq_map]
    refine (List.filterMap_congr fun part hpart => ?_).symm
    obtain ⟨column, hcolumn⟩ := Option.isSome_iff_exists.1 (hall part hpart)
    simp [hcolumn]

end

/-! ## Reading rows that may repeat a column -/

/-- A column with some of the memberships that rows give it, flagged by these. -/
structure Flagged (parts : List IndexRow) (column : Column) : Prop where
  memberships : column.memberships ⊆ membershipsOf parts column.table column.name
  unique : column.unique = column.memberships.any fun m =>
    m.unique && !m.primary && hasOneColumn parts column.table m.name

variable {version : Version} {parts : List IndexRow} {columns : List Column}

theorem flagged_columnsFrom {seen : List (String × String)} {rows : List ColumnRow}
    (h : columnsFrom version parts seen rows = .ok columns) :
    ∀ column ∈ columns, Flagged parts column := by
  induction rows generalizing seen columns with
  | nil =>
    obtain rfl := Except.ok.inj h
    exact fun column hcolumn => nomatch hcolumn
  | cons row rest ih =>
    rcases columnsFrom_cons_ok h with ⟨-, hrest⟩ | ⟨name, column, others, -, hcolumn, hrest, rfl⟩
    · exact ih hrest
    · refine List.forall_mem_cons.2 ⟨?_, ih hrest⟩
      obtain ⟨htable, hname, -, -, hmemberships, hunique⟩ := columnOfRow_ok hcolumn
      refine ⟨?_, by rw [hunique, hmemberships, htable]⟩
      rw [hmemberships, htable, hname]
      split
      · exact List.nil_subset _
      · exact List.Subset.refl _

/-- The columns that are read have the places that the rows tell of, as far as these are about
columns that have not been seen. -/
theorem places_columnsFrom {seen : List (String × String)} {rows : List ColumnRow}
    (h : columnsFrom version parts seen rows = .ok columns) :
    (places columns).Perm ((placesOf parts).filter fun place =>
      (rowNames rows).contains (place.table, place.column) &&
        !seen.contains (place.table, place.column)) := by
  induction rows generalizing seen columns with
  | nil =>
    obtain rfl := Except.ok.inj h
    simp [places, rowNames]
  | cons row rest ih =>
    rcases columnsFrom_cons_ok h with
      ⟨hnone, hrest⟩ | ⟨name, column, others, hsome, hcolumn, hrest, rfl⟩
    · have hnames : rowNames (row :: rest) = rowNames rest := by simp [rowNames, hnone]
      rw [hnames]
      exact ih hrest
    · obtain ⟨htable, hname, -, -, hmemberships, -⟩ := columnOfRow_ok hcolumn
      have hnames : rowNames (row :: rest) = (row.table, name) :: rowNames rest := by
        simp [rowNames, hsome]
      have hplaces : places (column :: others) = (if seen.contains (row.table, name) then []
          else membershipsOf parts row.table name).map (Place.mk row.table name) ++
            places others := by
        rw [places, List.flatMap_cons, htable, hname, hmemberships]
        rfl
      rw [hplaces, hnames]
      refine ((ih hrest).append_left _).trans ?_
      by_cases hseen : (row.table, name) ∈ seen
      case pos =>
        rw [if_pos (List.contains_iff_mem.2 hseen), List.map_nil, List.nil_append]
        refine .of_eq (List.filter_congr fun place _ => ?_)
        by_cases hplace : (place.table, place.column) = (row.table, name)
        · simp [hplace, hseen]
        · simp [hplace]
      case neg =>
        -- the places of this column, and those of the others
        rw [if_neg (by simpa using hseen), map_membershipsOf]
        refine .trans ?_ (List.filter_append_perm (fun place : Place =>
          place.table = row.table && place.column = name) _)
        rw [List.filter_filter, List.filter_filter]
        refine .of_eq (congrArg₂ _ (List.filter_congr fun place _ => ?_)
          (List.filter_congr fun place _ => ?_))
        · by_cases hplace : place.table = row.table ∧ place.column = name
          · simp [hplace, hseen]
          · simp [hplace]
        · by_cases hplace : place.table = row.table ∧ place.column = name
          · simp [hplace]
          · simp [hplace, not_and_or.1 hplace]

/-- If all parts are of known columns, the columns that are read have the places that the rows tell
of. -/
theorem places_columnsOfRows {dialect : MySql} {rows : List ColumnRow}
    (hrows : Reported rows parts) (hread : columnsOfRows dialect rows parts = .ok columns) :
    (places columns).Perm (placesOf parts) := by
  refine (places_columnsFrom hread).trans (.of_eq (List.filter_eq_self.2 fun place hplace => ?_))
  obtain ⟨part, hpart, hplace⟩ := List.mem_filterMap.1 hplace
  obtain ⟨column, hcolumn, rfl⟩ := Option.map_eq_some_iff.1 hplace
  have hknown := hrows.known part hpart column hcolumn
  simpa [IndexRow.place] using hknown

/-! ## The indexes that are read -/

theorem primary_of_mem_placesOf {place : Place} (h : place ∈ placesOf parts) :
    place.membership.primary = decide (place.membership.name = primaryIndex) := by
  obtain ⟨part, -, h⟩ := List.mem_filterMap.1 h
  obtain ⟨column, -, rfl⟩ := Option.map_eq_some_iff.1 h
  rfl

/-- The places of a table in an index other than its key are those that the rows of the index tell
of. -/
theorem places_of_index {table name : String} {found : List Place}
    (h : found.Perm ((placesOf parts).filter fun place => place.table = table))
    (hname : name ≠ primaryIndex) :
    ((found.filter fun place => !place.membership.primary).filter fun place =>
        place.membership.name = name).Perm (placesOf (indexRows parts table name)) := by
  refine ((h.filter _).filter _).trans
    (.trans (.of_eq ?_) (placesOf_indexRows parts table name).symm)
  rw [List.filter_filter, List.filter_filter]
  refine List.filter_congr fun place hplace => ?_
  rw [primary_of_mem_placesOf hplace]
  by_cases hindex : place.membership.name = name
  · simp [hindex, hname]
  · simp [hindex]

theorem sort_places_of_rows {rows : List ColumnRow} (hrows : Reported rows parts)
    {table name : String} {found : List Place}
    (h : found.Perm (placesOf (indexRows parts table name))) :
    (((found.map partOf).map Prod.snd).mergeSort keyPartBefore).map Prod.snd =
      (indexRows parts table name).filterMap (·.column) := by
  have hsorted : ((placesOf (indexRows parts table name)).map (Prod.snd ∘ partOf)).Pairwise
      fun a b => a.1 < b.1 := by
    refine List.pairwise_map.2 (hrows.pairwise_position.filterMap _ fun a b hab c hc d hd => ?_)
    obtain ⟨_, -, rfl⟩ := Option.map_eq_some_iff.1 hc
    obtain ⟨_, -, rfl⟩ := Option.map_eq_some_iff.1 hd
    exact hab
  rw [List.map_map, mergeSort_eq_of_perm keyPartBefore_trans keyPartBefore_total
    fst_le_of_keyPartBefore (h.map _) hsorted, List.map_map]
  exact map_column_placesOf _

theorem nonUnique_eq {rows : List ColumnRow} (hrows : Reported rows parts) {table name : String}
    {part : IndexRow} (hpart : part ∈ indexRows parts table name) {place : Place}
    (hplace : place ∈ placesOf (indexRows parts table name)) :
    part.nonUnique = !place.membership.unique := by
  obtain ⟨other, hother, hplace⟩ := List.mem_filterMap.1 hplace
  obtain ⟨column, -, rfl⟩ := Option.map_eq_some_iff.1 hplace
  obtain ⟨hpart, htable, hname⟩ := mem_indexRows.1 hpart
  obtain ⟨hother, htable', hname'⟩ := mem_indexRows.1 hother
  rw [hrows.unique part hpart other hother (htable.trans htable'.symm) (hname.trans hname'.symm)]
  exact (Bool.not_not _).symm

/-- An index that is read has the columns of its rows, in the order of their positions, and is
unique as all of them say. -/
theorem index_of_rows {rows : List ColumnRow} (hrows : Reported rows parts) {live : LiveTable}
    {table name : String}
    (hplaces :
      (places live.columns).Perm ((placesOf parts).filter fun place => place.table = table))
    {index : Index} (hindex : live.indexes.find? name = some index) :
    (indexRows parts table name).filterMap (·.column) = index.columns ∧
      ∀ part ∈ indexRows parts table name, part.nonUnique = !index.unique := by
  rw [indexes_eq_places, NameMap.find?_mapValues, NameMap.find?_group, filter_indexParts] at hindex
  obtain ⟨parts', hfound, rfl⟩ := Option.map_eq_some_iff.1 hindex
  dsimp only at hfound
  split at hfound
  · cases hfound
  rename_i hne
  obtain rfl := Option.some.inj hfound
  -- some place is in the index, so it is not the key
  obtain ⟨first, rest, hfirst⟩ := List.exists_cons_of_ne_nil
    (List.map_eq_nil_iff.not.1 (List.isEmpty_iff.not.1 hne))
  have hmem := List.mem_filter.1 (hfirst ▸ List.mem_cons_self (a := first) (l := rest))
  have hsecondary := (List.mem_filter.1 hmem.1).2
  have hplace := (List.mem_filter.1 (hplaces.mem_iff.1 (List.mem_filter.1 hmem.1).1)).1
  have hname : name ≠ primaryIndex := by
    rw [primary_of_mem_placesOf hplace, of_decide_eq_true hmem.2] at hsecondary
    simpa using hsecondary
  have hindex := places_of_index hplaces hname
  refine ⟨(sort_places_of_rows hrows hindex).symm, fun part hpart => ?_⟩
  rw [hfirst, nonUnique_eq hrows hpart (hindex.mem_iff.1 (hfirst ▸ List.mem_cons_self))]
  rfl

/-- A column that is flagged as unique is all that has a place in some unique index. -/
theorem rows_of_unique {rows : List ColumnRow} (hrows : Reported rows parts) {column : Column}
    (h : Flagged parts column) (hunique : column.unique = true) :
    ∃ name, name ≠ primaryIndex ∧
      (indexRows parts column.table name).filterMap (·.column) = [column.name] ∧
      ∀ part ∈ indexRows parts column.table name, part.nonUnique = false := by
  rw [h.unique, List.any_eq_true] at hunique
  obtain ⟨membership, hmembership, hflags⟩ := hunique
  simp only [Bool.and_eq_true, Bool.not_eq_true'] at hflags
  obtain ⟨⟨hunique, hsecondary⟩, hone⟩ := hflags
  have hplace := mem_membershipsOf.1 (h.memberships hmembership)
  have hname : membership.name ≠ primaryIndex := by
    have hprimary := primary_of_mem_placesOf hplace
    rw [hsecondary] at hprimary
    simpa using hprimary.symm
  -- the place of the column is the only one in its index
  have hrowsOf := placesOf_indexRows parts column.table membership.name
  have hmem := hrowsOf.mem_iff.2 (List.mem_filter.2 ⟨hplace, by simp⟩)
  rw [hasOneColumn_eq, hasOnePlace, ← hrowsOf.length_eq, beq_iff_eq, List.length_eq_one_iff] at hone
  obtain ⟨only, honly⟩ := hone
  obtain rfl : _ = only := List.mem_singleton.1 (honly ▸ hmem)
  refine ⟨membership.name, hname, ?_, fun part hpart => ?_⟩
  · rw [← map_column_placesOf, honly]
    rfl
  · rw [nonUnique_eq hrows hpart hmem, hunique]
    rfl

/-! ## Plans that leave an index alone -/

/-- Statements leave an index of a table alone: none of them drops or creates one of its name. -/
structure Untouched (statements : List Statement) (table name : String) : Prop where
  not_dropped : ⟨table, dropIndex table name⟩ ∉ statements
  not_created : ∀ index : Index, index.name = name →
    ⟨table, index.createStatement table⟩ ∉ statements

theorem index_of_untouched {dialect : MySql} {tables : List TableDecl}
    {statements : List Statement}
    (hplan : (Dialect.mysql dialect).plan tables columns = .ok statements) {table : TableDecl}
    (htable : table ∈ tables) {live : LiveTable}
    (hlive : (liveTables columns).find? table.name = some live) {name : String} {index : Index}
    (hindex : table.indexes.find? name = some index)
    (huntouched : Untouched statements table.name name) : live.indexes.find? name = some index := by
  by_contra hne
  have hcreate : .createIndex table.name index ∈
      (Dialect.mysql dialect).operations tables columns := by
    rw [operations_eq]
    refine List.mem_append_left _ (List.mem_flatMap.2 ⟨table, mem_inNameOrder.2 htable, ?_⟩)
    rw [Dialect.declaredOperations, hlive]
    exact List.mem_append_right _ (List.mem_map_of_mem (mem_create.2 ⟨name, hindex, hne⟩))
  obtain ⟨-, hplan⟩ := bind_eq_ok hplan
  obtain ⟨statement, hstatement, hsql⟩ := exists_right_of_mem (forall₂_statements hplan) hcreate
  obtain rfl : ⟨table.name, index.createStatement table.name⟩ = statement :=
    (List.cons.inj (Except.ok.inj hsql)).1
  exact huntouched.not_created index (declared_index hindex).name_eq hstatement

theorem places_live {dialect : MySql} {rows : List ColumnRow} (hrows : Reported rows parts)
    (hread : columnsOfRows dialect rows parts = .ok columns) {name : String} {live : LiveTable}
    (hlive : (liveTables columns).find? name = some live) :
    (places live.columns).Perm ((placesOf parts).filter fun place => place.table = name) := by
  obtain ⟨-, -, hperm⟩ := live_table hlive
  refine (places_perm hperm).trans ?_
  rw [places_filter]
  exact (places_columnsOfRows hrows hread).filter _

/-- An index that a plan leaves alone is as unique as the declared one, and those of its parts that
have a column are the declared ones in their order; these are all of its parts just if none is an
expression. Likewise a column is flagged as unique only if it is all that has a column in some
unique index, and it is the only part just if no other one is an expression. -/
theorem untouched_index_iff (dialect : MySql) {rows : List ColumnRow} (hrows : Reported rows parts)
    (hread : columnsOfRows dialect rows parts = .ok columns) :
    (∀ tables statements, (Dialect.mysql dialect).plan tables columns = .ok statements →
      ∀ table ∈ tables, ∀ live, (liveTables columns).find? table.name = some live →
      ∀ name index, table.indexes.find? name = some index →
      Untouched statements table.name name →
        (∀ part ∈ indexRows parts table.name name, part.nonUnique = !index.unique) ∧
        (indexRows parts table.name name).filterMap (·.column) = index.columns ∧
        ((indexRows parts table.name name).map (·.column) = index.columns.map some ↔
          ∀ part ∈ indexRows parts table.name name, part.column.isSome)) ∧
    ∀ column ∈ columns, column.unique = true →
      ∃ name, name ≠ primaryIndex ∧
        (∀ part ∈ indexRows parts column.table name, part.nonUnique = false) ∧
        (indexRows parts column.table name).filterMap (·.column) = [column.name] ∧
        ((indexRows parts column.table name).map (·.column) = [some column.name] ↔
          ∀ part ∈ indexRows parts column.table name, part.column.isSome) := by
  constructor
  · intro tables statements hplan table htable live hlive name index hindex huntouched
    have hfound := index_of_untouched hplan htable hlive hindex huntouched
    obtain ⟨hcolumns, hunique⟩ := index_of_rows hrows (places_live hrows hread hlive) hfound
    exact ⟨hunique, hcolumns, map_column_eq_iff hcolumns⟩
  · intro column hcolumn hunique
    obtain ⟨name, hname, hcolumns, hall⟩ :=
      rows_of_unique hrows (flagged_columnsFrom hread column hcolumn) hunique
    exact ⟨name, hname, hall, hcolumns, map_column_eq_iff hcolumns⟩

/-- The rows of a table with a unique index on a column, as it is declared, and an index on an
expression, which is not seen at all. -/
theorem untouched_index_items :
    let rows : List ColumnRow :=
      [{ table := "items", column := some "code", position := 1, columnType := "bigint"
         isNullable := "NO" }]
    let parts : List IndexRow :=
      [⟨"items", "by_length", none, 1, true⟩, ⟨"items", "by_code", some "code", 1, false⟩]
    let items : TableDecl := { name := "items", fields := [
      { name := "code", type := "i64", unique := true, uniqueIndex := some "by_code" }] }
    ∃ columns, columnsOfRows {} rows parts = .ok columns ∧
      (Dialect.mysql {}).plan [items] columns = .ok [] ∧
      (∀ part ∈ indexRows parts "items" "by_code", part.nonUnique = false) ∧
      (indexRows parts "items" "by_code").map (·.column) = [some "code"] ∧
      ∀ column ∈ columns, column.unique = true →
        ∃ name, name ≠ primaryIndex ∧
          (indexRows parts column.table name).filterMap (·.column) = [column.name] := by
  intro rows parts items
  have hrows : Reported rows parts :=
    ⟨by decide +kernel, by decide, by simp [parts, rows, rowNames]⟩
  let column : Column :=
    { table := "items", name := "code", dataType := "BIGINT", position := 1, nullable := false
      unique := true, memberships := [⟨"by_code", 1, true, false⟩] }
  have hread : columnsOfRows {} rows parts = .ok [column] := eq_ok_of_toOption (by decide +kernel)
  have hplan : (Dialect.mysql {}).plan [items] [column] = .ok [] :=
    eq_ok_of_toOption (by decide +kernel)
  obtain ⟨hindexes, hunique⟩ := untouched_index_iff {} hrows hread
  obtain ⟨hall, -, hcolumns⟩ := hindexes [items] [] hplan items (List.mem_singleton_self _)
    ⟨"items", [column]⟩ (by decide +kernel) "by_code" ⟨"by_code", ["code"], true⟩
    (by decide +kernel) ⟨List.not_mem_nil, fun _ _ => List.not_mem_nil⟩
  refine ⟨[column], hread, hplan, hall, hcolumns.2 (by decide +kernel),
    fun column hcolumn hset => ?_⟩
  obtain ⟨name, hname, -, hparts, -⟩ := hunique column hcolumn hset
  exact ⟨name, hname, hparts⟩

/-- A unique index on a column and an expression passes for one on the column alone. -/
theorem expression_not_seen :
    let rows : List ColumnRow :=
      [{ table := "items", column := some "code", position := 1, columnType := "bigint"
         isNullable := "NO" }]
    let parts : List IndexRow :=
      [⟨"items", "by_code", some "code", 1, false⟩, ⟨"items", "by_code", none, 2, false⟩]
    let items : TableDecl := { name := "items", fields := [
      { name := "code", type := "i64", unique := true, uniqueIndex := some "by_code" }] }
    let column : Column :=
      { table := "items", name := "code", dataType := "BIGINT", position := 1, nullable := false
        unique := true, memberships := [⟨"by_code", 1, true, false⟩] }
    Reported rows parts ∧ columnsOfRows {} rows parts = .ok [column] ∧
      (Dialect.mysql {}).plan [items] [column] = .ok [] ∧
      items.indexes.find? "by_code" = some ⟨"by_code", ["code"], true⟩ ∧
      (indexRows parts "items" "by_code").map (·.column) = [some "code", none] := by
  intro rows parts items column
  have hsorted : indexRows parts "items" "by_code" = parts :=
    List.mergeSort_of_pairwise (by decide)
  refine ⟨⟨?_, by decide, by simp [parts, rows, rowNames]⟩, eq_ok_of_toOption (by decide +kernel),
    eq_ok_of_toOption (by decide +kernel), by decide +kernel, by rw [hsorted]; rfl⟩
  intro part hpart
  have hindex : part.table = "items" ∧ part.index = "by_code" := by
    revert part
    decide
  rw [hindex.1, hindex.2, hsorted]
  rfl

end SchemaPlan.MySql
