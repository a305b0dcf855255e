import SchemaPlan.Proofs.Comparison
import SchemaPlan.Proofs.Layout

/-!
# The operations of one table, phase by phase

The operations of a live table come in six lists: the key, dropped indexes, dropped columns, new
columns, changed columns, new indexes. Here is what each list does to a layout and when a table can
carry it out.

* `run_tableOperations`: all six lead from the live table to the declared one.
* `run_settleOperations`: all but the last leave the declared columns and key, and the indexes that
  are kept.
* `executable_tableOperations`: each operation is possible when its turn comes.
-/
namespace SchemaPlan

namespace FieldDecl

/-- The entry of a field's column in a layout. -/
def mark (field : FieldDecl) : String × Bool :=
  (field.columnName, field.autoIncrement)

end FieldDecl

theorem map_fst_mark (fields : List FieldDecl) :
    (fields.map FieldDecl.mark).map Prod.fst = fields.map (·.columnName) := by
  rw [List.map_map]
  rfl

/-! ## Columns that are set -/

namespace TableLayout

theorem key_foldl_setColumn (fields : List FieldDecl) (layout : TableLayout) :
    (fields.foldl setColumn layout).key = layout.key := by
  induction fields generalizing layout with
  | nil => rfl
  | cons field rest ih => exact ih _

theorem indexes_foldl_setColumn (fields : List FieldDecl) (layout : TableLayout) :
    (fields.foldl setColumn layout).indexes = layout.indexes := by
  induction fields generalizing layout with
  | nil => rfl
  | cons field rest ih => exact ih _

theorem find?_foldl_setColumn {fields : List FieldDecl} (layout : TableLayout)
    (hnodup : (fields.map (·.columnName)).Nodup) (name : String) :
    (fields.foldl setColumn layout).columns.find? name =
      (NameMap.findIn name (fields.map FieldDecl.mark)).or (layout.columns.find? name) := by
  induction fields generalizing layout with
  | nil => rfl
  | cons field rest ih =>
    rw [List.map_cons, List.nodup_cons] at hnodup
    rw [List.foldl_cons, ih _ hnodup.2, setColumn, NameMap.find?_insert, List.map_cons]
    by_cases heq : field.columnName = name
    · have hrest : NameMap.findIn name (rest.map FieldDecl.mark) = none := by
        rw [NameMap.findIn_eq_none_iff, map_fst_mark, ← heq]
        exact hnodup.1
      rw [if_pos heq, hrest, NameMap.findIn_cons_of_eq heq]
      rfl
    · rw [if_neg heq, NameMap.findIn_cons_of_ne heq]

/-- A layout has the columns that it had and those that are set. -/
theorem contains_foldl_setColumn {fields : List FieldDecl} (layout : TableLayout)
    (hnodup : (fields.map (·.columnName)).Nodup) (name : String) :
    (fields.foldl setColumn layout).columns.contains name = true ↔
      name ∈ fields.map (·.columnName) ∨ layout.columns.contains name = true := by
  simp only [NameMap.contains, find?_foldl_setColumn layout hnodup, Option.isSome_or,
    Bool.or_eq_true]
  rw [Option.isSome_iff_ne_none, Ne, NameMap.findIn_eq_none_iff, not_not, map_fst_mark]

/-! ## Runs of one kind of operation -/

variable (t : String) (layout : TableLayout)

theorem run_addColumns (fields : List FieldDecl) :
    layout.run (fields.map (.addColumn t)) = fields.foldl setColumn layout :=
  List.foldl_map

theorem run_alterColumns (changes : List (FieldDecl × FieldDecl)) :
    layout.run (changes.map fun change => .alterColumn t change.1 change.2) =
      (changes.map Prod.snd).foldl setColumn layout := by
  rw [run, List.foldl_map, List.foldl_map]
  rfl

theorem run_dropIndexes (names : List String) :
    (layout.run (names.map (.dropIndex t))).columns = layout.columns ∧
      (layout.run (names.map (.dropIndex t))).key = layout.key ∧
      ∀ name, (layout.run (names.map (.dropIndex t))).indexes.find? name =
        if name ∈ names then none else layout.indexes.find? name := by
  induction names generalizing layout with
  | nil => exact ⟨rfl, rfl, fun _ => rfl⟩
  | cons head rest ih =>
    obtain ⟨hcolumns, hkey, hindexes⟩ := ih (layout.apply (.dropIndex t head))
    refine ⟨hcolumns, hkey, fun name => ?_⟩
    rw [List.map_cons, run, List.foldl_cons, ← run, hindexes name, apply, NameMap.find?_erase]
    by_cases hrest : name ∈ rest <;> by_cases hhead : name = head <;> simp [hrest, hhead]

theorem run_dropColumns (names : List String) :
    (layout.run (names.map (.dropColumn t))).indexes = layout.indexes ∧
      (layout.run (names.map (.dropColumn t))).key = layout.key ∧
      ∀ name, (layout.run (names.map (.dropColumn t))).columns.find? name =
        if name ∈ names then none else layout.columns.find? name := by
  induction names generalizing layout with
  | nil => exact ⟨rfl, rfl, fun _ => rfl⟩
  | cons head rest ih =>
    obtain ⟨hindexes, hkey, hcolumns⟩ := ih (layout.apply (.dropColumn t head))
    refine ⟨hindexes, hkey, fun name => ?_⟩
    rw [List.map_cons, run, List.foldl_cons, ← run, hcolumns name, apply, NameMap.find?_erase]
    by_cases hrest : name ∈ rest <;> by_cases hhead : name = head <;> simp [hrest, hhead]

theorem run_createIndexes {indexes : List Index} (hnodup : (indexes.map (·.name)).Nodup) :
    (layout.run (indexes.map (.createIndex t))).columns = layout.columns ∧
      (layout.run (indexes.map (.createIndex t))).key = layout.key ∧
      ∀ name, (layout.run (indexes.map (.createIndex t))).indexes.find? name =
        (indexes.find? fun index => index.name = name).or (layout.indexes.find? name) := by
  induction indexes generalizing layout with
  | nil => exact ⟨rfl, rfl, fun _ => rfl⟩
  | cons head rest ih =>
    rw [List.map_cons, List.nodup_cons] at hnodup
    obtain ⟨hcolumns, hkey, hindexes⟩ := ih (layout.apply (.createIndex t head)) hnodup.2
    refine ⟨hcolumns, hkey, fun name => ?_⟩
    rw [List.map_cons, run, List.foldl_cons, ← run, hindexes name, apply, NameMap.find?_insert,
      List.find?_cons]
    by_cases hhead : head.name = name
    · have : rest.find? (fun index => index.name = name) = none := by
        simp only [List.find?_eq_none, decide_eq_true_eq]
        exact fun index hi he => hnodup.1 (List.mem_map.2 ⟨index, hi, he.trans hhead.symm⟩)
      simp [hhead, this]
    · simp [hhead]

/-! ## When one kind of operation is possible -/

theorem executable_dropIndexes {names : List String} (hnodup : names.Nodup)
    (h : ∀ name ∈ names, layout.indexes.contains name = true) :
    Executable Admits apply layout (names.map (.dropIndex t)) := by
  induction names generalizing layout with
  | nil => trivial
  | cons head rest ih =>
    rw [List.nodup_cons] at hnodup
    refine ⟨h head List.mem_cons_self, ih _ hnodup.2 fun name hname => ?_⟩
    have hne : name ≠ head := fun he => hnodup.1 (he ▸ hname)
    rw [NameMap.contains, apply, NameMap.find?_erase, if_neg hne]
    exact h name (List.mem_cons_of_mem _ hname)

theorem executable_dropColumns {names : List String} (hnodup : names.Nodup)
    (h : ∀ name ∈ names, layout.columns.contains name = true ∧ name ∉ layout.key ∧
      ∀ index ∈ layout.indexes.values, name ∉ index.columns) :
    Executable Admits apply layout (names.map (.dropColumn t)) := by
  induction names generalizing layout with
  | nil => trivial
  | cons head rest ih =>
    rw [List.nodup_cons] at hnodup
    refine ⟨h head List.mem_cons_self, ih _ hnodup.2 fun name hname => ?_⟩
    have hne : name ≠ head := fun he => hnodup.1 (he ▸ hname)
    obtain ⟨hcontains, hfree⟩ := h name (List.mem_cons_of_mem _ hname)
    refine ⟨?_, hfree⟩
    rw [NameMap.contains, apply, NameMap.find?_erase, if_neg hne]
    exact hcontains

theorem executable_addColumns {fields : List FieldDecl}
    (hnodup : (fields.map (·.columnName)).Nodup)
    (h : ∀ field ∈ fields, ¬ layout.columns.contains field.columnName = true) :
    Executable Admits apply layout (fields.map (.addColumn t)) := by
  induction fields generalizing layout with
  | nil => trivial
  | cons head rest ih =>
    rw [List.map_cons, List.nodup_cons] at hnodup
    refine ⟨h head List.mem_cons_self, ih _ hnodup.2 fun field hfield => ?_⟩
    have hne : ¬ head.columnName = field.columnName := fun he =>
      hnodup.1 (List.mem_map.2 ⟨field, hfield, he.symm⟩)
    rw [NameMap.contains, apply, setColumn, NameMap.find?_insert, if_neg hne]
    exact h field (List.mem_cons_of_mem _ hfield)

theorem executable_alterColumns {changes : List (FieldDecl × FieldDecl)}
    (h : ∀ change ∈ changes, change.1.columnName = change.2.columnName ∧
      layout.columns.contains change.2.columnName = true) :
    Executable Admits apply layout
      (changes.map fun change => .alterColumn t change.1 change.2) := by
  induction changes generalizing layout with
  | nil => trivial
  | cons head rest ih =>
    refine ⟨h head List.mem_cons_self, ih _ fun change hchange => ?_⟩
    obtain ⟨heq, hcontains⟩ := h change (List.mem_cons_of_mem _ hchange)
    refine ⟨heq, ?_⟩
    rw [NameMap.contains, apply, setColumn, NameMap.find?_insert]
    split
    · rfl
    · exact hcontains

theorem executable_createIndexes {indexes : List Index} (hnodup : (indexes.map (·.name)).Nodup)
    (h : ∀ index ∈ indexes, ¬ layout.indexes.contains index.name = true ∧ index.columns ≠ [] ∧
      index.columns.Nodup ∧ ∀ column ∈ index.columns, layout.columns.contains column = true) :
    Executable Admits apply layout (indexes.map (.createIndex t)) := by
  induction indexes generalizing layout with
  | nil => trivial
  | cons head rest ih =>
    rw [List.map_cons, List.nodup_cons] at hnodup
    refine ⟨h head List.mem_cons_self, ih _ hnodup.2 fun index hindex => ?_⟩
    have hne : ¬ head.name = index.name := fun he =>
      hnodup.1 (List.mem_map.2 ⟨index, hindex, he.symm⟩)
    obtain ⟨hfresh, hrest⟩ := h index (List.mem_cons_of_mem _ hindex)
    refine ⟨?_, hrest⟩
    rw [NameMap.contains, apply, NameMap.find?_insert, if_neg hne]
    exact hfresh

end TableLayout

/-! ## The lists of a live table -/

section
variable (dialect : Dialect) (table : TableDecl) (live : LiveTable)

/-- The new columns that the change of the key brings. -/
def fieldsWithKey : List FieldDecl :=
  if table.primaryKey = live.primaryKey then []
  else table.fields.filter fun field =>
    table.primaryKey.contains field.columnName && (live.column? field.columnName).isNone

def fieldsToAdd : List FieldDecl :=
  table.fields.filter fun field => (live.column? field.columnName).isNone &&
    !((fieldsWithKey table live).map (·.columnName)).contains field.columnName

def columnsToDrop : List String :=
  (live.columns.filter fun column => !table.columnNames.contains column.name).map (·.name)

/-- The change of a field's column, if it has to change. -/
def alteration? (field : FieldDecl) : Option (FieldDecl × FieldDecl) :=
  (live.column? field.columnName).bind fun column =>
    if dialect.columnChanged field ((soleUniqueColumns table.indexes).contains field.columnName)
      column then some (dialect.fieldOfColumn column, field)
    else none

def keptIndexes : NameMap Index :=
  live.indexes.filter fun name index => table.indexes.find? name = some index

theorem addedByKey_keyOperations :
    Dialect.addedByKey (Dialect.keyOperations table live) =
      (fieldsWithKey table live).map (·.columnName) := by
  unfold Dialect.keyOperations fieldsWithKey
  split <;> simp [Dialect.addedByKey]

/-- The operations that free the key and the names of indexes. -/
def releaseOperations : List Operation :=
  Dialect.keyOperations table live ++
    (diffIndexes table.indexes live.indexes).drop.map (.dropIndex table.name)

/-- The operations that come before any index is created. -/
def settleOperations : List Operation :=
  releaseOperations table live ++
    (columnsToDrop table live).map (.dropColumn table.name) ++
    (fieldsToAdd table live).map (.addColumn table.name) ++
    (table.fields.filterMap (alteration? dialect table live)).map
      (fun change => .alterColumn table.name change.1 change.2)

theorem tableOperations_eq :
    dialect.tableOperations table live =
      settleOperations dialect table live ++
        (diffIndexes table.indexes live.indexes).create.map (.createIndex table.name) := by
  have halter : (table.fields.filterMap (alteration? dialect table live)).map
      (fun change => Operation.alterColumn table.name change.1 change.2) =
      table.fields.filterMap fun field => (live.column? field.columnName).bind fun column =>
        if dialect.columnChanged field ((soleUniqueColumns table.indexes).contains field.columnName)
          column then
          some (Operation.alterColumn table.name (dialect.fieldOfColumn column) field)
        else none := by
    rw [List.map_filterMap]
    congr 1
    funext field
    unfold alteration?
    cases live.column? field.columnName with
    | none => rfl
    | some column =>
      simp only [Option.bind_some]
      split <;> rfl
  rw [settleOperations, releaseOperations, halter, columnsToDrop, List.map_map, fieldsToAdd,
    ← addedByKey_keyOperations]
  rfl

theorem keepsTable_of_mem {op : Operation} (h : op ∈ dialect.tableOperations table live) :
    op.KeepsTable table.name := by
  rw [tableOperations_eq, settleOperations, releaseOperations] at h
  simp only [List.mem_append, List.mem_map] at h
  rcases h with ((((h | ⟨_, -, rfl⟩) | ⟨_, -, rfl⟩) | ⟨_, -, rfl⟩) | ⟨_, -, rfl⟩) | ⟨_, -, rfl⟩
  · unfold Dialect.keyOperations at h
    split at h
    · cases h
    · obtain rfl := List.mem_singleton.1 h
      exact ⟨rfl, fun _ _ => nofun, fun _ _ => nofun⟩
  all_goals exact ⟨rfl, fun _ _ => nofun, fun _ _ => nofun⟩

/-! ## The columns of the lists -/

theorem mem_fieldsWithKey {field : FieldDecl} (h : field ∈ fieldsWithKey table live) :
    field ∈ table.fields ∧ live.column? field.columnName = none := by
  unfold fieldsWithKey at h
  split at h
  · cases h
  · have := List.mem_filter.1 h
    simp only [Bool.and_eq_true, Option.isNone_iff_eq_none] at this
    exact ⟨this.1, this.2.2⟩

theorem mem_fieldsToAdd {field : FieldDecl} :
    field ∈ fieldsToAdd table live ↔ field ∈ table.fields ∧ live.column? field.columnName = none ∧
      field.columnName ∉ (fieldsWithKey table live).map (·.columnName) := by
  simp only [fieldsToAdd, List.mem_filter, Bool.and_eq_true, Option.isNone_iff_eq_none,
    Bool.not_eq_true', List.contains_eq_mem, decide_eq_false_iff_not]

theorem mem_columnsToDrop {name : String} :
    name ∈ columnsToDrop table live ↔
      name ∈ live.columns.map (·.name) ∧ name ∉ table.columnNames := by
  simp only [columnsToDrop, List.mem_map, List.mem_filter, Bool.not_eq_true',
    List.contains_eq_mem, decide_eq_false_iff_not]
  constructor
  · rintro ⟨column, ⟨hmem, hnot⟩, rfl⟩
    exact ⟨⟨column, hmem, rfl⟩, hnot⟩
  · rintro ⟨⟨column, hmem, rfl⟩, hnot⟩
    exact ⟨column, ⟨hmem, hnot⟩, rfl⟩

theorem mem_alterations {change : FieldDecl × FieldDecl} :
    change ∈ table.fields.filterMap (alteration? dialect table live) ↔
      change.2 ∈ table.fields ∧ ∃ column, live.column? change.2.columnName = some column ∧
        change.1 = dialect.fieldOfColumn column ∧
        dialect.columnChanged change.2
          ((soleUniqueColumns table.indexes).contains change.2.columnName) column = true := by
  obtain ⟨old, new⟩ := change
  simp only [List.mem_filterMap, alteration?, Option.bind_eq_some_iff,
    Option.ite_none_right_eq_some, Option.some.injEq, Prod.mk.injEq]
  constructor
  · rintro ⟨field, hfield, column, hcolumn, hchanged, rfl, rfl⟩
    exact ⟨hfield, column, hcolumn, rfl, hchanged⟩
  · rintro ⟨hfield, column, hcolumn, rfl, hchanged⟩
    exact ⟨new, hfield, column, hcolumn, hchanged, rfl, rfl⟩

theorem find?_keptIndexes {name : String} {index : Index} :
    (keptIndexes table live).find? name = some index ↔
      live.indexes.find? name = some index ∧ table.indexes.find? name = some index := by
  rw [keptIndexes, NameMap.find?_filter, Option.filter_eq_some_iff, decide_eq_true_eq]

/-! ## Their runs -/

/-- The change of the key gives the table the declared key. -/
theorem run_keyOperations :
    (TableLayout.ofLive live).run (Dialect.keyOperations table live) =
      { (fieldsWithKey table live).foldl TableLayout.setColumn (.ofLive live) with
        key := table.primaryKey } := by
  unfold Dialect.keyOperations fieldsWithKey
  split
  · rename_i hkey
    rw [hkey]
    rfl
  · rfl

/-- Once key and names are free, the key is the declared one, the indexes are those that are kept,
and the new columns of the key have come to the live ones. -/
theorem run_releaseOperations :
    (TableLayout.ofLive live).run (releaseOperations table live) =
      { columns := ((fieldsWithKey table live).foldl TableLayout.setColumn (.ofLive live)).columns
        key := table.primaryKey
        indexes := keptIndexes table live } := by
  rw [releaseOperations, TableLayout.run_append, run_keyOperations]
  obtain ⟨hcolumns, hkey, hindexes⟩ := TableLayout.run_dropIndexes table.name
    { (fieldsWithKey table live).foldl TableLayout.setColumn (.ofLive live) with
      key := table.primaryKey } (diffIndexes table.indexes live.indexes).drop
  refine TableLayout.ext hcolumns hkey (NameMap.ext_find? fun name => ?_)
  rw [hindexes name, keptIndexes, NameMap.find?_filter, TableLayout.indexes_foldl_setColumn]
  simp only [mem_drop, TableLayout.ofLive]
  cases hlive : live.indexes.find? name with
  | none => simp
  | some index =>
    by_cases hwanted : table.indexes.find? name = some index <;>
      simp [Option.filter_some, hwanted]

theorem find?_ofLive (name : String) :
    (TableLayout.ofLive live).columns.find? name =
      (live.column? name).map (·.autoIncrement) := by
  rw [TableLayout.ofLive, NameMap.find?_ofFirst, LiveTable.column?]
  induction live.columns with
  | nil => rfl
  | cons column rest ih =>
    by_cases h : column.name = name
    · rw [List.map_cons, NameMap.findIn_cons_of_eq h, List.find?_cons_of_pos (by simpa using h)]
      rfl
    · rw [List.map_cons, NameMap.findIn_cons_of_ne h, List.find?_cons_of_neg (by simpa using h), ih]

/-- What the lists before the created indexes leave of a column: it is altered, or added, or
dropped, or added with the key, or a live one. -/
def settledMark (name : String) : Option Bool :=
  (NameMap.findIn name
      (((table.fields.filterMap (alteration? dialect table live)).map Prod.snd).map
        FieldDecl.mark)).or
    ((NameMap.findIn name ((fieldsToAdd table live).map FieldDecl.mark)).or
      (if name ∈ columnsToDrop table live then none
      else (NameMap.findIn name ((fieldsWithKey table live).map FieldDecl.mark)).or
        ((live.column? name).map (·.autoIncrement))))

variable {dialect table live}

theorem nodup_sublist {fields : List FieldDecl} (hsub : fields.Sublist table.fields)
    (hnodup : table.columnNames.Nodup) : (fields.map (·.columnName)).Nodup :=
  hnodup.sublist (hsub.map _)

theorem nodup_fieldsWithKey (hnodup : table.columnNames.Nodup) :
    ((fieldsWithKey table live).map (·.columnName)).Nodup := by
  refine nodup_sublist ?_ hnodup
  unfold fieldsWithKey
  split
  · exact List.nil_sublist _
  · exact List.filter_sublist

theorem nodup_fieldsToAdd (hnodup : table.columnNames.Nodup) :
    ((fieldsToAdd table live).map (·.columnName)).Nodup :=
  nodup_sublist List.filter_sublist hnodup

theorem findIn_mark {fields : List FieldDecl} (hnodup : (fields.map (·.columnName)).Nodup)
    {field : FieldDecl} (h : field ∈ fields) :
    NameMap.findIn field.columnName (fields.map FieldDecl.mark) = some field.autoIncrement :=
  NameMap.findIn_eq_some_of_mem (e := field.mark) (List.mem_map_of_mem h)
    (by rwa [map_fst_mark])

theorem findIn_mark_eq_none {fields : List FieldDecl} {name : String}
    (h : name ∉ fields.map (·.columnName)) :
    NameMap.findIn name (fields.map FieldDecl.mark) = none := by
  rwa [NameMap.findIn_eq_none_iff, map_fst_mark]

theorem eq_of_columnName_eq (hnodup : table.columnNames.Nodup) {a b : FieldDecl}
    (ha : a ∈ table.fields) (hb : b ∈ table.fields) (h : a.columnName = b.columnName) : a = b :=
  List.inj_on_of_nodup_map hnodup ha hb h

theorem map_snd_alterations (fields : List FieldDecl) :
    (fields.filterMap (alteration? dialect table live)).map Prod.snd =
      fields.filter fun field => (alteration? dialect table live field).isSome := by
  induction fields with
  | nil => rfl
  | cons field rest ih =>
    cases h : alteration? dialect table live field with
    | none => simp [h, ih]
    | some change =>
      have : change.2 = field := by
        simp only [alteration?, Option.bind_eq_some_iff, Option.ite_none_right_eq_some,
          Option.some.injEq] at h
        obtain ⟨column, -, -, rfl⟩ := h
        rfl
      simp [h, ih, this]

theorem settledMark_undeclared {name : String} (h : name ∉ table.columnNames) :
    settledMark dialect table live name = none := by
  have hnone {fields : List FieldDecl} (hsub : fields ⊆ table.fields) :
      NameMap.findIn name (fields.map FieldDecl.mark) = none :=
    findIn_mark_eq_none fun hmem => h (List.map_subset _ hsub hmem)
  have halter : ((table.fields.filterMap (alteration? dialect table live)).map Prod.snd) ⊆
      table.fields := by
    rw [map_snd_alterations]
    exact List.filter_subset_self _
  have hwith : fieldsWithKey table live ⊆ table.fields := fun field hf =>
    (mem_fieldsWithKey table live hf).1
  have hadd : fieldsToAdd table live ⊆ table.fields := List.filter_subset_self _
  rw [settledMark, hnone halter, hnone hadd, hnone hwith]
  cases hlive : live.column? name with
  | none => simp
  | some column =>
    have hdrop : name ∈ columnsToDrop table live := by
      obtain ⟨hmem, rfl⟩ := column?_eq_some hlive
      exact (mem_columnsToDrop table live).2 ⟨List.mem_map_of_mem hmem, h⟩
    simp [hdrop]

theorem not_mem_columnsToDrop {field : FieldDecl} (h : field ∈ table.fields) :
    field.columnName ∉ columnsToDrop table live := fun hdrop =>
  ((mem_columnsToDrop table live).1 hdrop).2 (List.mem_map_of_mem h)

theorem settledMark_new (hnodup : table.columnNames.Nodup) {field : FieldDecl}
    (h : field ∈ table.fields) (hlive : live.column? field.columnName = none) :
    settledMark dialect table live field.columnName = some field.autoIncrement := by
  have halter : field.columnName ∉
      ((table.fields.filterMap (alteration? dialect table live)).map Prod.snd).map
        (·.columnName) := by
    intro hmem
    simp only [List.mem_map] at hmem
    obtain ⟨_, ⟨change, hchange, rfl⟩, heq⟩ := hmem
    obtain ⟨-, column, hcolumn, -⟩ := (mem_alterations dialect table live).1 hchange
    rw [heq, hlive] at hcolumn
    cases hcolumn
  rw [settledMark, findIn_mark_eq_none halter, if_neg (not_mem_columnsToDrop h), hlive]
  by_cases hkey : field.columnName ∈ (fieldsWithKey table live).map (·.columnName)
  · have hadd : field.columnName ∉ (fieldsToAdd table live).map (·.columnName) := by
      intro hmem
      obtain ⟨other, hother, heq⟩ := List.mem_map.1 hmem
      exact ((mem_fieldsToAdd table live).1 hother).2.2 (heq ▸ hkey)
    obtain ⟨other, hother, heq⟩ := List.mem_map.1 hkey
    obtain rfl := eq_of_columnName_eq hnodup (mem_fieldsWithKey table live hother).1 h heq
    rw [findIn_mark_eq_none hadd, findIn_mark (nodup_fieldsWithKey hnodup) hother]
    rfl
  · rw [findIn_mark (nodup_fieldsToAdd hnodup) ((mem_fieldsToAdd table live).2 ⟨h, hlive, hkey⟩)]
    rfl

theorem settledMark_live (hnodup : table.columnNames.Nodup) {field : FieldDecl}
    (h : field ∈ table.fields) {column : Column}
    (hlive : live.column? field.columnName = some column) :
    settledMark dialect table live field.columnName = some field.autoIncrement := by
  have hadd : field.columnName ∉ (fieldsToAdd table live).map (·.columnName) := by
    intro hmem
    obtain ⟨other, hother, heq⟩ := List.mem_map.1 hmem
    have := ((mem_fieldsToAdd table live).1 hother).2.1
    rw [heq, hlive] at this
    cases this
  have hwith : field.columnName ∉ (fieldsWithKey table live).map (·.columnName) := by
    intro hmem
    obtain ⟨other, hother, heq⟩ := List.mem_map.1 hmem
    have := (mem_fieldsWithKey table live hother).2
    rw [heq, hlive] at this
    cases this
  rw [settledMark, map_snd_alterations, findIn_mark_eq_none hadd, findIn_mark_eq_none hwith,
    if_neg (not_mem_columnsToDrop h), hlive]
  cases hchange : alteration? dialect table live field with
  | some change =>
    rw [findIn_mark (nodup_sublist List.filter_sublist hnodup)
      (List.mem_filter.2 ⟨h, by rw [hchange]; rfl⟩)]
    rfl
  | none =>
    rw [findIn_mark_eq_none]
    · simp only [alteration?, hlive, Option.bind_some, ite_eq_right_iff, reduceCtorEq, imp_false,
        Bool.not_eq_true] at hchange
      simp [Dialect.autoIncrement_eq_of_unchanged hchange]
    · intro hmem
      obtain ⟨other, hother, heq⟩ := List.mem_map.1 hmem
      obtain ⟨hother, hsome⟩ := List.mem_filter.1 hother
      obtain rfl := eq_of_columnName_eq hnodup hother h heq
      rw [hchange] at hsome
      cases hsome

/-- The lists before the created indexes leave every column as it is declared. -/
theorem settledMark_eq (hnodup : table.columnNames.Nodup) (name : String) :
    settledMark dialect table live name =
      NameMap.findIn name (table.fields.map FieldDecl.mark) := by
  by_cases hmem : name ∈ table.columnNames
  · obtain ⟨field, hfield, rfl⟩ := List.mem_map.1 hmem
    rw [findIn_mark hnodup hfield]
    cases hlive : live.column? field.columnName with
    | none => exact settledMark_new hnodup hfield hlive
    | some column => exact settledMark_live hnodup hfield hlive
  · rw [settledMark_undeclared hmem, findIn_mark_eq_none hmem]

/-- Before indexes are created, the columns and the key are the declared ones, and the indexes are
those that are kept. -/
theorem run_settleOperations (hnodup : table.columnNames.Nodup) :
    (TableLayout.ofLive live).run (settleOperations dialect table live) =
      { TableLayout.ofDeclared table with indexes := keptIndexes table live } := by
  rw [settleOperations, TableLayout.run_append, TableLayout.run_append, TableLayout.run_append,
    TableLayout.run_alterColumns, TableLayout.run_addColumns, run_releaseOperations]
  obtain ⟨hindexes, hkey, hcolumns⟩ := TableLayout.run_dropColumns table.name
    { columns := ((fieldsWithKey table live).foldl TableLayout.setColumn (.ofLive live)).columns
      key := table.primaryKey
      indexes := keptIndexes table live } (columnsToDrop table live)
  have halter : (((table.fields.filterMap (alteration? dialect table live)).map Prod.snd).map
      (·.columnName)).Nodup := by
    rw [map_snd_alterations]
    exact nodup_sublist List.filter_sublist hnodup
  refine TableLayout.ext (NameMap.ext_find? fun name => ?_) ?_ ?_
  · rw [TableLayout.find?_foldl_setColumn _ halter,
      TableLayout.find?_foldl_setColumn _ (nodup_fieldsToAdd hnodup), hcolumns]
    dsimp only
    rw [TableLayout.find?_foldl_setColumn _ (nodup_fieldsWithKey hnodup), find?_ofLive,
      TableLayout.ofDeclared, NameMap.find?_ofFirst]
    exact settledMark_eq hnodup name
  · rw [TableLayout.key_foldl_setColumn, TableLayout.key_foldl_setColumn, hkey]
    rfl
  · rw [TableLayout.indexes_foldl_setColumn, TableLayout.indexes_foldl_setColumn, hindexes]

/-- The operations of a live table lead to the declared table. -/
theorem run_tableOperations (hnodup : table.columnNames.Nodup) :
    (TableLayout.ofLive live).run (dialect.tableOperations table live) =
      .ofDeclared table := by
  rw [tableOperations_eq, TableLayout.run_append, run_settleOperations hnodup]
  obtain ⟨hcolumns, hkey, hindexes⟩ := TableLayout.run_createIndexes table.name
    { TableLayout.ofDeclared table with indexes := keptIndexes table live }
    (nodup_create live.indexes (named_indexes table))
  refine TableLayout.ext hcolumns hkey (NameMap.ext_find? fun name => ?_)
  rw [hindexes, find?_create live.indexes (named_indexes table)]
  dsimp only [TableLayout.ofDeclared]
  rw [keptIndexes, NameMap.find?_filter]
  cases hwanted : table.indexes.find? name with
  | none => cases live.indexes.find? name <;> simp [Option.filter_some]
  | some index =>
    by_cases hlive : live.indexes.find? name = some index
    · simp [hlive, Option.filter_some]
    · simp [hlive]

/-! ## Every operation is possible when its turn comes -/

theorem contains_ofLive {name : String} :
    (TableLayout.ofLive live).columns.contains name = true ↔ name ∈ live.columns.map (·.name) := by
  rw [NameMap.contains, find?_ofLive, Option.isSome_map, Option.isSome_iff_ne_none, Ne,
    column?_eq_none, not_not]

theorem contains_ofDeclared {name : String} :
    (TableLayout.ofDeclared table).columns.contains name = true ↔ name ∈ table.columnNames := by
  have hmark : (TableLayout.ofDeclared table).columns.find? name =
      NameMap.findIn name (table.fields.map FieldDecl.mark) := NameMap.find?_ofFirst _ _
  rw [NameMap.contains, hmark, Option.isSome_iff_ne_none, Ne, NameMap.findIn_eq_none_iff, not_not,
    map_fst_mark]
  rfl

theorem key_subset : table.primaryKey ⊆ table.columnNames :=
  List.map_subset _ (List.filter_subset_self _)

theorem executable_keyOperations (hnodup : table.columnNames.Nodup) :
    Executable TableLayout.Admits TableLayout.apply (.ofLive live)
      (Dialect.keyOperations table live) := by
  have hadded := @nodup_fieldsWithKey table live hnodup
  have hnew := @mem_fieldsWithKey table live
  have hcovered : table.primaryKey ≠ live.primaryKey → ∀ column ∈ table.primaryKey,
      column ∈ live.columns.map (·.name) ∨
        column ∈ (fieldsWithKey table live).map (·.columnName) := by
    intro hkey column hcolumn
    obtain ⟨field, hfield, rfl⟩ := List.mem_map.1 (key_subset hcolumn)
    cases hlive : live.column? field.columnName with
    | some found =>
      obtain ⟨hmem, heq⟩ := column?_eq_some hlive
      exact .inl (heq ▸ List.mem_map_of_mem hmem)
    | none =>
      refine .inr (List.mem_map_of_mem ?_)
      rw [fieldsWithKey, if_neg hkey]
      exact List.mem_filter.2 ⟨hfield, by simp [hcolumn, hlive]⟩
  unfold Dialect.keyOperations
  unfold fieldsWithKey at hadded hnew hcovered
  split
  · trivial
  · rename_i hkey
    simp only [if_neg hkey] at hadded hnew hcovered
    refine ⟨⟨rfl, hadded, fun field hfield => ?_, fun column hcolumn => ?_⟩, trivial⟩
    · rw [contains_ofLive, ← column?_eq_none]
      exact (hnew hfield).2
    · rw [contains_ofLive]
      exact hcovered hkey column hcolumn

theorem executable_releaseOperations (hnodup : table.columnNames.Nodup) :
    Executable TableLayout.Admits TableLayout.apply (.ofLive live)
      (releaseOperations table live) := by
  rw [releaseOperations, executable_append]
  refine ⟨executable_keyOperations hnodup, ?_⟩
  rw [← TableLayout.run, run_keyOperations]
  refine TableLayout.executable_dropIndexes _ _ (NameMap.nodup_names _) fun name hname => ?_
  obtain ⟨index, hindex, -⟩ := mem_drop.1 hname
  rw [TableLayout.indexes_foldl_setColumn]
  exact NameMap.contains_eq_true.2 ⟨index, hindex⟩

/-- Dropped columns are in no key and in no index, since the key and the indexes that are left have
declared columns. -/
theorem executable_dropColumns_released (hnodup : table.columnNames.Nodup)
    (hlive : (live.columns.map (·.name)).Nodup) :
    Executable TableLayout.Admits TableLayout.apply
      ((TableLayout.ofLive live).run (releaseOperations table live))
      ((columnsToDrop table live).map (.dropColumn table.name)) := by
  rw [run_releaseOperations]
  refine TableLayout.executable_dropColumns _ _ (hlive.sublist (List.filter_sublist.map _)) ?_
  intro name hname
  obtain ⟨hmem, hundeclared⟩ := (mem_columnsToDrop table live).1 hname
  refine ⟨?_, fun hkey => hundeclared (key_subset hkey), fun index hindex hcolumn => ?_⟩
  · exact (TableLayout.contains_foldl_setColumn _ (nodup_fieldsWithKey hnodup) name).2
      (.inr (contains_ofLive.2 hmem))
  · obtain ⟨other, hkept⟩ := NameMap.mem_values.1 hindex
    have := declared_index ((find?_keptIndexes table live).1 hkept).2
    exact hundeclared (this.columns_subset hcolumn)

theorem contains_dropped (hnodup : table.columnNames.Nodup) {name : String} :
    (((TableLayout.ofLive live).run (releaseOperations table live)).run
        ((columnsToDrop table live).map (.dropColumn table.name))).columns.contains name = true ↔
      name ∉ columnsToDrop table live ∧ (name ∈ (fieldsWithKey table live).map (·.columnName) ∨
        name ∈ live.columns.map (·.name)) := by
  rw [NameMap.contains, (TableLayout.run_dropColumns _ _ _).2.2, run_releaseOperations]
  dsimp only
  rw [← contains_ofLive, ← TableLayout.contains_foldl_setColumn _ (nodup_fieldsWithKey hnodup)]
  by_cases hdrop : name ∈ columnsToDrop table live <;> simp [hdrop, NameMap.contains]

theorem executable_tableOperations (hnodup : table.columnNames.Nodup)
    (hlive : (live.columns.map (·.name)).Nodup) :
    Executable TableLayout.Admits TableLayout.apply (.ofLive live)
      (dialect.tableOperations table live) := by
  rw [tableOperations_eq, executable_append, ← TableLayout.run, run_settleOperations hnodup,
    settleOperations]
  simp only [executable_append]
  refine ⟨⟨⟨⟨executable_releaseOperations hnodup, executable_dropColumns_released hnodup hlive⟩,
    ?_⟩, ?_⟩, ?_⟩
  · refine TableLayout.executable_addColumns _ _ (nodup_fieldsToAdd hnodup) fun field hfield => ?_
    obtain ⟨-, hnone, hwith⟩ := (mem_fieldsToAdd table live).1 hfield
    rw [List.foldl_append, ← TableLayout.run, ← TableLayout.run, contains_dropped hnodup]
    exact fun h => h.2.elim hwith (column?_eq_none.1 hnone)
  · refine TableLayout.executable_alterColumns _ _ fun change hchange => ?_
    obtain ⟨hfield, column, hcolumn, hold, -⟩ := (mem_alterations dialect table live).1 hchange
    obtain ⟨hmem, heq⟩ := column?_eq_some hcolumn
    refine ⟨by rw [hold, Dialect.columnName_fieldOfColumn, heq], ?_⟩
    rw [List.foldl_append, List.foldl_append, ← TableLayout.run, ← TableLayout.run,
      ← TableLayout.run, TableLayout.run_addColumns,
      TableLayout.contains_foldl_setColumn _ (nodup_fieldsToAdd hnodup), contains_dropped hnodup]
    exact .inr ⟨not_mem_columnsToDrop hfield, .inr (heq ▸ List.mem_map_of_mem hmem)⟩
  · refine TableLayout.executable_createIndexes _ _
      (nodup_create live.indexes (named_indexes table)) fun index hindex => ?_
    obtain ⟨name, hwanted, hpresent⟩ := mem_create.1 hindex
    have hcovers := declared_index hwanted
    refine ⟨fun hkept => ?_, hcovers.columns_ne_nil, hcovers.nodup_columns,
      fun column hcolumn => ?_⟩
    · obtain ⟨other, hother⟩ := NameMap.contains_eq_true.1 hkept
      obtain ⟨hlive, hdeclared⟩ := (find?_keptIndexes table live).1 hother
      rw [hcovers.name_eq] at hlive hdeclared
      rw [hwanted] at hdeclared
      obtain rfl := Option.some.inj hdeclared
      exact hpresent hlive
    · exact contains_ofDeclared.2 (hcovers.columns_subset hcolumn)

end

end SchemaPlan
