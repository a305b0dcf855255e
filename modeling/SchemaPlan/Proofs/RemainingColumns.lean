import Mathlib.Data.List.Induction
import SchemaPlan.Proofs.AlongPlan

/-!
# Tables that keep a column

A server refuses to drop the only column of a table. A plan drops the columns of a table that are
not declared before it adds the ones that are new, and only the new columns of a key come earlier.
So a table stays without columns for a while if none of its columns is declared and the declaration
has no key, and only then.

* `TableLayout.populated_apply_iff`, `Layout.populated_apply_iff`: an operation takes a table's last
  column just if it drops its only one.
* `Layout.populated_run_iff`: the same for the operations of a whole run.
* `populated_along_table_iff`: a live table has columns all along its operations if and only if it
  keeps one.
* `column_remains_iff`: no statement of a plan drops the only column of its table if and only if the
  declared tables that are live keep a column each.
* `only_column_dropped`: a plan for a table without a key that has nothing in common with the live
  one.
-/
namespace SchemaPlan

theorem NameMap.exists_contains_erase_iff {α : Type} {map : NameMap α} {name : String}
    (h : ∃ other, map.contains other = true) :
    (∃ other, (map.erase name).contains other = true) ↔ map.names ≠ [name] := by
  have hother (other : String) : (map.erase name).contains other = true ↔
      other ≠ name ∧ other ∈ map.names := by
    rw [mem_names, contains_eq_true, find?_erase]
    by_cases heq : other = name <;> simp [heq]
  simp only [hother]
  constructor
  · rintro ⟨other, hne, hmem⟩ hnames
    rw [hnames, List.mem_singleton] at hmem
    exact hne hmem
  · intro hnames
    by_contra hnone
    have hall : ∀ other ∈ map.names, other = name := by
      intro other hmem
      by_contra hne
      exact hnone ⟨other, hne, hmem⟩
    obtain ⟨found, hfound⟩ := h
    have hmem : found ∈ map.names := mem_names.2 (contains_eq_true.1 hfound)
    -- names do not repeat, so there is one of them
    match hlist : map.names, map.nodup_names with
    | [], _ => simp [hlist] at hmem
    | [only], _ => exact hnames (by rw [hlist, hall only (by simp [hlist])])
    | first :: second :: rest, hnodup =>
      have hfirst := hall first (by simp [hlist])
      have hsecond := hall second (by simp [hlist])
      simp [hfirst, hsecond] at hnodup

/-! ## One operation -/

namespace TableLayout

/-- Whether a table has a column. -/
def Populated (layout : TableLayout) : Prop :=
  ∃ name, layout.columns.contains name = true

/-- Whether an operation drops the only column of a table. -/
def DropsOnly (layout : TableLayout) : Operation → Prop
  | .dropColumn _ column => layout.columns.names = [column]
  | _ => False

theorem contains_setColumn {layout : TableLayout} {name : String}
    (h : layout.columns.contains name = true) (field : FieldDecl) :
    (layout.setColumn field).columns.contains name = true := by
  rw [NameMap.contains, setColumn, NameMap.find?_insert]
  split
  · rfl
  · exact h

theorem contains_of_foldl_setColumn {layout : TableLayout} {name : String}
    (h : layout.columns.contains name = true) (fields : List FieldDecl) :
    (fields.foldl setColumn layout).columns.contains name = true := by
  induction fields generalizing layout with
  | nil => exact h
  | cons field rest ih => exact ih (contains_setColumn h field)

theorem contains_apply {layout : TableLayout} {name : String}
    (h : layout.columns.contains name = true) {op : Operation}
    (hop : ∀ table, op ≠ .dropColumn table name) :
    (layout.apply op).columns.contains name = true := by
  cases op with
  | changeKey table old new added => exact contains_of_foldl_setColumn h added
  | dropColumn table column =>
    have hne : name ≠ column := fun heq => hop table (heq ▸ rfl)
    rw [NameMap.contains, apply, NameMap.find?_erase, if_neg hne]
    exact h
  | addColumn table field => exact contains_setColumn h field
  | alterColumn table old new => exact contains_setColumn h new
  | _ => exact h

theorem contains_run {layout : TableLayout} {name : String}
    (h : layout.columns.contains name = true) {operations : List Operation}
    (hops : ∀ op ∈ operations, ∀ table, op ≠ .dropColumn table name) :
    (layout.run operations).columns.contains name = true := by
  induction operations generalizing layout with
  | nil => exact h
  | cons op rest ih =>
    exact ih (contains_apply h (hops op List.mem_cons_self)) fun other hother =>
      hops other (List.mem_cons_of_mem _ hother)

/-- An operation leaves a table without columns just if it drops the only one. -/
theorem populated_apply_iff {layout : TableLayout} (h : layout.Populated) (op : Operation) :
    (layout.apply op).Populated ↔ ¬ layout.DropsOnly op := by
  have hkept (hop : ∀ table column, op ≠ .dropColumn table column) :
      (layout.apply op).Populated := by
    obtain ⟨name, hname⟩ := h
    exact ⟨name, contains_apply hname fun table => hop table name⟩
  cases op with
  | dropColumn table column => exact NameMap.exists_contains_erase_iff h
  | _ => exact ⟨fun _ => id, fun _ => hkept (by simp)⟩

theorem populated_ofDeclared {table : TableDecl} (h : table.fields ≠ []) :
    (ofDeclared table).Populated := by
  obtain ⟨field, hfield⟩ := List.exists_mem_of_ne_nil _ h
  exact ⟨field.columnName, contains_ofDeclared.2 (List.mem_map_of_mem hfield)⟩

theorem populated_ofLive {live : LiveTable} (h : live.columns ≠ []) : (ofLive live).Populated := by
  obtain ⟨column, hcolumn⟩ := List.exists_mem_of_ne_nil _ h
  exact ⟨column.name, contains_ofLive.2 (List.mem_map_of_mem hcolumn)⟩

end TableLayout

namespace Layout

/-- Whether every table of a database has a column. -/
def Populated (layout : Layout) : Prop :=
  ∀ name found, layout.find? name = some found → found.Populated

/-- Whether an operation drops the only column that its table has. -/
def DropsOnly (layout : Layout) (op : Operation) : Prop :=
  ∃ found, layout.find? op.table = some found ∧ found.DropsOnly op

/-- An operation leaves a table of a database without columns just if it drops the only one. -/
theorem populated_apply_iff {layout : Layout} (h : layout.Populated) {op : Operation}
    (hcreate : ∀ table indexes, op = .createTable table indexes → table.fields ≠ []) :
    (layout.apply op).Populated ↔ ¬ layout.DropsOnly op := by
  have hkeeps (hop : op.KeepsTable op.table) :
      (layout.apply op).Populated ↔ ¬ layout.DropsOnly op := by
    constructor
    · rintro hpopulated ⟨found, hfound, hdrops⟩
      refine (TableLayout.populated_apply_iff (h _ found hfound) op).1 ?_ hdrops
      refine hpopulated op.table _ ?_
      rw [find?_apply layout hop, hfound, Option.map_some]
    · intro hdrops name after hafter
      by_cases hname : op.table = name
      · subst hname
        rw [find?_apply layout hop, Option.map_eq_some_iff] at hafter
        obtain ⟨found, hfound, rfl⟩ := hafter
        exact (TableLayout.populated_apply_iff (h _ found hfound) op).2 fun hdrops' =>
          hdrops ⟨found, hfound, hdrops'⟩
      · rw [find?_apply_of_ne layout hname] at hafter
        exact h name after hafter
  cases op with
  | createTable table indexes =>
    refine ⟨fun _ hdrops => hdrops.choose_spec.2, fun _ name after hafter => ?_⟩
    rw [apply, NameMap.find?_insert] at hafter
    split at hafter
    · cases hafter
      obtain ⟨name, hname⟩ := TableLayout.populated_ofDeclared (hcreate table indexes rfl)
      exact ⟨name, hname⟩
    · exact h name after hafter
  | dropTable table indexes =>
    refine ⟨fun _ hdrops => hdrops.choose_spec.2, fun _ name after hafter => ?_⟩
    rw [apply, NameMap.find?_erase] at hafter
    split at hafter
    · cases hafter
    · exact h name after hafter
  | _ => exact hkeeps (by simp [Operation.KeepsTable, Operation.table])

/-- Every table has columns all along a run just if no operation drops the only one of its table. -/
theorem populated_run_iff {layout : Layout} (h : layout.Populated) {operations : List Operation}
    (hcreate : ∀ table indexes, .createTable table indexes ∈ operations → table.fields ≠ []) :
    (∀ before, before <+: operations → (layout.run before).Populated) ↔
      ∀ before op after, operations = before ++ op :: after →
        ¬ (layout.run before).DropsOnly op := by
  have hstep {before after : List Operation} {op : Operation}
      (hsplit : operations = before ++ op :: after) (hbefore : (layout.run before).Populated) :
      (layout.run (before ++ [op])).Populated ↔ ¬ (layout.run before).DropsOnly op := by
    rw [run_append]
    refine populated_apply_iff hbefore fun table indexes hop => hcreate table indexes ?_
    simp [hsplit, hop]
  constructor
  · intro hall before op after hsplit
    refine (hstep hsplit (hall before ?_)).1 (hall (before ++ [op]) ?_)
    · exact hsplit ▸ List.prefix_append _ _
    · exact ⟨after, by simp [hsplit]⟩
  · intro hdrops before hbefore
    -- the run is cut at its end, where one more operation has come
    induction before using List.reverseRecOn with
    | nil => exact h
    | append_singleton before op ih =>
      obtain ⟨after, hafter⟩ := hbefore
      have hsplit : operations = before ++ op :: after := by simp [← hafter]
      exact (hstep hsplit (ih (hsplit ▸ List.prefix_append _ _))).2 (hdrops before op after hsplit)

end Layout

/-! ## One table -/

/-- Whether a live table keeps a column, or is given one with the declared key. -/
def KeepsColumn (table : TableDecl) (live : LiveTable) : Prop :=
  table.primaryKey ≠ [] ∨ ∃ column ∈ live.columns, column.name ∈ table.columnNames

section
variable {dialect : Dialect} {table : TableDecl} {live : LiveTable}

theorem live_key_subset (live : LiveTable) : live.primaryKey ⊆ live.columns.map (·.name) := by
  intro name hname
  simp only [LiveTable.primaryKey, List.mem_map, List.mem_mergeSort, List.mem_flatMap] at hname
  obtain ⟨part, ⟨column, hcolumn, membership, -, rfl⟩, rfl⟩ := hname
  exact List.mem_map_of_mem hcolumn

theorem ne_dropColumn_of_declared {name : String} (hname : name ∈ table.columnNames)
    {op : Operation} (hop : op ∈ dialect.tableOperations table live) (other : String) :
    op ≠ .dropColumn other name := by
  rintro rfl
  rw [tableOperations_eq, settleOperations, releaseOperations, Dialect.keyOperations] at hop
  simp only [List.mem_append, List.mem_map, reduceCtorEq, and_false, exists_false, or_false,
    Operation.dropColumn.injEq] at hop
  rcases hop with hkey | ⟨column, hcolumn, -, rfl⟩
  · split at hkey <;> simp at hkey
  · exact ((mem_columnsToDrop table live).1 hcolumn).2 hname

/-- A column of the declared key that is not live comes with the change of the key, which is the
first operation. -/
theorem keyOperations_of_new {field : FieldDecl} (hfield : field ∈ table.fields)
    (hkey : field.columnName ∈ table.primaryKey) (hlive : live.column? field.columnName = none) :
    (∃ op, Dialect.keyOperations table live = [op]) ∧
      ((TableLayout.ofLive live).run (Dialect.keyOperations table live)).columns.contains
        field.columnName = true := by
  have hne : table.primaryKey ≠ live.primaryKey := fun heq =>
    column?_eq_none.1 hlive (live_key_subset live (heq ▸ hkey))
  refine ⟨⟨_, by rw [Dialect.keyOperations, if_neg hne]⟩, ?_⟩
  rw [run_keyOperations, fieldsWithKey, if_neg hne]
  obtain ⟨before, after, hsplit⟩ := List.append_of_mem
    (show field ∈ table.fields.filter fun field =>
        table.primaryKey.contains field.columnName && (live.column? field.columnName).isNone from
      List.mem_filter.2 ⟨hfield, by simp [hkey, hlive]⟩)
  rw [hsplit, List.foldl_append, List.foldl_cons]
  refine TableLayout.contains_of_foldl_setColumn ?_ after
  rw [NameMap.contains, TableLayout.setColumn, NameMap.find?_insert, if_pos rfl]
  rfl

theorem populated_of_keepsColumn (hlive : live.columns ≠ []) (h : KeepsColumn table live)
    {own : List Operation} (hown : own <+: dialect.tableOperations table live) :
    ((TableLayout.ofLive live).run own).Populated := by
  have hstays {name : String} (hname : name ∈ table.columnNames)
      (hcontains : (TableLayout.ofLive live).columns.contains name = true) :
      ((TableLayout.ofLive live).run own).Populated :=
    ⟨name, TableLayout.contains_run hcontains fun op hop =>
      ne_dropColumn_of_declared hname (hown.subset hop)⟩
  rcases h with hkey | ⟨column, hcolumn, hdeclared⟩
  · obtain ⟨name, hname⟩ := List.exists_mem_of_ne_nil _ hkey
    obtain ⟨field, hfield, rfl⟩ := List.mem_map.1 (key_subset hname)
    cases hcase : live.column? field.columnName with
    | some column =>
      obtain ⟨hmem, heq⟩ := column?_eq_some hcase
      exact hstays (key_subset hname) (contains_ofLive.2 (heq ▸ List.mem_map_of_mem hmem))
    | none =>
      obtain ⟨⟨op, hop⟩, hcontains⟩ := keyOperations_of_new hfield hname hcase
      rw [hop] at hcontains
      have hfirst : [op] <+: dialect.tableOperations table live := by
        rw [tableOperations_eq, settleOperations, releaseOperations, hop]
        simp only [List.append_assoc]
        exact List.prefix_append _ _
      cases own with
      | nil => exact TableLayout.populated_ofLive hlive
      | cons first rest =>
        obtain ⟨after, hafter⟩ := hfirst
        obtain ⟨rfl, hrest⟩ := List.cons_prefix_cons.1 (hafter ▸ hown)
        have hstays : ∀ other ∈ rest, ∀ name, other ≠ .dropColumn name field.columnName := by
          intro other hother
          exact ne_dropColumn_of_declared (key_subset hname)
            (hafter ▸ List.mem_append_right _ (hrest.subset hother))
        exact ⟨field.columnName, TableLayout.contains_run hcontains hstays⟩
  · exact hstays hdeclared (contains_ofLive.2 (List.mem_map_of_mem hcolumn))

/-- A live table has columns all along its operations if and only if it keeps one. -/
theorem populated_along_table_iff (hnodup : table.columnNames.Nodup) (hlive : live.columns ≠ []) :
    (∀ own, own <+: dialect.tableOperations table live →
      ((TableLayout.ofLive live).run own).Populated) ↔ KeepsColumn table live := by
  refine ⟨fun h => ?_, fun h own => populated_of_keepsColumn hlive h⟩
  -- what is left when columns have been dropped is a live column or comes with the key
  have hdropped := h (releaseOperations table live ++
    (columnsToDrop table live).map (.dropColumn table.name)) (by
      rw [tableOperations_eq, settleOperations]
      simp only [List.append_assoc]
      rw [← List.append_assoc]
      exact List.prefix_append _ _)
  rw [TableLayout.run_append] at hdropped
  obtain ⟨name, hname⟩ := hdropped
  obtain ⟨hkept, hwith | hmem⟩ := (contains_dropped hnodup).1 hname
  · left
    intro hkey
    simp [fieldsWithKey, hkey] at hwith
  · right
    obtain ⟨column, hcolumn, rfl⟩ := List.mem_map.1 hmem
    refine ⟨column, hcolumn, ?_⟩
    by_contra hnot
    exact hkept ((mem_columnsToDrop table live).2 ⟨hmem, hnot⟩)

end

/-! ## Whole plans -/

section
variable {dialect : Dialect} {declared : List TableDecl} {columns : List Column}

theorem populated_ofColumns (columns : List Column) : (Layout.ofColumns columns).Populated := by
  intro name found hfound
  rw [find?_ofColumns, Option.map_eq_some_iff] at hfound
  obtain ⟨live, hlive, rfl⟩ := hfound
  exact TableLayout.populated_ofLive (live_table hlive).2.1

/-- A plan creates declared tables only. -/
theorem declared_of_createTable {table : TableDecl} {indexes : List Index}
    (h : .createTable table indexes ∈ dialect.operations declared columns) : table ∈ declared := by
  rw [operations_eq, List.mem_append, List.mem_flatMap] at h
  rcases h with ⟨other, hother, h⟩ | h
  · unfold Dialect.declaredOperations at h
    split at h
    · rw [List.mem_singleton, Operation.createTable.injEq] at h
      exact h.1 ▸ mem_inNameOrder.1 hother
    · exact absurd rfl ((keepsTable_of_mem dialect other _ h).2.1 table indexes)
  · simp at h

theorem key_ne_nil_of_valid {d : Spanner} {table : TableDecl} (h : Valid (.spanner d) table) :
    table.primaryKey ≠ [] := by
  have hkey : Spanner.validateTable table = .ok () := h.dialect_ok
  rw [Spanner.validateTable] at hkey
  intro hnil
  rw [hnil] at hkey
  cases hkey

/-- No operation of a plan drops the only column of its table if and only if the declared tables
that are live keep a column each; and just then every table has a column all along the plan, until
it is dropped itself. On Spanner tables have keys, so they always keep one. -/
theorem column_remains_iff {statements : List Statement}
    (h : dialect.plan declared columns = .ok statements) :
    (∃ parts, List.Forall₂ (fun op part => dialect.statementsOf op = .ok part)
        (dialect.operations declared columns) parts ∧ statements = parts.flatten) ∧
      ((∀ before op after, dialect.operations declared columns = before ++ op :: after →
          ¬ ((Layout.ofColumns columns).run before).DropsOnly op) ↔
        ∀ table ∈ declared, ∀ live, (liveTables columns).find? table.name = some live →
          KeepsColumn table live) ∧
      ((∀ before, before <+: dialect.operations declared columns →
          ((Layout.ofColumns columns).run before).Populated) ↔
        ∀ table ∈ declared, ∀ live, (liveTables columns).find? table.name = some live →
          KeepsColumn table live) ∧
      ∀ d, dialect = .spanner d → ∀ table ∈ declared, table.primaryKey ≠ [] := by
  obtain ⟨hvalid, hplan⟩ := bind_eq_ok h
  obtain ⟨hnames, hvalid⟩ := validate_ok hvalid
  have hpopulated : (∀ before, before <+: dialect.operations declared columns →
      ((Layout.ofColumns columns).run before).Populated) ↔
      ∀ table ∈ declared, ∀ live, (liveTables columns).find? table.name = some live →
        KeepsColumn table live := by
    refine (holds_along_iff hnames (fun table htable => ?_) (populated_ofColumns columns)).trans ?_
    · exact TableLayout.populated_ofDeclared (hvalid table htable).fields_ne_nil
    · refine forall₂_congr fun table htable => forall₂_congr fun live hlive => ?_
      exact populated_along_table_iff (hvalid table htable).nodup_columns (live_table hlive).2.1
  refine ⟨statements_ok hplan, ?_, hpopulated, ?_⟩
  · rw [← hpopulated, Layout.populated_run_iff (populated_ofColumns columns)]
    exact fun table indexes hop => (hvalid table (declared_of_createTable hop)).fields_ne_nil
  · rintro d rfl table htable
    exact key_ne_nil_of_valid (hvalid table htable)

end

/-- A plan that replaces the only column of a table, with its key. -/
theorem column_remains_orders :
    let columns : List Column := [
      { table := "t", name := "a", dataType := "BIGINT", nullable := false, primaryKey := true
        memberships := [⟨"PRIMARY", 1, true, true⟩] }]
    let b : FieldDecl := { name := "b", type := "i64", primaryKey := true }
    let declared : List TableDecl := [{ name := "t", fields := [b] }]
    (Dialect.mysql {}).operations declared columns =
        [.changeKey "t" ["a"] ["b"] [b], .dropColumn "t" "a"] ∧
      (∃ parts, List.Forall₂ (fun op part => (Dialect.mysql {}).statementsOf op = .ok part)
          ((Dialect.mysql {}).operations declared columns) parts ∧
        [⟨"t", "ALTER TABLE `t` DROP PRIMARY KEY, ADD `b` BIGINT NOT NULL, ADD PRIMARY KEY (`b`)"⟩,
          ⟨"t", "ALTER TABLE `t` DROP `a`"⟩] = parts.flatten) ∧
      ((∀ before op after, (Dialect.mysql {}).operations declared columns =
            before ++ op :: after → ¬ ((Layout.ofColumns columns).run before).DropsOnly op) ↔
        ∀ table ∈ declared, ∀ live, (liveTables columns).find? table.name = some live →
          KeepsColumn table live) ∧
      ((∀ before, before <+: (Dialect.mysql {}).operations declared columns →
          ((Layout.ofColumns columns).run before).Populated) ↔
        ∀ table ∈ declared, ∀ live, (liveTables columns).find? table.name = some live →
          KeepsColumn table live) ∧
      ∀ d, Dialect.mysql {} = .spanner d → ∀ table ∈ declared, table.primaryKey ≠ [] :=
  ⟨by decide +kernel, column_remains_iff (eq_ok_of_toOption (by decide +kernel))⟩

/-- The only column of a table without a key is dropped before the one that replaces it is added. -/
theorem only_column_dropped :
    let columns : List Column := [{ table := "t", name := "a", dataType := "BIGINT", position := 1 }]
    let declared : List TableDecl := [{ name := "t", fields := [{ name := "b", type := "i64" }] }]
    (Dialect.mysql {}).plan declared columns = .ok
        [⟨"t", "ALTER TABLE `t` DROP `a`"⟩, ⟨"t", "ALTER TABLE `t` ADD `b` BIGINT NOT NULL"⟩] ∧
      (Dialect.mysql {}).operations declared columns =
        [.dropColumn "t" "a", .addColumn "t" { name := "b", type := "i64" }] ∧
      (Layout.ofColumns columns).DropsOnly (.dropColumn "t" "a") := by
  refine ⟨eq_ok_of_toOption (by decide +kernel), by decide +kernel, _, rfl, ?_⟩
  rw [TableLayout.DropsOnly]
  decide +kernel

end SchemaPlan
