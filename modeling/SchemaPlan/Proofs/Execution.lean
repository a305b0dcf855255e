import SchemaPlan.Proofs.Operations
import SchemaPlan.Proofs.Validation

/-!
# Plans can be carried out and lead to the declared schema

The operations of a plan run on the whole database: each declared table in name order, and then the
tables that are dropped. No operation touches a table other than its own, so what is known of the
operations of one table holds in the middle of a plan.

* `run_declaredOperations`: what the operations of the declared tables do, and that each of them is
  possible.
* `run_dropTables`: the same for the tables that are dropped.
* `plan_executable`: the statements of a plan are those of operations that can be carried out one
  after the other and that lead from the live schema to the declared one.
-/
namespace SchemaPlan

/-! ## One declared table -/

section
variable {dialect : Dialect} {table : TableDecl} {live : NameMap LiveTable}

theorem created_eq_ofDeclared (table : TableDecl) :
    TableLayout.created table table.indexes.values = .ofDeclared table := by
  refine TableLayout.ext rfl rfl (NameMap.ext_find? fun name => ?_)
  rw [TableLayout.created, TableLayout.ofDeclared, NameMap.find?_ofFirst]
  have hentries : table.indexes.values.map (fun index => (index.name, index)) =
      table.indexes.entries := by
    rw [NameMap.values, List.map_map]
    refine (List.map_congr_left fun entry hentry => ?_).trans (List.map_id _)
    have hname : entry.2.name = entry.1 :=
      named_indexes table _ _ (NameMap.mem_entries.1 hentry)
    show (entry.2.name, entry.2) = entry
    rw [hname]
  rw [hentries]
  rfl

variable {layout : Layout}

/-- The operations for one table give it the declared layout, wherever they come in a plan. -/
theorem find?_run_declaredOperations (hnodup : table.columnNames.Nodup)
    (hlayout : layout.find? table.name = (live.find? table.name).map .ofLive) :
    (layout.run (dialect.declaredOperations live table)).find? table.name =
      some (.ofDeclared table) := by
  unfold Dialect.declaredOperations
  split
  · rw [Layout.run, List.foldl_cons, List.foldl_nil, Layout.apply, NameMap.find?_insert, if_pos rfl,
      created_eq_ofDeclared]
  · rename_i found hfound
    rw [Layout.find?_run layout fun op => keepsTable_of_mem dialect table found, hlayout, hfound]
    exact congrArg some (run_tableOperations hnodup)

/-- The operations for one table can be carried out, wherever they come in a plan. -/
theorem executable_declaredOperations (hnodup : table.columnNames.Nodup)
    (hlayout : layout.find? table.name = (live.find? table.name).map .ofLive)
    (hlive : ∀ found, live.find? table.name = some found → (found.columns.map (·.name)).Nodup) :
    Executable Layout.Admits Layout.apply layout (dialect.declaredOperations live table) := by
  unfold Dialect.declaredOperations
  split
  · rename_i hnone
    refine ⟨⟨?_, hnodup, ?_, fun index hindex => ?_⟩, trivial⟩
    · rw [NameMap.contains, hlayout, hnone]
      exact Bool.false_ne_true
    · rw [map_name_values (named_indexes table)]
      exact NameMap.nodup_names _
    · obtain ⟨name, hname⟩ := NameMap.mem_values.1 hindex
      have hcovers := declared_index hname
      exact ⟨hcovers.columns_ne_nil, hcovers.nodup_columns, hcovers.columns_subset⟩
  · rename_i found hfound
    refine Layout.executable_of_table layout (fun op => keepsTable_of_mem dialect table found) ?_
      (executable_tableOperations hnodup (hlive found hfound))
    rw [hlayout, hfound]
    rfl

end

/-! ## All declared tables -/

section
variable {dialect : Dialect} {live : NameMap LiveTable}

/-- Declared tables of different names reach their layouts one after the other, and no other table
changes. -/
theorem run_declaredOperations {tables : List TableDecl} (layout : Layout)
    (hnames : (tables.map (·.name)).Nodup) (hnodup : ∀ table ∈ tables, table.columnNames.Nodup)
    (hlayout : ∀ table ∈ tables,
      layout.find? table.name = (live.find? table.name).map .ofLive)
    (hlive : ∀ name found, live.find? name = some found → (found.columns.map (·.name)).Nodup) :
    Executable Layout.Admits Layout.apply layout
        (tables.flatMap (dialect.declaredOperations live)) ∧
      ∀ name, (layout.run (tables.flatMap (dialect.declaredOperations live))).find? name =
        (NameMap.findIn name (tables.map fun table => (table.name, .ofDeclared table))).or
          (layout.find? name) := by
  induction tables generalizing layout with
  | nil => exact ⟨trivial, fun _ => rfl⟩
  | cons table rest ih =>
    rw [List.map_cons, List.nodup_cons] at hnames
    have htable := hnodup table List.mem_cons_self
    have hfound := hlayout table List.mem_cons_self
    have hother {name : String} (hne : table.name ≠ name) :
        (layout.run (dialect.declaredOperations live table)).find? name = layout.find? name :=
      Layout.find?_run_of_ne layout fun op hop => table_of_mem_declaredOperations hop ▸ hne
    obtain ⟨hrun, hfind⟩ := ih (layout.run (dialect.declaredOperations live table)) hnames.2
      (fun t ht => hnodup t (List.mem_cons_of_mem _ ht)) fun t ht => by
        rw [hother fun he => hnames.1 (he ▸ List.mem_map_of_mem ht)]
        exact hlayout t (List.mem_cons_of_mem _ ht)
    rw [List.flatMap_cons, executable_append, Layout.run_append]
    refine ⟨⟨executable_declaredOperations htable hfound (hlive _), hrun⟩, fun name => ?_⟩
    rw [hfind, List.map_cons]
    by_cases hname : table.name = name
    · subst hname
      have hrest : NameMap.findIn table.name
          (rest.map fun table => (table.name, TableLayout.ofDeclared table)) = none := by
        rw [NameMap.findIn_eq_none_iff, List.map_map]
        exact hnames.1
      rw [hrest, find?_run_declaredOperations htable hfound]
      simp [NameMap.findIn]
    · rw [hother hname, NameMap.findIn_cons_of_ne hname]

theorem run_dropTables {tables : List LiveTable} (layout : Layout)
    (hnames : (tables.map (·.name)).Nodup)
    (hlayout : ∀ table ∈ tables, layout.find? table.name = some (.ofLive table)) :
    Executable Layout.Admits Layout.apply layout
        (tables.map fun table => .dropTable table.name table.indexes.values) ∧
      ∀ name, (layout.run (tables.map fun table =>
          .dropTable table.name table.indexes.values)).find? name =
        if name ∈ tables.map (·.name) then none else layout.find? name := by
  induction tables generalizing layout with
  | nil => exact ⟨trivial, fun _ => rfl⟩
  | cons table rest ih =>
    rw [List.map_cons, List.nodup_cons] at hnames
    obtain ⟨hrun, hfind⟩ := ih (layout.erase table.name) hnames.2 fun t ht => by
      have hne : t.name ≠ table.name := fun he => hnames.1 (he ▸ List.mem_map_of_mem ht)
      rw [NameMap.find?_erase, if_neg hne]
      exact hlayout t (List.mem_cons_of_mem _ ht)
    refine ⟨⟨⟨_, hlayout table List.mem_cons_self, rfl⟩, hrun⟩, fun name => ?_⟩
    refine (hfind name).trans ?_
    rw [NameMap.find?_erase]
    by_cases hrest : name ∈ rest.map (·.name) <;> by_cases hname : name = table.name <;>
      simp [hrest, hname]

end

/-! ## Whole plans -/

theorem find?_ofColumns (columns : List Column) (name : String) :
    (Layout.ofColumns columns).find? name = ((liveTables columns).find? name).map .ofLive :=
  NameMap.find?_mapValues ..

/-- The operations of a valid schema can be carried out and lead to it. -/
theorem operations_executable {dialect : Dialect} {declared : List TableDecl}
    {columns : List Column} (hnames : (declared.map (·.name)).Nodup)
    (hnodup : ∀ table ∈ declared, table.columnNames.Nodup)
    (hcolumns : (columns.map fun column => (column.table, column.name)).Nodup) :
    Executable Layout.Admits Layout.apply (.ofColumns columns)
        (dialect.operations declared columns) ∧
      (Layout.ofColumns columns).run (dialect.operations declared columns) =
        .ofDeclared declared := by
  have hperm := perm_inNameOrder declared
  have hordered : ((inNameOrder declared).map (·.name)).Nodup :=
    (hperm.map _).nodup_iff.2 hnames
  obtain ⟨hrun, hfind⟩ := @run_declaredOperations dialect (liveTables columns) _
    (.ofColumns columns) hordered (fun table ht => hnodup table (hperm.mem_iff.1 ht))
    (fun table _ => find?_ofColumns columns table.name)
    fun name found hfound => nodup_live_columns hfound hcolumns
  have hundeclared {name : String} (hname : name ∉ declared.map (·.name)) :
      NameMap.findIn name ((inNameOrder declared).map fun table =>
        (table.name, TableLayout.ofDeclared table)) = none := by
    rw [NameMap.findIn_eq_none_iff, List.map_map]
    exact fun hmem => hname ((hperm.map _).mem_iff.1 hmem)
  obtain ⟨hdrop, hdropped⟩ := run_dropTables _ (nodup_undeclaredTables declared columns)
    fun live hlive => by
      obtain ⟨hlive, hname⟩ := mem_undeclaredTables.1 hlive
      rw [hfind, hundeclared hname, find?_ofColumns, hlive]
      rfl
  rw [operations_eq, executable_append, Layout.run_append]
  refine ⟨⟨hrun, hdrop⟩, NameMap.ext_find? fun name => ?_⟩
  rw [hdropped, hfind, Layout.ofDeclared, NameMap.find?_ofFirst,
    NameMap.findIn_eq_of_perm (hperm.map _) (by rw [List.map_map]; exact hordered)]
  by_cases hname : name ∈ declared.map (·.name)
  · rw [if_neg fun hmem => ?_]
    · obtain ⟨table, htable, rfl⟩ := List.mem_map.1 hname
      have hmem : (table.name, TableLayout.ofDeclared table) ∈
          declared.map fun table => (table.name, TableLayout.ofDeclared table) :=
        List.mem_map_of_mem htable
      rw [NameMap.findIn_eq_some_of_mem hmem (by rw [List.map_map]; exact hnames)]
      rfl
    · obtain ⟨live, hlive, rfl⟩ := List.mem_map.1 hmem
      exact (mem_undeclaredTables.1 hlive).2 hname
  · have hnone : NameMap.findIn name
        (declared.map fun table => (table.name, TableLayout.ofDeclared table)) = none := by
      rw [NameMap.findIn_eq_none_iff, List.map_map]
      exact hname
    rw [hnone, find?_ofColumns]
    split
    · rfl
    · rename_i hmem
      cases hlive : (liveTables columns).find? name with
      | none => rfl
      | some live =>
        obtain rfl := (live_table hlive).1
        exact absurd (List.mem_map_of_mem (mem_undeclaredTables.2 ⟨hlive, hname⟩)) hmem

/-- The statements of a plan are those of operations that can be carried out one after the other,
from the live schema to the declared one. Each operation has a statement of its own, apart from
alterations on Spanner that have nothing to say. -/
theorem plan_executable {dialect : Dialect} {declared : List TableDecl} {columns : List Column}
    {statements : List Statement} (h : dialect.plan declared columns = .ok statements)
    (hcolumns : (columns.map fun column => (column.table, column.name)).Nodup) :
    ∃ operations, dialect.statements operations = .ok statements ∧
      (∀ d, dialect = .mysql d →
        List.Forall₂ (fun op statement => dialect.statementsOf op = .ok [statement])
          operations statements) ∧
      (∀ op ∈ operations, dialect.statementsOf op = .ok [] →
        ∃ d table old new, dialect = .spanner d ∧ op = .alterColumn table old new) ∧
      Executable Layout.Admits Layout.apply (.ofColumns columns) operations ∧
      (Layout.ofColumns columns).run operations = .ofDeclared declared := by
  obtain ⟨hvalid, hplan⟩ := bind_eq_ok h
  obtain ⟨hnames, hvalid⟩ := validate_ok hvalid
  refine ⟨dialect.operations declared columns, hplan, ?_, fun op => alteration_of_no_statement,
    operations_executable hnames (fun table ht => (hvalid table ht).nodup_columns) hcolumns⟩
  rintro d rfl
  exact forall₂_statements hplan

/-- A plan that frees an index, brings a column with an index of its own and drops a table. -/
theorem plan_executable_orders :
    let columns : List Column := [
      { table := "orders", name := "id", dataType := "BIGINT", nullable := false, primaryKey := true
        memberships := [⟨"PRIMARY", 1, true, true⟩, ⟨"old", 1, false, false⟩] },
      { table := "drafts", name := "id", dataType := "BIGINT" }]
    let declared : List TableDecl := [{ name := "orders", fields := [
      { name := "id", type := "i64", primaryKey := true },
      { name := "total", type := "i64", index := some {} }] }]
    let statements : List Statement := [
      ⟨"orders", "DROP INDEX `old` ON `orders`"⟩,
      ⟨"orders", "ALTER TABLE `orders` ADD `total` BIGINT NOT NULL"⟩,
      ⟨"orders", "CREATE INDEX `orders_total` ON `orders` (`total`)"⟩,
      ⟨"drafts", "DROP TABLE `drafts`"⟩]
    ∃ operations, (Dialect.mysql {}).statements operations = .ok statements ∧
      operations.length = 4 ∧
      Executable Layout.Admits Layout.apply (.ofColumns columns) operations ∧
      (Layout.ofColumns columns).run operations = .ofDeclared declared := by
  intro columns declared statements
  have hplan : (Dialect.mysql {}).plan declared columns = .ok statements :=
    eq_ok_of_toOption (by decide +kernel)
  obtain ⟨operations, hstatements, hsingle, -, hexecutable, hrun⟩ :=
    plan_executable hplan (by decide)
  exact ⟨operations, hstatements, (hsingle _ rfl).length_eq, hexecutable, hrun⟩

end SchemaPlan
