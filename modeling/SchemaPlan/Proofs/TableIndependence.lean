import SchemaPlan.Proofs.Operations

/-!
# Tables are planned independently

A plan looks at all tables at once: it validates them together, groups the columns of the catalog,
sorts the declared tables and drops what is left over. Nevertheless each table is planned as if it
were alone, and the statements of a plan are those of its tables, one table after the other.

* `operations_restricted`: the operations on one table are those of a plan for that table alone.
* `plan_restricted`: the same for the statements.
* `plan_by_table`: a plan is put together from the plans of single tables, and what it says about
  a table does not depend on the others.
-/
namespace SchemaPlan

/-! ## One table of a catalog -/

def columnsOf (columns : List Column) (name : String) : List Column :=
  columns.filter fun column => column.table = name

def declarationsOf (declared : List TableDecl) (name : String) : List TableDecl :=
  declared.filter fun table => table.name = name

theorem find?_columnsOf (columns : List Column) (name : String) :
    (liveTables (columnsOf columns name)).find? name = (liveTables columns).find? name := by
  rw [find?_liveTables, find?_liveTables, columnsOf, List.filter_filter]
  simp only [Bool.and_self]

theorem name_of_find?_columnsOf {columns : List Column} {name other : String} {live : LiveTable}
    (h : (liveTables (columnsOf columns name)).find? other = some live) : other = name := by
  obtain ⟨-, hne, hperm⟩ := live_table h
  obtain ⟨column, hcolumn⟩ := List.exists_mem_of_ne_nil _ hne
  have hcolumn := hperm.mem_iff.1 hcolumn
  simp only [columnsOf, List.mem_filter, decide_eq_true_eq] at hcolumn
  exact hcolumn.2.symm.trans hcolumn.1.2

theorem declarationsOf_eq {declared : List TableDecl} (hnames : (declared.map (·.name)).Nodup)
    {table : TableDecl} (htable : table ∈ declared) :
    declarationsOf declared table.name = [table] := by
  have hsingle := @filter_flatMap_eq _ _ declared (fun table => [table]) (·.name) (·.name)
    (fun a b hb => by rw [List.mem_singleton.1 hb]) hnames table htable
  rwa [List.flatMap_singleton'] at hsingle

theorem declarationsOf_eq_nil {declared : List TableDecl} {name : String}
    (hname : name ∉ declared.map (·.name)) : declarationsOf declared name = [] := by
  simp only [declarationsOf, List.filter_eq_nil_iff, decide_eq_true_eq]
  exact fun table htable he => hname (he ▸ List.mem_map_of_mem htable)

/-! ## Tables that are not declared -/

theorem pairwise_undeclaredNames (declared : List TableDecl) (columns : List Column) :
    ((undeclaredTables declared columns).map (·.name)).Pairwise (· < ·) := by
  rw [names_undeclaredTables]
  exact List.pairwise_map.2 (NameMap.ordered _)

theorem mem_undeclaredNames {declared : List TableDecl} {columns : List Column} {name : String} :
    name ∈ (undeclaredTables declared columns).map (·.name) ↔
      name ∈ columns.map (·.table) ∧ name ∉ declared.map (·.name) := by
  rw [← exists_find?_liveTables, List.mem_map]
  constructor
  · rintro ⟨live, hlive, rfl⟩
    obtain ⟨hfound, hname⟩ := mem_undeclaredTables.1 hlive
    exact ⟨⟨live, hfound⟩, hname⟩
  · rintro ⟨⟨live, hfound⟩, hname⟩
    obtain rfl := (live_table hfound).1
    exact ⟨live, mem_undeclaredTables.2 ⟨hfound, hname⟩, rfl⟩

/-! ## The operations on one table -/

section
variable {dialect : Dialect} {declared : List TableDecl} {columns : List Column}

/-- If no table has another name, all operations are on the table of that name. -/
theorem filter_operations_columnsOf {name : String}
    (hdeclared : ∀ table ∈ declared, table.name = name) :
    (dialect.operations declared (columnsOf columns name)).filter (fun op => op.table = name) =
      dialect.operations declared (columnsOf columns name) := by
  refine List.filter_eq_self.2 fun op hop => decide_eq_true ?_
  rw [operations_eq, List.mem_append, List.mem_flatMap, List.mem_map] at hop
  rcases hop with ⟨table, htable, hop⟩ | ⟨live, hlive, rfl⟩
  · rw [table_of_mem_declaredOperations hop]
    exact hdeclared table (mem_inNameOrder.1 htable)
  · exact name_of_find?_columnsOf (mem_undeclaredTables.1 hlive).1

theorem declaredOperations_columnsOf (table : TableDecl) :
    dialect.declaredOperations (liveTables (columnsOf columns table.name)) table =
      dialect.declaredOperations (liveTables columns) table := by
  rw [Dialect.declaredOperations, Dialect.declaredOperations, find?_columnsOf]

/-- The operations of a plan on one table are those of a plan for that table alone. -/
theorem operations_restricted (hnames : (declared.map (·.name)).Nodup) (name : String) :
    dialect.operations (declarationsOf declared name) (columnsOf columns name) =
      (dialect.operations declared columns).filter fun op => op.table = name := by
  have halone : ∀ table ∈ declarationsOf declared name, table.name = name := fun table htable => by
    simpa using (List.mem_filter.1 htable).2
  rw [← filter_operations_columnsOf halone]
  by_cases hname : name ∈ declared.map (·.name)
  · obtain ⟨table, htable, rfl⟩ := List.mem_map.1 hname
    have hsingle : ([table].map (·.name)).Nodup := List.nodup_singleton _
    rw [declarationsOf_eq hnames htable, operations_on_declared hnames htable,
      operations_on_declared hsingle List.mem_cons_self, declaredOperations_columnsOf]
  · rw [declarationsOf_eq_nil hname, operations_on_undeclared hname,
      operations_on_undeclared (List.not_mem_nil), find?_columnsOf]

/-- The operations of a plan are those on the declared tables, in name order, and then those on the
tables that are not declared. -/
theorem operations_by_table (hnames : (declared.map (·.name)).Nodup) :
    dialect.operations declared columns =
      ((inNameOrder declared).flatMap fun table =>
        dialect.operations [table] (columnsOf columns table.name)) ++
      ((undeclaredTables declared columns).map (·.name)).flatMap fun name =>
        dialect.operations [] (columnsOf columns name) := by
  have hdeclared : ∀ table ∈ inNameOrder declared,
      dialect.declaredOperations (liveTables columns) table =
        dialect.operations [table] (columnsOf columns table.name) := by
    intro table htable
    have htable := mem_inNameOrder.1 htable
    rw [← operations_on_declared hnames htable, ← operations_restricted hnames,
      declarationsOf_eq hnames htable]
  have hdropped : ∀ live ∈ undeclaredTables declared columns,
      [.dropTable live.name live.indexes.values] =
        dialect.operations [] (columnsOf columns live.name) := by
    intro live hlive
    obtain ⟨hfound, hname⟩ := mem_undeclaredTables.1 hlive
    rw [← declarationsOf_eq_nil hname, operations_restricted hnames,
      operations_on_undeclared hname, hfound]
    rfl
  rw [operations_eq, List.flatMap_congr hdeclared, List.map_eq_flatMap,
    List.flatMap_congr hdropped, List.flatMap_map]

/-! ## Their statements -/

theorem table_of_mem_statementsOf {op : Operation} {part : List Statement}
    (h : dialect.statementsOf op = .ok part) {statement : Statement} (hmem : statement ∈ part) :
    statement.table = op.table := by
  unfold Dialect.statementsOf at h
  cases htexts : dialect.render op with
  | error e =>
    rw [htexts] at h
    cases h
  | ok texts =>
    rw [htexts] at h
    cases h
    obtain ⟨text, -, rfl⟩ := List.mem_map.1 hmem
    rfl

theorem statements_restricted {operations : List Operation} {statements : List Statement}
    (h : dialect.statements operations = .ok statements) (name : String) :
    dialect.statements (operations.filter fun op => op.table = name) =
      .ok (statements.filter fun statement => statement.table = name) := by
  obtain ⟨parts, hparts, rfl⟩ := statements_ok h
  clear h
  induction hparts with
  | nil => rfl
  | @cons op part rest parts hop _ ih =>
    have htable : ∀ statement ∈ part, statement.table = op.table := fun _ =>
      table_of_mem_statementsOf hop
    rw [List.flatten_cons, List.filter_append]
    by_cases hname : op.table = name
    · have hself : part.filter (fun statement => statement.table = name) = part :=
        List.filter_eq_self.2 fun statement hs => decide_eq_true ((htable statement hs).trans hname)
      have hpart : dialect.statements [op] = .ok part := by
        rw [Dialect.statements, mapM_eq_ok_iff.2 (.cons hop .nil)]
        exact congrArg Except.ok (List.append_nil part)
      rw [List.filter_cons_of_pos (by simpa using hname), ← List.singleton_append,
        statements_append, ih, hpart, hself]
      rfl
    · have hnone : part.filter (fun statement => statement.table = name) = [] :=
        List.filter_eq_nil_iff.2 fun statement hs => by
          simpa [htable statement hs] using hname
      rw [List.filter_cons_of_neg (by simpa using hname), ih, hnone, List.nil_append]

end

/-! ## Plans for one table -/

namespace Dialect

variable {dialect : Dialect} {declared : List TableDecl} {columns : List Column}
  {statements : List Statement}

/-- The statements of a plan on one table are the plan for that table alone. -/
theorem plan_restricted (h : dialect.plan declared columns = .ok statements) (name : String) :
    dialect.plan (declarationsOf declared name) (columnsOf columns name) =
      .ok (statements.filter fun statement => statement.table = name) := by
  obtain ⟨hvalid, hplan⟩ := bind_eq_ok h
  obtain ⟨hnames, htables⟩ := validate_eq_ok_iff.1 hvalid
  have hsub : (declarationsOf declared name).Sublist declared := List.filter_sublist
  have halone : validate dialect (declarationsOf declared name) = .ok () :=
    validate_eq_ok_iff.2 ⟨hnames.sublist (hsub.map _),
      fun table htable => htables table (hsub.subset htable)⟩
  rw [plan_of_valid halone, planValidated, operations_restricted hnames]
  exact statements_restricted hplan name

/-- A plan for one table alone, all of whose statements are about that table. -/
def PlansAlone (dialect : Dialect) (declared : List TableDecl) (columns : List Column)
    (name : String) (part : List Statement) : Prop :=
  dialect.plan declared (columnsOf columns name) = .ok part ∧
    ∀ statement ∈ part, statement.table = name

/-- The statements of the operations on one table alone are a plan for it. -/
theorem plansAlone_of_statements {name : String} (hvalid : validate dialect declared = .ok ())
    (halone : ∀ table ∈ declared, table.name = name) {part : List Statement}
    (h : dialect.statements (dialect.operations declared (columnsOf columns name)) = .ok part) :
    dialect.PlansAlone declared columns name part := by
  refine ⟨(plan_of_valid hvalid _).trans h, fun statement hstatement => ?_⟩
  have hrestricted := statements_restricted h name
  rw [filter_operations_columnsOf halone, h] at hrestricted
  simpa using List.filter_eq_self.1 (Except.ok.inj hrestricted).symm statement hstatement

/-- A plan is put together from the plans for its tables, each of them alone with its columns: the
declared tables in name order, and then the tables that are not declared, in name order as well. Two
plans that agree on a table's declaration and columns have the same statements on it. -/
theorem plan_by_table (h : dialect.plan declared columns = .ok statements) :
    (∃ ordered names parts dropped,
      ordered.Perm declared ∧ ordered.Pairwise (fun a b => a.name < b.name) ∧
      names.Pairwise (· < ·) ∧
      (∀ name, name ∈ names ↔ name ∈ columns.map (·.table) ∧ name ∉ declared.map (·.name)) ∧
      List.Forall₂ (fun table => dialect.PlansAlone [table] columns table.name) ordered parts ∧
      List.Forall₂ (dialect.PlansAlone [] columns) names dropped ∧
      statements = parts.flatten ++ dropped.flatten) ∧
    ∀ declared' columns' statements', dialect.plan declared' columns' = .ok statements' →
      ∀ name, declarationsOf declared name = declarationsOf declared' name →
        columnsOf columns name = columnsOf columns' name →
        statements.filter (fun statement => statement.table = name) =
          statements'.filter fun statement => statement.table = name := by
  obtain ⟨hvalid, hplan⟩ := bind_eq_ok h
  obtain ⟨hnames, htables⟩ := validate_eq_ok_iff.1 hvalid
  refine ⟨?together, fun declared' columns' statements' h' name hdeclared hcolumns => ?agree⟩
  case agree =>
    have hpart := plan_restricted h name
    rw [hdeclared, hcolumns, plan_restricted h' name] at hpart
    exact (Except.ok.inj hpart).symm
  case together =>
    have hsingle : ∀ table ∈ inNameOrder declared, validate dialect [table] = .ok () :=
      fun table htable => validate_eq_ok_iff.2 ⟨List.nodup_singleton _, List.forall_mem_singleton.2
        (htables table (mem_inNameOrder.1 htable))⟩
    rw [planValidated, operations_by_table hnames] at hplan
    obtain ⟨first, second, hfirst, hsecond, rfl⟩ := statements_append_ok hplan
    obtain ⟨parts, hparts, rfl⟩ := statements_flatMap_ok hfirst
    obtain ⟨dropped, hdropped, rfl⟩ := statements_flatMap_ok hsecond
    refine ⟨_, _, parts, dropped, perm_inNameOrder declared, pairwise_inNameOrder hnames,
      pairwise_undeclaredNames declared columns, fun name => mem_undeclaredNames, ?_, ?_, rfl⟩
    · exact ((List.forall₂_and_left _ _).2 ⟨hsingle, hparts⟩).imp fun table part hpart =>
        plansAlone_of_statements hpart.1 (List.forall_mem_singleton.2 rfl) hpart.2
    · exact hdropped.imp fun name part hpart =>
        plansAlone_of_statements rfl (List.forall_mem_nil _) hpart

/-- Of two plans that agree on the orders, one drops another table and one does not. -/
theorem plan_by_table_orders :
    let orders : TableDecl := { name := "orders", fields := [
      { name := "id", type := "i64", primaryKey := true }, { name := "total", type := "i64" }] }
    let id : Column :=
      { table := "orders", name := "id", dataType := "BIGINT", nullable := false, primaryKey := true
        memberships := [⟨"PRIMARY", 1, true, true⟩] }
    let drafts : Column := { table := "drafts", name := "id", dataType := "BIGINT" }
    let added : Statement := ⟨"orders", "ALTER TABLE `orders` ADD `total` BIGINT NOT NULL"⟩
    let dropped : Statement := ⟨"drafts", "DROP TABLE `drafts`"⟩
    (mysql {}).plan [orders] [drafts, id] = .ok [added, dropped] ∧
      (mysql {}).plan [orders] [id] = .ok [added] ∧
      [added, dropped].filter (fun statement => statement.table = "orders") =
        [added].filter fun statement => statement.table = "orders" := by
  intro orders id drafts added dropped
  have hboth : (mysql {}).plan [orders] [drafts, id] = .ok [added, dropped] :=
    eq_ok_of_toOption (by decide +kernel)
  have halone : (mysql {}).plan [orders] [id] = .ok [added] := eq_ok_of_toOption (by decide +kernel)
  exact ⟨hboth, halone, (plan_by_table hboth).2 _ _ _ halone "orders" rfl (by decide)⟩

end Dialect

end SchemaPlan
