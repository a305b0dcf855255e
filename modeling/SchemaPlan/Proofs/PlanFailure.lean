import SchemaPlan.Proofs.Operations

/-!
# When planning fails

A MySQL plan exists for every valid schema. A Spanner plan fails where a live table would need
another primary key or a new column that does not accept null: both belong to a table as it was
created. Of several such tables the first one in name order is reported, and of one table its key
before its columns.

* `Spanner.Blocked`: a declared table that cannot be made of the live one.
* `Spanner.Obstacle`: what is reported of such a table.
* `Spanner.statements_eq_error_iff`: the operations on one table fail with its obstacle.
* `Dialect.plan_fails_iff`: a plan fails with the error of the validation or with an obstacle.
-/
namespace SchemaPlan

/-! ## Lists of operations that fail -/

section
variable {dialect : Dialect}

theorem statements_eq_ok_of_forall {operations : List Operation}
    (h : ∀ op ∈ operations, ∃ part, dialect.statementsOf op = .ok part) :
    ∃ statements, dialect.statements operations = .ok statements := by
  unfold Dialect.statements
  cases hparts : operations.mapM dialect.statementsOf with
  | ok parts => exact ⟨_, rfl⟩
  | error e =>
    obtain ⟨before, op, after, rfl, -, hop⟩ := mapM_eq_error_iff.1 hparts
    obtain ⟨part, hpart⟩ := h op (by simp)
    rw [hop] at hpart
    cases hpart

theorem statements_append_eq_error_iff {first second : List Operation} {error : SchemaError} :
    dialect.statements (first ++ second) = .error error ↔
      dialect.statements first = .error error ∨
        (∃ statements, dialect.statements first = .ok statements) ∧
          dialect.statements second = .error error := by
  rw [statements_append]
  cases dialect.statements first with
  | error e => simp [Except.bind]
  | ok a => cases dialect.statements second <;> simp [Except.bind, Except.map]

theorem statements_flatMap_eq_error_iff {α : Type} {l : List α} {operations : α → List Operation}
    {error : SchemaError} :
    dialect.statements (l.flatMap operations) = .error error ↔
      ∃ before a after, l = before ++ a :: after ∧
        (∀ b ∈ before, ∃ statements, dialect.statements (operations b) = .ok statements) ∧
        dialect.statements (operations a) = .error error := by
  rw [statements_flatMap, ← mapM_eq_error_iff]
  cases l.mapM fun a => dialect.statements (operations a) <;> simp [Except.map]

end

/-! ## MySQL -/

theorem MySql.statementsOf_eq_ok (d : MySql) (op : Operation) :
    ∃ part, (Dialect.mysql d).statementsOf op = .ok part := by
  cases op <;> exact ⟨_, rfl⟩

/-! ## Obstacles of Spanner -/

namespace Spanner

/-- A field whose column is missing and cannot be added, since it does not accept null. -/
def Unaddable (live : LiveTable) (field : FieldDecl) : Prop :=
  field.isNullable = false ∧ field.columnName ∉ live.columns.map (·.name)

/-- A declared table that cannot be made of the live one of its name. -/
def Blocked (columns : List Column) (table : TableDecl) : Prop :=
  ∃ live, (liveTables columns).find? table.name = some live ∧
    (table.primaryKey ≠ live.primaryKey ∨ ∃ field ∈ table.fields, Unaddable live field)

/-- What is reported of a table that cannot be made of a live one: that its key is another one,
without a column, or else the first of its fields that cannot be added. -/
inductive Obstacle (table : TableDecl) (live : LiveTable) : Option String → Feature → Prop
  | key (hkey : table.primaryKey ≠ live.primaryKey) : Obstacle table live none .changePrimaryKey
  | column {before field after} (hkey : table.primaryKey = live.primaryKey)
      (hfields : table.fields = before ++ field :: after)
      (hbefore : ∀ other ∈ before, ¬ Unaddable live other) (hfield : Unaddable live field) :
      Obstacle table live (some field.columnName) .addRequiredColumn

theorem exists_obstacle_iff {table : TableDecl} {live : LiveTable} :
    (∃ column feature, Obstacle table live column feature) ↔
      table.primaryKey ≠ live.primaryKey ∨ ∃ field ∈ table.fields, Unaddable live field := by
  constructor
  · rintro ⟨column, feature, hobstacle⟩
    cases hobstacle with
    | key hkey => exact .inl hkey
    | column _ hfields _ hfield => exact .inr ⟨_, by simp [hfields], hfield⟩
  · intro h
    by_cases hkey : table.primaryKey = live.primaryKey
    · obtain ⟨before, field, after, hfields, hbefore, hfield⟩ :=
        exists_first (h.resolve_left fun hne => hne hkey)
      exact ⟨_, _, .column hkey hfields hbefore hfield⟩
    · exact ⟨_, _, .key hkey⟩

/-! ## The operations on one table -/

variable {d : Spanner}

theorem statements_addColumn_eq_error_iff (table : String) (live : LiveTable) (field : FieldDecl)
    {error : SchemaError} :
    (Dialect.spanner d).statements
        (if (live.column? field.columnName).isNone then [.addColumn table field] else []) =
          .error error ↔
      Unaddable live field ∧
        error = .unsupported "spanner" table (some field.columnName) .addRequiredColumn := by
  have hadd : (Dialect.spanner d).statementsOf (.addColumn table field) =
      (d.addColumn table field).map fun texts => texts.map (Statement.mk table) := rfl
  split
  · rename_i hnone
    have hmissing := column?_eq_none.1 (Option.isNone_iff_eq_none.1 hnone)
    rw [Dialect.statements, List.mapM_cons, hadd, addColumn]
    cases hnull : field.isNullable <;>
      simp [Unaddable, hnull, hmissing, bind, Except.bind, Except.map, pure, Except.pure, eq_comm]
  · rename_i hsome
    have hpresent : ¬ Unaddable live field := fun h =>
      hsome (Option.isNone_iff_eq_none.2 (column?_eq_none.2 h.2))
    simp [hpresent, Dialect.statements, Except.map, pure, Except.pure]

def earlyOperations (table : TableDecl) (live : LiveTable) : List Operation :=
  (diffIndexes table.indexes live.indexes).drop.map (.dropIndex table.name) ++
    (columnsToDrop table live).map (.dropColumn table.name)

def lateOperations (d : Spanner) (table : TableDecl) (live : LiveTable) : List Operation :=
  (table.fields.filterMap (alteration? (.spanner d) table live)).map
      (fun change => .alterColumn table.name change.1 change.2) ++
    (diffIndexes table.indexes live.indexes).create.map (.createIndex table.name)

theorem earlyOperations_eq_ok (table : TableDecl) (live : LiveTable) :
    ∃ statements, (Dialect.spanner d).statements (earlyOperations table live) = .ok statements := by
  refine statements_eq_ok_of_forall fun op hop => ?_
  simp only [earlyOperations, List.mem_append, List.mem_map] at hop
  rcases hop with ⟨_, -, rfl⟩ | ⟨_, -, rfl⟩ <;> exact ⟨_, rfl⟩

theorem lateOperations_eq_ok (table : TableDecl) (live : LiveTable) :
    ∃ statements,
      (Dialect.spanner d).statements (lateOperations d table live) = .ok statements := by
  refine statements_eq_ok_of_forall fun op hop => ?_
  simp only [lateOperations, List.mem_append, List.mem_map] at hop
  rcases hop with ⟨_, -, rfl⟩ | ⟨_, -, rfl⟩ <;> exact ⟨_, rfl⟩

/-- For a table that keeps its key, the new columns come between operations that never fail. -/
theorem tableOperations_of_key_eq {table : TableDecl} {live : LiveTable}
    (hkey : table.primaryKey = live.primaryKey) :
    (Dialect.spanner d).tableOperations table live =
      earlyOperations table live ++ ((table.fields.flatMap fun field =>
        if (live.column? field.columnName).isNone then [.addColumn table.name field] else []) ++
          lateOperations d table live) := by
  have hwithKey : fieldsWithKey table live = [] := if_pos hkey
  have hadd : fieldsToAdd table live =
      table.fields.filter fun field => (live.column? field.columnName).isNone := by
    simp [fieldsToAdd, hwithKey]
  rw [tableOperations_eq, settleOperations, releaseOperations, Dialect.keyOperations, if_pos hkey,
    hadd, flatMap_if, earlyOperations, lateOperations]
  simp only [List.nil_append, List.append_assoc]

theorem tableOperations_of_key_ne {table : TableDecl} {live : LiveTable}
    (hkey : table.primaryKey ≠ live.primaryKey) :
    ∃ added rest, (Dialect.spanner d).tableOperations table live =
      .changeKey table.name live.primaryKey table.primaryKey added :: rest := by
  rw [tableOperations_eq, settleOperations, releaseOperations, Dialect.keyOperations, if_neg hkey]
  exact ⟨_, _, rfl⟩

theorem statements_eq_error_of_key_eq {table : TableDecl} {live : LiveTable}
    (hkey : table.primaryKey = live.primaryKey) {error : SchemaError} :
    (Dialect.spanner d).statements ((Dialect.spanner d).tableOperations table live) = .error error ↔
      ∃ before field after, table.fields = before ++ field :: after ∧
        (∀ other ∈ before, ¬ Unaddable live other) ∧ Unaddable live field ∧
        error = .unsupported "spanner" table.name (some field.columnName) .addRequiredColumn := by
  obtain ⟨early, hearly⟩ := @earlyOperations_eq_ok d table live
  obtain ⟨late, hlate⟩ := @lateOperations_eq_ok d table live
  rw [tableOperations_of_key_eq hkey, statements_append_eq_error_iff,
    statements_append_eq_error_iff, statements_flatMap_eq_error_iff, hearly, hlate]
  simp only [reduceCtorEq, and_false, or_false, false_or, Except.ok.injEq, exists_eq', true_and,
    exists_ok_iff, statements_addColumn_eq_error_iff, exists_and_left, exists_eq, and_true]

theorem statements_eq_error_iff {table : TableDecl} {live : LiveTable} {error : SchemaError} :
    (Dialect.spanner d).statements ((Dialect.spanner d).tableOperations table live) = .error error ↔
      ∃ column feature, Obstacle table live column feature ∧
        error = .unsupported "spanner" table.name column feature := by
  by_cases hkey : table.primaryKey = live.primaryKey
  · rw [statements_eq_error_of_key_eq hkey]
    constructor
    · rintro ⟨before, field, after, hfields, hbefore, hfield, rfl⟩
      exact ⟨_, _, .column hkey hfields hbefore hfield, rfl⟩
    · rintro ⟨column, feature, hobstacle, rfl⟩
      cases hobstacle with
      | key hne => exact absurd hkey hne
      | column _ hfields hbefore hfield => exact ⟨_, _, _, hfields, hbefore, hfield, rfl⟩
  · obtain ⟨added, rest, hoperations⟩ := @tableOperations_of_key_ne d table live hkey
    have hfails : (Dialect.spanner d).statements
        ((Dialect.spanner d).tableOperations table live) =
          .error (.unsupported "spanner" table.name none .changePrimaryKey) := by
      rw [hoperations]
      rfl
    rw [hfails]
    constructor
    · intro h
      exact ⟨_, _, .key hkey, (Except.error.inj h).symm⟩
    · rintro ⟨column, feature, hobstacle, rfl⟩
      cases hobstacle with
      | key _ => rfl
      | column heq _ _ _ => exact absurd heq hkey

/-- The operations for a declared table fail with the obstacle of its live table. -/
theorem statements_declaredOperations_iff {columns : List Column} {table : TableDecl}
    {error : SchemaError} :
    (Dialect.spanner d).statements
        ((Dialect.spanner d).declaredOperations (liveTables columns) table) = .error error ↔
      ∃ live, (liveTables columns).find? table.name = some live ∧
        ∃ column feature, Obstacle table live column feature ∧
          error = .unsupported "spanner" table.name column feature := by
  unfold Dialect.declaredOperations
  cases (liveTables columns).find? table.name with
  | none =>
    simp [Dialect.statements, bind, Except.bind, Except.map, pure, Except.pure,
      Dialect.statementsOf, Dialect.render]
  | some live => simp [statements_eq_error_iff]

theorem statements_declaredOperations_ok_iff {columns : List Column} {table : TableDecl} :
    (∃ statements, (Dialect.spanner d).statements
        ((Dialect.spanner d).declaredOperations (liveTables columns) table) = .ok statements) ↔
      ¬ Blocked columns table := by
  rw [exists_ok_iff, Blocked]
  simp only [statements_declaredOperations_iff, ← exists_obstacle_iff]
  refine not_congr ⟨?_, ?_⟩
  · rintro ⟨error, live, hlive, column, feature, hobstacle, -⟩
    exact ⟨live, hlive, column, feature, hobstacle⟩
  · rintro ⟨live, hlive, column, feature, hobstacle⟩
    exact ⟨_, live, hlive, column, feature, hobstacle, rfl⟩

/-! ## Whole plans -/

theorem dropOperations_eq_ok (tables : List LiveTable) :
    ∃ statements, (Dialect.spanner d).statements
      (tables.map fun live => .dropTable live.name live.indexes.values) = .ok statements := by
  refine statements_eq_ok_of_forall fun op hop => ?_
  obtain ⟨live, -, rfl⟩ := List.mem_map.1 hop
  exact ⟨_, rfl⟩

/-- The operations of a plan fail at the first blocked table, with its obstacle. -/
theorem planValidated_eq_error_iff {declared : List TableDecl} {columns : List Column}
    {error : SchemaError} :
    (Dialect.spanner d).planValidated declared columns = .error error ↔
      ∃ before table after, inNameOrder declared = before ++ table :: after ∧
        (∀ other ∈ before, ¬ Blocked columns other) ∧
        ∃ live, (liveTables columns).find? table.name = some live ∧
          ∃ column feature, Obstacle table live column feature ∧
            error = .unsupported "spanner" table.name column feature := by
  obtain ⟨dropped, hdropped⟩ := @dropOperations_eq_ok d (undeclaredTables declared columns)
  rw [Dialect.planValidated, operations_eq, statements_append_eq_error_iff, hdropped,
    statements_flatMap_eq_error_iff]
  simp only [statements_declaredOperations_iff, statements_declaredOperations_ok_iff, reduceCtorEq,
    and_false, or_false]

theorem exists_error_iff {declared : List TableDecl} {columns : List Column} :
    (∃ error, (Dialect.spanner d).planValidated declared columns = .error error) ↔
      ∃ table ∈ declared, Blocked columns table := by
  simp only [planValidated_eq_error_iff]
  constructor
  · rintro ⟨_, before, table, after, hsplit, -, live, hlive, column, feature, hobstacle, -⟩
    exact ⟨table, mem_inNameOrder.1 (by simp [hsplit]), live, hlive,
      exists_obstacle_iff.1 ⟨column, feature, hobstacle⟩⟩
  · rintro ⟨table, htable, hblocked⟩
    obtain ⟨before, first, after, hsplit, hbefore, live, hlive, hfirst⟩ :=
      exists_first ⟨table, mem_inNameOrder.2 htable, hblocked⟩
    obtain ⟨column, feature, hobstacle⟩ := exists_obstacle_iff.2 hfirst
    exact ⟨_, before, first, after, hsplit, hbefore, live, hlive, column, feature, hobstacle, rfl⟩

end Spanner

/-- A MySQL plan exists for every valid schema. -/
theorem MySql.planValidated_eq_ok (d : MySql) (declared : List TableDecl) (columns : List Column) :
    ∃ statements, (Dialect.mysql d).planValidated declared columns = .ok statements :=
  statements_eq_ok_of_forall fun op _ => d.statementsOf_eq_ok op

namespace Dialect

theorem plan_of_invalid {dialect : Dialect} {declared : List TableDecl} {error : SchemaError}
    (h : validate dialect declared = .error error) (columns : List Column) :
    dialect.plan declared columns = .error error := by
  rw [plan, h]
  rfl

/-- On MySQL planning fails when validation does, and with its error. On Spanner it fails then, or
when a declared table is blocked; the error is that of the validation, or else the obstacle of the
least blocked table. -/
theorem plan_fails_iff (declared : List TableDecl) (columns : List Column) :
    (∀ (d : MySql) error, (mysql d).plan declared columns = .error error ↔
      validate (mysql d) declared = .error error) ∧
    ∀ d : Spanner,
      ((∃ error, (spanner d).plan declared columns = .error error) ↔
        (∃ error, validate (spanner d) declared = .error error) ∨
          ∃ table ∈ declared, Spanner.Blocked columns table) ∧
      ∀ error, (spanner d).plan declared columns = .error error ↔
        validate (spanner d) declared = .error error ∨
          validate (spanner d) declared = .ok () ∧
            ∃ table ∈ declared,
              (∀ other ∈ declared, Spanner.Blocked columns other → table.name ≤ other.name) ∧
              ∃ live, (liveTables columns).find? table.name = some live ∧
                ∃ column feature, Spanner.Obstacle table live column feature ∧
                  error = .unsupported "spanner" table.name column feature := by
  refine ⟨fun d error => ?mysql, fun d => ?spanner⟩
  case mysql =>
    cases hvalid : validate (mysql d) declared with
    | error e => simp [plan_of_invalid hvalid]
    | ok valid =>
      obtain ⟨statements, hstatements⟩ := d.planValidated_eq_ok declared columns
      rw [plan_of_valid hvalid, hstatements]
      simp
  case spanner =>
    cases hvalid : validate (spanner d) declared with
    | error e => simp [plan_of_invalid hvalid]
    | ok valid =>
      have hnames := (validate_eq_ok_iff.1 hvalid).1
      rw [plan_of_valid hvalid]
      refine ⟨?_, fun error => ?_⟩
      · rw [Spanner.exists_error_iff]
        simp
      · rw [Spanner.planValidated_eq_error_iff, exists_least_iff hnames]
        simp

/-- A required column that a live table lacks. -/
theorem plan_fails_orders :
    let id : FieldDecl := { name := "id", type := "i64", primaryKey := true }
    let total : FieldDecl := { name := "total", type := "i64" }
    let column : Column :=
      { table := "orders", name := "id", dataType := "INT64", nullable := false, primaryKey := true
        memberships := [⟨"PRIMARY_KEY", 1, true, true⟩] }
    (spanner {}).plan [{ name := "orders", fields := [id, total] }] [column] =
      .error (.unsupported "spanner" "orders" (some "total") .addRequiredColumn) := by
  intro id total column
  let orders : TableDecl := { name := "orders", fields := [id, total] }
  let live : LiveTable := ⟨"orders", [column]⟩
  have hvalid : validate (spanner {}) [orders] = .ok () := eq_ok_of_toOption (by decide +kernel)
  have hlive : (liveTables [column]).find? "orders" = some live := by decide +kernel
  have hleast : ∀ other ∈ [orders], Spanner.Blocked [column] other → "orders" ≤ other.name := by
    simp [orders]
  have hkey : orders.primaryKey = live.primaryKey := by decide +kernel
  have hid : ¬ Spanner.Unaddable live id := fun h => absurd h.2 (by decide)
  have htotal : Spanner.Unaddable live total := ⟨by decide +kernel, by decide⟩
  have hobstacle : Spanner.Obstacle orders live (some total.columnName) .addRequiredColumn :=
    .column hkey (show orders.fields = [id] ++ total :: [] from rfl)
      (List.forall_mem_singleton.2 hid) htotal
  rw [show total.columnName = "total" by decide +kernel] at hobstacle
  exact (((plan_fails_iff [orders] [column]).2 {}).2 _).2
    (.inr ⟨hvalid, orders, List.mem_singleton_self _, hleast, live, hlive, _, _, hobstacle, rfl⟩)

end Dialect

end SchemaPlan
