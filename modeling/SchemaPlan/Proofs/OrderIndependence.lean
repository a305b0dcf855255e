import SchemaPlan.Proofs.MySqlRows
import SchemaPlan.Proofs.SpannerRows

/-!
# Plans from catalog rows

What is planned for the rows of a catalog does not depend on the order of the rows, nor on the order
of the declared tables, if the rows agree with each other.

Spanner options are kept by their names in lower case, and of several rows about one option the last
counts. Rows must therefore agree on the value of an option however its name is spelled; for rows
that agree only where the spelling is the same, the order can show.

* `CatalogRows`: the rows of a catalog; `Permuted`: the same rows in another order.
* `plan_permuted`: permuted rows and tables are read and planned alike.
* `spelling_shows_order`: rows that spell an option in two ways with different values.
-/
namespace SchemaPlan

/-- The rows of a catalog, with the dialect of the database. -/
inductive CatalogRows where
  | mysql (dialect : MySql) (columns : List MySql.ColumnRow) (indexes : List MySql.IndexRow)
  | spanner (dialect : Spanner) (rows : List Spanner.Row)

namespace CatalogRows

def dialect : CatalogRows → Dialect
  | .mysql dialect _ _ => .mysql dialect
  | .spanner dialect _ => .spanner dialect

def read : CatalogRows → Except CatalogError (List Column)
  | .mysql dialect columns indexes => dialect.columnsOfRows columns indexes
  | .spanner _ rows => Spanner.columnsOfRows rows

def plan (catalog : CatalogRows) (tables : List TableDecl) :
    Except SchemaError (List Statement) := do
  let columns ← catalog.read.mapError .catalog
  catalog.dialect.plan tables columns

/-- The same rows in another order. -/
inductive Permuted : CatalogRows → CatalogRows → Prop
  | mysql {dialect columns columns' indexes indexes'} (hcolumns : columns.Perm columns')
      (hindexes : indexes.Perm indexes') :
      Permuted (.mysql dialect columns indexes) (.mysql dialect columns' indexes')
  | spanner {dialect rows rows'} (hrows : rows.Perm rows') :
      Permuted (.spanner dialect rows) (.spanner dialect rows')

/-- The rows of a catalog agree with each other. Options of a column whose names `key` takes for the
same are one option. -/
def Consistent (key : String → String) : CatalogRows → Prop
  | .mysql _ columns indexes => MySql.Consistent columns indexes
  | .spanner _ rows => Spanner.Consistent rows ∧ Spanner.OptionsAgree key rows

variable {catalog catalog' : CatalogRows}

theorem Permuted.symm (h : catalog.Permuted catalog') : catalog'.Permuted catalog := by
  cases h with
  | mysql hcolumns hindexes => exact .mysql hcolumns.symm hindexes.symm
  | spanner hrows => exact .spanner hrows.symm

theorem Permuted.dialect_eq (h : catalog.Permuted catalog') :
    catalog.dialect = catalog'.dialect := by
  cases h <;> rfl

theorem Permuted.consistent (h : catalog.Permuted catalog') {key : String → String}
    (hconsistent : catalog.Consistent key) : catalog'.Consistent key := by
  cases h with
  | mysql hcolumns hindexes => exact MySql.Consistent.perm hconsistent hcolumns hindexes
  | spanner hrows => exact ⟨hconsistent.1.perm hrows, hconsistent.2.perm hrows⟩

/-- Consistent rows are read as the same columns in any order. -/
theorem read_reordered (h : catalog.Permuted catalog')
    (hconsistent : catalog.Consistent Spanner.lowerName) {columns : List Column}
    (hread : catalog.read = .ok columns) :
    Unambiguous columns ∧ ∃ columns', catalog'.read = .ok columns' ∧
      Reordered columns columns' := by
  cases h with
  | mysql hcolumns hindexes =>
    exact MySql.columnsOfRows_reordered _ hconsistent hcolumns hindexes hread
  | spanner hrows =>
    exact Spanner.columnsOfRows_reordered hrows hconsistent.1 hconsistent.2 hread

/-- Whether rows can be read, whether there is a plan for them and which statements it has does not
depend on the order of consistent rows nor on that of the declared tables. -/
theorem plan_permuted {tables tables' : List TableDecl} (h : catalog.Permuted catalog')
    (htables : tables.Perm tables') (hconsistent : catalog.Consistent Spanner.lowerName) :
    catalog.read.isOk = catalog'.read.isOk ∧
      (catalog.plan tables).toOption = (catalog'.plan tables').toOption := by
  unfold plan
  cases hread : catalog.read with
  | ok columns =>
    obtain ⟨hclear, columns', hread', hreordered⟩ := read_reordered h hconsistent hread
    rw [hread', h.dialect_eq]
    exact ⟨rfl, Dialect.plan_reordered _ htables hreordered hclear⟩
  | error error =>
    cases hread' : catalog'.read with
    | error error' => exact ⟨rfl, rfl⟩
    | ok columns' =>
      obtain ⟨-, columns, hread'', -⟩ := read_reordered h.symm (h.consistent hconsistent) hread'
      rw [hread] at hread''
      cases hread''

/-- Two declared tables and the rows of a live one, all of them backwards. -/
theorem plan_permuted_backwards :
    let tables : List TableDecl := [
      { name := "orders", fields := [{ name := "id", type := "i64", primaryKey := true }] },
      { name := "lines", fields := [{ name := "id", type := "i64", primaryKey := true }] }]
    let columns : List MySql.ColumnRow := [
      { table := "orders", column := some "id", position := 1, columnType := "bigint"
        dataType := "bigint", isNullable := "NO" },
      { table := "orders", column := some "note", position := 2, columnType := "text"
        dataType := "text", isNullable := "YES" }]
    let indexes : List MySql.IndexRow := [
      { table := "orders", index := "PRIMARY", column := some "id", position := 1 },
      { table := "orders", index := "by_note", column := some "note", position := 1
        nonUnique := true }]
    let catalog := CatalogRows.mysql {} columns indexes
    let catalog' := CatalogRows.mysql {} columns.reverse indexes.reverse
    catalog.Permuted catalog' ∧ tables.Perm tables.reverse ∧
      catalog.Consistent Spanner.lowerName ∧
      catalog.read.isOk = catalog'.read.isOk ∧
      (catalog.plan tables).toOption = (catalog'.plan tables.reverse).toOption := by
  intro tables columns indexes catalog catalog'
  have hpermuted : catalog.Permuted catalog' :=
    .mysql (List.reverse_perm columns).symm (List.reverse_perm indexes).symm
  have htables : tables.Perm tables.reverse := (List.reverse_perm tables).symm
  have hconsistent : catalog.Consistent Spanner.lowerName := ⟨by decide, by decide⟩
  exact ⟨hpermuted, htables, hconsistent, plan_permuted hpermuted htables hconsistent⟩

/-- Rows that spell an option in two ways, and agree where the spelling is the same: the value of
the last one counts. -/
theorem spelling_shows_order :
    let row (option value : String) : Spanner.Row := [
      .text "t", .text "at", .text "1", .text "NO", .text "TIMESTAMP",
      .text "PRIMARY_KEY", .text "1", .text "PRIMARY_KEY", .bool true, .text option, .text value]
    let upper := row "ALLOW_COMMIT_TIMESTAMP" "false"
    let lower := row "allow_commit_timestamp" "true"
    let tables : List TableDecl := [{ name := "t", fields := [
      { name := "at", type := "DateTime", ddlType := some "TIMESTAMP", primaryKey := true
        extra := some "allow_commit_timestamp=true" }] }]
    let catalog := CatalogRows.spanner {} [upper, lower]
    let catalog' := CatalogRows.spanner {} [lower, upper]
    catalog.Permuted catalog' ∧ catalog.Consistent id ∧
      (catalog.plan tables).toOption = some [] ∧
      (catalog'.plan tables).toOption = some [⟨"t",
        "ALTER TABLE `t` ALTER COLUMN `at` SET OPTIONS (allow_commit_timestamp=true)"⟩] := by
  intro row upper lower tables catalog catalog'
  have hpermuted : catalog.Permuted catalog' := .spanner (.swap _ _ [])
  -- both rows are about one column, and they differ in nothing but the option
  have hrows : ∀ x ∈ [upper, lower], Spanner.about? x = some ("t", "at") ∧
      Spanner.reported? x = some ⟨"PRIMARY_KEY", 1, true, true⟩ ∧
      Spanner.positionCell x 2 = .ok (some 1) ∧ Spanner.textCell x 3 = some "NO" ∧
      Spanner.textCell x 4 = some "TIMESTAMP" := by
    intro x hx
    rcases List.mem_pair.1 hx with rfl | rfl <;> exact ⟨rfl, rfl, rfl, rfl, rfl⟩
  refine ⟨hpermuted, ⟨⟨?described, ?positions, ?unique⟩, ?options⟩, by decide +kernel,
    by decide +kernel⟩
  case described =>
    intro x hx y hy _
    obtain ⟨-, -, hposition, hnullable, htype⟩ := hrows x hx
    obtain ⟨-, -, hposition', hnullable', htype'⟩ := hrows y hy
    exact ⟨hposition.trans hposition'.symm, hnullable.trans hnullable'.symm, by rw [htype, htype']⟩
  case positions =>
    intro x hx y hy table name name' position habout habout' hne
    rw [(hrows x hx).1] at habout
    rw [(hrows y hy).1] at habout'
    cases habout
    cases habout'
    exact absurd rfl hne
  case unique =>
    intro x hx y hy _ _ _ member member' _ _ hmember hmember' _
    rw [(hrows x hx).2.1] at hmember
    rw [(hrows y hy).2.1] at hmember'
    cases hmember
    cases hmember'
    exact ⟨rfl, rfl⟩
  case options =>
    intro x hx y hy _ name name' value value' hspelled hspelled' hname
    have hname : name = name' := hname
    rcases List.mem_pair.1 hx with rfl | rfl <;> rcases List.mem_pair.1 hy with rfl | rfl <;>
      cases hspelled <;> cases hspelled' <;> simp_all

end CatalogRows

end SchemaPlan
