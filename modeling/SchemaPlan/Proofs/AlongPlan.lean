import SchemaPlan.Proofs.Execution

/-!
# One table all along a plan

At any moment of a plan a declared live table is where a first part of its own operations has led
it, a created table is as declared, and a table that goes is as it was. What holds of every table at
every moment is therefore a matter of the declared live tables, each by itself.

* `find?_run_prefix`: where the operations so far have led a declared live table.
* `holds_along_iff`: what holds of all tables all along a plan.
-/
namespace SchemaPlan

variable {dialect : Dialect} {declared : List TableDecl} {columns : List Column}

theorem find?_ofDeclared (hnames : (declared.map (·.name)).Nodup) {table : TableDecl}
    (htable : table ∈ declared) :
    (Layout.ofDeclared declared).find? table.name = some (.ofDeclared table) := by
  have hmem : (table.name, TableLayout.ofDeclared table) ∈
      declared.map fun table => (table.name, TableLayout.ofDeclared table) :=
    List.mem_map_of_mem htable
  rw [Layout.ofDeclared, NameMap.find?_ofFirst,
    NameMap.findIn_eq_some_of_mem hmem (by rw [List.map_map]; exact hnames)]

theorem find?_ofColumns_of_live {name : String} {live : LiveTable}
    (h : (liveTables columns).find? name = some live) :
    (Layout.ofColumns columns).find? name = some (.ofLive live) := by
  rw [find?_ofColumns, h]
  rfl

/-- What the operations of a plan have made of a live table that is declared. -/
theorem find?_run_prefix (hnames : (declared.map (·.name)).Nodup) {table : TableDecl}
    (htable : table ∈ declared) {live : LiveTable}
    (hlive : (liveTables columns).find? table.name = some live) {before : List Operation}
    (hbefore : before <+: dialect.operations declared columns) :
    ∃ own, own = before.filter (fun op => op.table = table.name) ∧
      own <+: dialect.tableOperations table live ∧
      ((Layout.ofColumns columns).run before).find? table.name =
        some ((TableLayout.ofLive live).run own) := by
  have hown := hbefore.filter fun op => op.table = table.name
  rw [operations_on_declared hnames htable, Dialect.declaredOperations, hlive] at hown
  refine ⟨_, rfl, hown, ?_⟩
  rw [Layout.find?_run_filter, Layout.find?_run _ fun op hop =>
    keepsTable_of_mem dialect table live (hown.subset hop), find?_ofColumns_of_live hlive]
  rfl

/-- A table that is created is as it is declared, from then on. -/
theorem eq_of_created (hnames : (declared.map (·.name)).Nodup) {table : TableDecl}
    (htable : table ∈ declared) (hnone : (liveTables columns).find? table.name = none)
    {before : List Operation} (hbefore : before <+: dialect.operations declared columns)
    {found : TableLayout}
    (hfound : ((Layout.ofColumns columns).run before).find? table.name = some found) :
    found = .ofDeclared table := by
  have hown := hbefore.filter fun op => op.table = table.name
  rw [operations_on_declared hnames htable, Dialect.declaredOperations, hnone] at hown
  rw [Layout.find?_run_filter] at hfound
  rcases List.prefix_cons_iff.1 hown with hnil | ⟨rest, hrest, hnil⟩
  · rw [hnil] at hfound
    replace hfound : (Layout.ofColumns columns).find? table.name = some found := hfound
    rw [find?_ofColumns, hnone] at hfound
    cases hfound
  · rw [List.prefix_nil.1 hnil] at hrest
    rw [hrest, Layout.run, List.foldl_cons, List.foldl_nil, Layout.apply, NameMap.find?_insert,
      if_pos rfl, created_eq_ofDeclared] at hfound
    exact (Option.some.inj hfound).symm

theorem eq_of_undeclared {name : String} (hname : name ∉ declared.map (·.name))
    {before : List Operation} (hbefore : before <+: dialect.operations declared columns)
    {found : TableLayout}
    (hfound : ((Layout.ofColumns columns).run before).find? name = some found) :
    (Layout.ofColumns columns).find? name = some found := by
  have hown := hbefore.filter fun op => op.table = name
  rw [operations_on_undeclared hname] at hown
  rw [Layout.find?_run_filter] at hfound
  have hstart (hnil : before.filter (fun op => op.table = name) = []) :
      (Layout.ofColumns columns).find? name = some found := by
    rw [hnil] at hfound
    exact hfound
  cases hcase : (liveTables columns).find? name with
  | none =>
    rw [hcase] at hown
    exact hstart (List.prefix_nil.1 hown)
  | some live =>
    obtain rfl := (live_table hcase).1
    rw [hcase] at hown
    rcases List.prefix_cons_iff.1 hown with hnil | ⟨rest, hrest, hnil⟩
    · exact hstart hnil
    · rw [List.prefix_nil.1 hnil] at hrest
      rw [hrest, Layout.run, List.foldl_cons, List.foldl_nil, Layout.apply, NameMap.find?_erase,
        if_pos rfl] at hfound
      cases hfound

/-- What holds of all declared and of all live tables holds of every table all along a plan if and
only if it does of each declared live table all along its own operations. -/
theorem holds_along_iff {P : TableLayout → Prop} (hnames : (declared.map (·.name)).Nodup)
    (hdeclared : ∀ table ∈ declared, P (.ofDeclared table))
    (hlive : ∀ name found, (Layout.ofColumns columns).find? name = some found → P found) :
    (∀ before, before <+: dialect.operations declared columns → ∀ name found,
      ((Layout.ofColumns columns).run before).find? name = some found → P found) ↔
    ∀ table ∈ declared, ∀ live, (liveTables columns).find? table.name = some live →
      ∀ own, own <+: dialect.tableOperations table live → P ((TableLayout.ofLive live).run own) := by
  constructor
  · intro h table htable live hfound own hown
    have hfilter : (dialect.operations declared columns).filter
        (fun op => op.table = table.name) = dialect.tableOperations table live := by
      rw [operations_on_declared hnames htable, Dialect.declaredOperations, hfound]
    rw [← hfilter] at hown
    obtain ⟨before, hbefore, rfl⟩ := List.prefix_filter_iff.1 hown
    obtain ⟨_, rfl, -, hrun⟩ := find?_run_prefix hnames htable hfound hbefore
    exact h before hbefore table.name _ hrun
  · intro h before hbefore name found hfound
    by_cases hname : name ∈ declared.map (·.name)
    · obtain ⟨table, htable, rfl⟩ := List.mem_map.1 hname
      cases hcase : (liveTables columns).find? table.name with
      | none =>
        rw [eq_of_created hnames htable hcase hbefore hfound]
        exact hdeclared table htable
      | some live =>
        obtain ⟨own, -, hown, hrun⟩ := find?_run_prefix hnames htable hcase hbefore
        rw [hrun] at hfound
        cases hfound
        exact h table htable live hcase own hown
    · exact hlive name found (eq_of_undeclared hname hbefore hfound)

end SchemaPlan
