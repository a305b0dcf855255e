import SchemaPlan.Plan
import SchemaPlan.Proofs.Index

/-!
# Layouts: what operations do to a database

The layout of a table is its columns, each with the mark whether it counts, its primary key and its
secondary indexes; the layout of a database is that of its tables. `apply` says what an operation
does to a layout, and `Admits` when a database can carry it out: nothing is created twice, only what
exists is changed or dropped, keys and indexes have columns of their table, and no column is dropped
that a key or an index still has.

* `executable_append`, `run_append`: a run of two lists of operations is a run of one behind the
  other.
* `find?_apply_of_ne`, `find?_run_filter`: an operation changes its own table only.
* `find?_run`, `executable_of_table`: on the operations of one table a run is a run on that table.
-/
namespace SchemaPlan

/-- Whether operations can be carried out one after the other. -/
def Executable {σ : Type} (admits : σ → Operation → Prop) (apply : σ → Operation → σ) :
    σ → List Operation → Prop
  | _, [] => True
  | s, op :: rest => admits s op ∧ Executable admits apply (apply s op) rest

theorem executable_append {σ : Type} {admits : σ → Operation → Prop} {apply : σ → Operation → σ}
    {s : σ} {a b : List Operation} :
    Executable admits apply s (a ++ b) ↔
      Executable admits apply s a ∧ Executable admits apply (a.foldl apply s) b := by
  induction a generalizing s with
  | nil => simp [Executable]
  | cons op rest ih => simp [Executable, ih, and_assoc]

/-! ## Tables -/

/-- The layout of a table. -/
@[ext]
structure TableLayout where
  /-- The columns, and whether they count. -/
  columns : NameMap Bool
  key : List String
  indexes : NameMap Index

namespace TableLayout

def ofLive (live : LiveTable) : TableLayout where
  columns := .ofFirst (live.columns.map fun column => (column.name, column.autoIncrement))
  key := live.primaryKey
  indexes := live.indexes

/-- The layout of a table that is created with given indexes. -/
def created (table : TableDecl) (indexes : List Index) : TableLayout where
  columns := .ofFirst (table.fields.map fun field => (field.columnName, field.autoIncrement))
  key := table.primaryKey
  indexes := .ofFirst (indexes.map fun index => (index.name, index))

/-- The layout that a declaration asks for. -/
def ofDeclared (table : TableDecl) : TableLayout where
  columns := .ofFirst (table.fields.map fun field => (field.columnName, field.autoIncrement))
  key := table.primaryKey
  indexes := table.indexes

def setColumn (layout : TableLayout) (field : FieldDecl) : TableLayout :=
  { layout with columns := layout.columns.insert field.columnName field.autoIncrement }

/-- What an operation does to a table that stays. -/
def apply (layout : TableLayout) : Operation → TableLayout
  | .changeKey _ _ new added => { added.foldl setColumn layout with key := new }
  | .dropIndex _ name => { layout with indexes := layout.indexes.erase name }
  | .dropColumn _ column => { layout with columns := layout.columns.erase column }
  | .addColumn _ field => layout.setColumn field
  | .alterColumn _ _ new => layout.setColumn new
  | .createIndex _ index => { layout with indexes := layout.indexes.insert index.name index }
  | .createTable _ _ | .dropTable _ _ => layout

/-- Whether a table can carry out an operation. -/
def Admits (layout : TableLayout) : Operation → Prop
  | .changeKey _ old new added =>
    layout.key = old ∧ (added.map (·.columnName)).Nodup ∧
      (∀ field ∈ added, ¬ layout.columns.contains field.columnName) ∧
      ∀ column ∈ new, layout.columns.contains column ∨ column ∈ added.map (·.columnName)
  | .dropIndex _ name => layout.indexes.contains name
  | .dropColumn _ column =>
    layout.columns.contains column ∧ column ∉ layout.key ∧
      ∀ index ∈ layout.indexes.values, column ∉ index.columns
  | .addColumn _ field => ¬ layout.columns.contains field.columnName
  | .alterColumn _ old new =>
    old.columnName = new.columnName ∧ layout.columns.contains new.columnName
  | .createIndex _ index =>
    ¬ layout.indexes.contains index.name ∧ index.columns ≠ [] ∧ index.columns.Nodup ∧
      ∀ column ∈ index.columns, layout.columns.contains column
  | .createTable _ _ | .dropTable _ _ => False

def run (layout : TableLayout) (operations : List Operation) : TableLayout :=
  operations.foldl apply layout

theorem run_append (layout : TableLayout) (a b : List Operation) :
    layout.run (a ++ b) = (layout.run a).run b :=
  List.foldl_append

end TableLayout

/-! ## Databases -/

/-- The layout of a database: that of its tables by name. -/
abbrev Layout := NameMap TableLayout

namespace Layout

/-- The layout of the tables that live columns form. -/
def ofColumns (columns : List Column) : Layout :=
  (liveTables columns).mapValues fun _ live => .ofLive live

/-- The layout that declared tables ask for. -/
def ofDeclared (tables : List TableDecl) : Layout :=
  .ofFirst (tables.map fun table => (table.name, .ofDeclared table))

/-- What an operation does to a database. -/
def apply (layout : Layout) : Operation → Layout
  | .createTable table indexes => layout.insert table.name (.created table indexes)
  | .dropTable table _ => layout.erase table
  | op => layout.mapValues fun name table => if name = op.table then table.apply op else table

/-- Whether a database can carry out an operation. -/
def Admits (layout : Layout) : Operation → Prop
  | .createTable table indexes =>
    ¬ layout.contains table.name ∧ table.columnNames.Nodup ∧ (indexes.map (·.name)).Nodup ∧
      ∀ index ∈ indexes, index.columns ≠ [] ∧ index.columns.Nodup ∧
        index.columns ⊆ table.columnNames
  | .dropTable table indexes =>
    ∃ found, layout.find? table = some found ∧ found.indexes.values = indexes
  | op => ∃ found, layout.find? op.table = some found ∧ found.Admits op

def run (layout : Layout) (operations : List Operation) : Layout :=
  operations.foldl apply layout

theorem run_append (layout : Layout) (a b : List Operation) :
    layout.run (a ++ b) = (layout.run a).run b :=
  List.foldl_append

theorem find?_apply_of_ne (layout : Layout) {op : Operation} {name : String}
    (h : op.table ≠ name) : (layout.apply op).find? name = layout.find? name := by
  have h' : name ≠ op.table := fun he => h he.symm
  cases op with
  | createTable table indexes => exact (NameMap.find?_insert ..).trans (if_neg h)
  | dropTable table indexes => exact (NameMap.find?_erase ..).trans (if_neg h')
  | _ => simp only [apply, NameMap.find?_mapValues, if_neg h', Option.map_id_fun', id_eq]

theorem find?_run_of_ne (layout : Layout) {operations : List Operation} {name : String}
    (h : ∀ op ∈ operations, op.table ≠ name) :
    (layout.run operations).find? name = layout.find? name := by
  induction operations generalizing layout with
  | nil => rfl
  | cons op rest ih =>
    rw [run, List.foldl_cons, ← run, ih _ fun o ho => h o (List.mem_cons_of_mem _ ho),
      find?_apply_of_ne _ (h op List.mem_cons_self)]

/-- What an operation makes of a table depends on that table only. -/
theorem find?_apply_congr {a b : Layout} {name : String} (h : a.find? name = b.find? name)
    (op : Operation) : (a.apply op).find? name = (b.apply op).find? name := by
  cases op with
  | createTable table indexes => simp only [apply, NameMap.find?_insert, h]
  | dropTable table indexes => simp only [apply, NameMap.find?_erase, h]
  | _ => simp only [apply, NameMap.find?_mapValues, h]

theorem find?_run_congr {a b : Layout} {name : String} (h : a.find? name = b.find? name)
    (operations : List Operation) :
    (a.run operations).find? name = (b.run operations).find? name := by
  induction operations generalizing a b with
  | nil => exact h
  | cons op rest ih => exact ih (find?_apply_congr h op)

/-- What a run makes of a table is what the operations on that table make of it. -/
theorem find?_run_filter (layout : Layout) (operations : List Operation) (name : String) :
    (layout.run operations).find? name =
      (layout.run (operations.filter fun op => op.table = name)).find? name := by
  induction operations generalizing layout with
  | nil => rfl
  | cons op rest ih =>
    by_cases h : op.table = name
    · rw [List.filter_cons_of_pos (by simpa using h)]
      exact ih _
    · rw [List.filter_cons_of_neg (by simpa using h)]
      rw [run, List.foldl_cons, ← run, find?_run_congr (find?_apply_of_ne layout h), ih]

end Layout

/-- Whether an operation changes a table that was there before and is there after it. -/
def Operation.KeepsTable (name : String) (op : Operation) : Prop :=
  op.table = name ∧ (∀ table indexes, op ≠ .createTable table indexes) ∧
    ∀ table indexes, op ≠ .dropTable table indexes

namespace Layout

theorem find?_apply (layout : Layout) {op : Operation} {name : String} (h : op.KeepsTable name) :
    (layout.apply op).find? name = (layout.find? name).map (·.apply op) := by
  obtain ⟨rfl, hcreate, hdrop⟩ := h
  cases op with
  | createTable table indexes => exact absurd rfl (hcreate table indexes)
  | dropTable table indexes => exact absurd rfl (hdrop table indexes)
  | _ => simp [apply, NameMap.find?_mapValues]

theorem admits_iff (layout : Layout) {op : Operation} {name : String} (h : op.KeepsTable name) :
    layout.Admits op ↔ ∃ found, layout.find? name = some found ∧ found.Admits op := by
  obtain ⟨rfl, hcreate, hdrop⟩ := h
  cases op with
  | createTable table indexes => exact absurd rfl (hcreate table indexes)
  | dropTable table indexes => exact absurd rfl (hdrop table indexes)
  | _ => rfl

/-- Operations that keep a table run on that table. -/
theorem find?_run (layout : Layout) {operations : List Operation} {name : String}
    (h : ∀ op ∈ operations, op.KeepsTable name) :
    (layout.run operations).find? name = (layout.find? name).map (·.run operations) := by
  induction operations generalizing layout with
  | nil => simp [run, TableLayout.run]
  | cons op rest ih =>
    rw [run, List.foldl_cons, ← run, ih _ fun o ho => h o (List.mem_cons_of_mem _ ho),
      find?_apply _ (h op List.mem_cons_self), Option.map_map]
    rfl

theorem executable_of_table (layout : Layout) {operations : List Operation} {name : String}
    (h : ∀ op ∈ operations, op.KeepsTable name) {found : TableLayout}
    (hfound : layout.find? name = some found)
    (hrun : Executable TableLayout.Admits TableLayout.apply found operations) :
    Executable Admits apply layout operations := by
  induction operations generalizing layout found with
  | nil => trivial
  | cons op rest ih =>
    have hop := h op List.mem_cons_self
    refine ⟨(admits_iff layout hop).2 ⟨found, hfound, hrun.1⟩, ?_⟩
    refine ih _ (fun o ho => h o (List.mem_cons_of_mem _ ho)) ?_ hrun.2
    rw [find?_apply layout hop, hfound]
    rfl

end Layout

end SchemaPlan
