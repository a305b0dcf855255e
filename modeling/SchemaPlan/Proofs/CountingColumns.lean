import Mathlib.Data.List.Forall2
import SchemaPlan.Proofs.AlongPlan

/-!
# Counting columns and their keys

A server accepts a counting column only while the primary key or an index has it. A plan gives up
the old key and the changed indexes of a table first and creates the new indexes last. In between, a
column counts under the declared key and the indexes that stay, or under none.

* `KeepsKeys`: the declared key and the indexes that stay have every column that counts before or
  after.
* `Settling`: what is known of a table between the change of its key and its last operation.
* `keyed_along_table_iff`: a live table is keyed all along its operations if and only if it keeps
  its keys.
* `keyed_along_plan_iff`: so is a whole MySQL plan, statement by statement.
-/
namespace SchemaPlan

namespace TableLayout

/-- Whether a column counts. -/
def Counts (layout : TableLayout) (name : String) : Prop :=
  layout.columns.find? name = some true

/-- Whether the primary key or an index has every column that counts. -/
def Keyed (layout : TableLayout) : Prop :=
  ∀ name, layout.Counts name →
    name ∈ layout.key ∨ ∃ index ∈ layout.indexes.values, name ∈ index.columns

theorem keyed_iff {layout : TableLayout} :
    (∀ entry ∈ layout.columns.entries, entry.2 = true →
      entry.1 ∈ layout.key ∨ ∃ index ∈ layout.indexes.values, entry.1 ∈ index.columns) ↔
        layout.Keyed := by
  constructor
  · exact fun h name hcounts => h (name, true) (NameMap.mem_entries.2 hcounts) rfl
  · rintro h ⟨name, counts⟩ hentry rfl
    exact h name (NameMap.mem_entries.1 hentry)

instance (layout : TableLayout) : Decidable layout.Keyed :=
  decidable_of_iff _ keyed_iff

end TableLayout

namespace Layout

/-- Whether every table of a database is keyed. -/
def Keyed (layout : Layout) : Prop :=
  ∀ name found, layout.find? name = some found → found.Keyed

theorem keyed_iff {layout : Layout} :
    (∀ entry ∈ layout.entries, entry.2.Keyed) ↔ layout.Keyed := by
  constructor
  · exact fun h name found hfound => h (name, found) (NameMap.mem_entries.2 hfound)
  · exact fun h entry hentry => h entry.1 entry.2 (NameMap.mem_entries.1 hentry)

instance (layout : Layout) : Decidable layout.Keyed :=
  decidable_of_iff _ keyed_iff

end Layout

/-- Whether the declared key and the indexes that stay have every column that counts before or
after. -/
def KeepsKeys (table : TableDecl) (live : LiveTable) : Prop :=
  ∀ name, (TableLayout.ofLive live).Counts name ∨ (TableLayout.ofDeclared table).Counts name →
    name ∈ table.primaryKey ∨ ∃ index ∈ (keptIndexes table live).values, name ∈ index.columns

/-- What is known of a table between the change of its key and its last operation. -/
structure Settling (table : TableDecl) (live : LiveTable) (layout : TableLayout) : Prop where
  key_eq : layout.key = table.primaryKey
  kept : ∀ name index, (keptIndexes table live).find? name = some index →
    layout.indexes.find? name = some index
  counts : ∀ name, layout.Counts name →
    (TableLayout.ofLive live).Counts name ∨ (TableLayout.ofDeclared table).Counts name

section
variable {dialect : Dialect} {table : TableDecl} {live : LiveTable} {layout : TableLayout}

theorem keyed_of_settling (hkeeps : KeepsKeys table live) (h : Settling table live layout) :
    layout.Keyed := by
  intro name hcounts
  rcases hkeeps name (h.counts name hcounts) with hkey | ⟨index, hindex, hcolumn⟩
  · exact .inl (h.key_eq ▸ hkey)
  · obtain ⟨other, hkept⟩ := NameMap.mem_values.1 hindex
    exact .inr ⟨index, NameMap.mem_values.2 ⟨other, h.kept other index hkept⟩, hcolumn⟩

/-! ## What each operation preserves -/

theorem counts_declared (hnodup : table.columnNames.Nodup) {field : FieldDecl}
    (hfield : field ∈ table.fields) (h : field.autoIncrement = true) :
    (TableLayout.ofDeclared table).Counts field.columnName := by
  show (NameMap.ofFirst (table.fields.map FieldDecl.mark)).find? field.columnName = some true
  rw [NameMap.find?_ofFirst, findIn_mark hnodup hfield, h]

theorem settling_setColumn (hnodup : table.columnNames.Nodup) (h : Settling table live layout)
    {field : FieldDecl} (hfield : field ∈ table.fields) :
    Settling table live (layout.setColumn field) := by
  refine ⟨h.key_eq, h.kept, fun name hcounts => ?_⟩
  rw [TableLayout.Counts, TableLayout.setColumn, NameMap.find?_insert] at hcounts
  split at hcounts
  · rename_i heq
    exact .inr (heq ▸ counts_declared hnodup hfield (Option.some.inj hcounts))
  · exact h.counts name hcounts

/-- The operations that come after the change of the key. -/
def operationsBehindKey (dialect : Dialect) (table : TableDecl) (live : LiveTable) :
    List Operation :=
  (diffIndexes table.indexes live.indexes).drop.map (.dropIndex table.name) ++
    (columnsToDrop table live).map (.dropColumn table.name) ++
    (fieldsToAdd table live).map (.addColumn table.name) ++
    (table.fields.filterMap (alteration? dialect table live)).map
      (fun change => .alterColumn table.name change.1 change.2) ++
    (diffIndexes table.indexes live.indexes).create.map (.createIndex table.name)

theorem tableOperations_eq_behindKey :
    dialect.tableOperations table live =
      Dialect.keyOperations table live ++ operationsBehindKey dialect table live := by
  rw [tableOperations_eq, settleOperations, releaseOperations, operationsBehindKey]
  simp only [List.append_assoc]

theorem keptIndexes_ne_drop {name : String} {index : Index}
    (h : (keptIndexes table live).find? name = some index) :
    name ∉ (diffIndexes table.indexes live.indexes).drop := by
  intro hdrop
  obtain ⟨hlive, hwanted⟩ := (find?_keptIndexes table live).1 h
  obtain ⟨other, hother, hne⟩ := mem_drop.1 hdrop
  rw [hlive] at hother
  cases hother
  exact hne hwanted

theorem keptIndexes_ne_create {name : String} {index created : Index}
    (h : (keptIndexes table live).find? name = some index)
    (hcreate : created ∈ (diffIndexes table.indexes live.indexes).create) :
    created.name ≠ name := by
  rintro rfl
  obtain ⟨hlive, hwanted⟩ := (find?_keptIndexes table live).1 h
  obtain ⟨other, hother, hpresent⟩ := mem_create.1 hcreate
  obtain rfl := named_indexes table _ _ hother
  rw [hother] at hwanted
  cases hwanted
  exact hpresent hlive

theorem settling_apply (hnodup : table.columnNames.Nodup) (h : Settling table live layout)
    {op : Operation} (hop : op ∈ operationsBehindKey dialect table live) :
    Settling table live (layout.apply op) := by
  simp only [operationsBehindKey, List.mem_append, List.mem_map] at hop
  rcases hop with (((⟨name, hname, rfl⟩ | ⟨name, hname, rfl⟩) | ⟨field, hfield, rfl⟩) |
    ⟨change, hchange, rfl⟩) | ⟨index, hindex, rfl⟩
  · refine ⟨h.key_eq, fun other index hkept => ?_, h.counts⟩
    rw [TableLayout.apply, NameMap.find?_erase, if_neg fun he => ?_]
    · exact h.kept other index hkept
    · exact keptIndexes_ne_drop hkept (he ▸ hname)
  · refine ⟨h.key_eq, h.kept, fun other hcounts => h.counts other ?_⟩
    rw [TableLayout.Counts, TableLayout.apply, NameMap.find?_erase] at hcounts
    split at hcounts
    · cases hcounts
    · exact hcounts
  · exact settling_setColumn hnodup h ((mem_fieldsToAdd table live).1 hfield).1
  · exact settling_setColumn hnodup h ((mem_alterations dialect table live).1 hchange).1
  · refine ⟨h.key_eq, fun other kept hkept => ?_, h.counts⟩
    rw [TableLayout.apply, NameMap.find?_insert, if_neg (keptIndexes_ne_create hkept hindex)]
    exact h.kept other kept hkept

/-! ## Whole tables -/

/-- The change of the key begins the settling. -/
theorem settling_keyOperations (hnodup : table.columnNames.Nodup) :
    Settling table live
      ((TableLayout.ofLive live).run (Dialect.keyOperations table live)) := by
  rw [run_keyOperations]
  refine ⟨rfl, fun name index hkept => ?_, fun name hcounts => ?_⟩
  · rw [TableLayout.indexes_foldl_setColumn]
    exact ((find?_keptIndexes table live).1 hkept).1
  · rw [TableLayout.Counts, TableLayout.find?_foldl_setColumn _ (nodup_fieldsWithKey hnodup),
      Option.or_eq_some_iff] at hcounts
    rcases hcounts with hadded | ⟨-, hlive⟩
    · obtain ⟨field, hfield, hmark⟩ := List.mem_map.1 (NameMap.mem_of_findIn_eq_some hadded)
      obtain ⟨rfl, hcount⟩ := Prod.mk.inj hmark
      exact .inr (counts_declared hnodup (mem_fieldsWithKey table live hfield).1 hcount)
    · exact .inl hlive

theorem settling_run (hnodup : table.columnNames.Nodup) (h : Settling table live layout)
    {operations : List Operation} (hops : operations ⊆ operationsBehindKey dialect table live) :
    Settling table live (layout.run operations) := by
  induction operations generalizing layout with
  | nil => exact h
  | cons op rest ih =>
    rw [List.cons_subset] at hops
    exact ih (settling_apply hnodup h hops.1) hops.2

/-- The change of the key is one operation at most, so a table has it behind itself or ahead. -/
theorem prefix_keyOperations {before : List Operation}
    (h : before <+: Dialect.keyOperations table live) :
    before = [] ∨ before = Dialect.keyOperations table live := by
  unfold Dialect.keyOperations at h ⊢
  split at h
  · rw [if_pos ‹_›]
    exact .inl (List.prefix_nil.1 h)
  · rw [if_neg ‹_›]
    rcases List.prefix_cons_iff.1 h with rfl | ⟨rest, rfl, hrest⟩
    · exact .inl rfl
    · rw [List.prefix_nil.1 hrest]
      exact .inr rfl

theorem keyed_of_keepsKeys (hnodup : table.columnNames.Nodup) (hkeeps : KeepsKeys table live)
    (hlive : (TableLayout.ofLive live).Keyed) {before : List Operation}
    (hbefore : before <+: dialect.tableOperations table live) :
    ((TableLayout.ofLive live).run before).Keyed := by
  have hsettling {rest : List Operation} (hrest : rest ⊆ operationsBehindKey dialect table live) :
      ((TableLayout.ofLive live).run (Dialect.keyOperations table live ++ rest)).Keyed := by
    rw [TableLayout.run_append]
    exact keyed_of_settling hkeeps (settling_run hnodup (settling_keyOperations hnodup) hrest)
  rw [tableOperations_eq_behindKey] at hbefore
  rcases List.prefix_or_prefix_of_prefix hbefore (List.prefix_append _ _) with hkey | ⟨rest, rfl⟩
  · rcases prefix_keyOperations hkey with rfl | rfl
    · exact hlive
    · have := hsettling (List.nil_subset _)
      rwa [List.append_nil] at this
  · exact hsettling ((List.prefix_append_right_inj _).1 hbefore).subset

/-- A table that is keyed once its key and its indexes are released, and again before new indexes
are created, keeps its keys. -/
theorem keepsKeys_of_keyed (hnodup : table.columnNames.Nodup)
    (hreleased : ((TableLayout.ofLive live).run (releaseOperations table live)).Keyed)
    (hsettled : ((TableLayout.ofLive live).run (settleOperations dialect table live)).Keyed) :
    KeepsKeys table live := by
  rw [run_releaseOperations] at hreleased
  rw [run_settleOperations hnodup] at hsettled
  rintro name (hcounts | hcounts)
  · refine hreleased name ?_
    have hnew : name ∉ (fieldsWithKey table live).map (·.columnName) := by
      intro hmem
      obtain ⟨field, hfield, rfl⟩ := List.mem_map.1 hmem
      rw [TableLayout.Counts, find?_ofLive, (mem_fieldsWithKey table live hfield).2] at hcounts
      cases hcounts
    rw [TableLayout.Counts]
    dsimp only
    rw [TableLayout.find?_foldl_setColumn _ (nodup_fieldsWithKey hnodup), findIn_mark_eq_none hnew]
    exact hcounts
  · exact hsettled name hcounts

/-- A live table is keyed all along its operations if and only if it keeps its keys. -/
theorem keyed_along_table_iff (hnodup : table.columnNames.Nodup)
    (hlive : (TableLayout.ofLive live).Keyed) :
    (∀ before, before <+: dialect.tableOperations table live →
      ((TableLayout.ofLive live).run before).Keyed) ↔ KeepsKeys table live := by
  constructor
  · intro h
    refine @keepsKeys_of_keyed dialect table live hnodup (h _ ?_) (h _ ?_)
    · rw [tableOperations_eq, settleOperations]
      simp only [List.append_assoc]
      exact List.prefix_append _ _
    · rw [tableOperations_eq]
      exact List.prefix_append _ _
  · exact fun hkeeps before hbefore => keyed_of_keepsKeys hnodup hkeeps hlive hbefore

end

/-! ## Whole plans -/

section
variable {dialect : Dialect} {declared : List TableDecl} {columns : List Column}

/-- Every table of a database is keyed all along a plan if and only if the declared tables that are
live keep their keys. -/
theorem keyed_along_operations_iff (hnames : (declared.map (·.name)).Nodup)
    (hnodup : ∀ table ∈ declared, table.columnNames.Nodup)
    (hdeclared : (Layout.ofDeclared declared).Keyed) (hlive : (Layout.ofColumns columns).Keyed) :
    (∀ before, before <+: dialect.operations declared columns →
      ((Layout.ofColumns columns).run before).Keyed) ↔
    ∀ table ∈ declared, ∀ live, (liveTables columns).find? table.name = some live →
      KeepsKeys table live := by
  refine (holds_along_iff hnames (fun table htable => ?_) hlive).trans ?_
  · exact hdeclared _ _ (find?_ofDeclared hnames htable)
  · refine forall₂_congr fun table htable => forall₂_congr fun live hfound => ?_
    exact keyed_along_table_iff (hnodup table htable) (hlive _ _ (find?_ofColumns_of_live hfound))

end

/-- A MySQL plan is one operation for each statement, and after each statement every table is keyed
if and only if the declared tables that are live keep their keys. -/
theorem keyed_along_plan_iff {d : MySql} {declared : List TableDecl} {columns : List Column}
    {statements : List Statement} (h : (Dialect.mysql d).plan declared columns = .ok statements)
    (hdeclared : (Layout.ofDeclared declared).Keyed) (hlive : (Layout.ofColumns columns).Keyed) :
    List.Forall₂ (fun op statement => (Dialect.mysql d).statementsOf op = .ok [statement])
        ((Dialect.mysql d).operations declared columns) statements ∧
      ((∀ before, before <+: (Dialect.mysql d).operations declared columns →
          ((Layout.ofColumns columns).run before).Keyed) ↔
        ∀ table ∈ declared, ∀ live, (liveTables columns).find? table.name = some live →
          KeepsKeys table live) := by
  obtain ⟨hvalid, hplan⟩ := bind_eq_ok h
  obtain ⟨hnames, hvalid⟩ := validate_ok hvalid
  exact ⟨forall₂_statements hplan, keyed_along_operations_iff hnames
    (fun table htable => (hvalid table htable).nodup_columns) hdeclared hlive⟩

/-- A plan that adds an indexed column keeps the counting column under its key. -/
theorem keyed_along_orders :
    let columns : List Column := [
      { table := "orders", name := "id", dataType := "BIGINT", nullable := false
        primaryKey := true, autoIncrement := true
        memberships := [⟨"PRIMARY", 1, true, true⟩, ⟨"old", 1, false, false⟩] }]
    let orders : TableDecl := { name := "orders", fields := [
      { name := "id", type := "i64", primaryKey := true, autoIncrement := true },
      { name := "total", type := "i64", index := some {} }] }
    List.Forall₂ (fun op statement => (Dialect.mysql {}).statementsOf op = .ok [statement])
        ((Dialect.mysql {}).operations [orders] columns)
        [⟨"orders", "DROP INDEX `old` ON `orders`"⟩,
          ⟨"orders", "ALTER TABLE `orders` ADD `total` BIGINT NOT NULL"⟩,
          ⟨"orders", "CREATE INDEX `orders_total` ON `orders` (`total`)"⟩] ∧
      ((∀ before, before <+: (Dialect.mysql {}).operations [orders] columns →
          ((Layout.ofColumns columns).run before).Keyed) ↔
        ∀ table ∈ [orders], ∀ live, (liveTables columns).find? table.name = some live →
          KeepsKeys table live) :=
  keyed_along_plan_iff (eq_ok_of_toOption (by decide +kernel)) (by decide +kernel)
    (by decide +kernel)

/-- The only index of a counting column is dropped before the one that replaces it is created. -/
theorem not_keyed_between_indexes :
    let columns : List Column := [
      { table := "t", name := "seq", dataType := "BIGINT", position := 1, nullable := false
        autoIncrement := true, memberships := [⟨"seq_old", 1, false, false⟩] }]
    let declared : List TableDecl := [{ name := "t", fields := [
      { name := "seq", type := "i64", autoIncrement := true
        index := some { name := some "seq_new" } }] }]
    (Dialect.mysql {}).plan declared columns = .ok
        [⟨"t", "DROP INDEX `seq_old` ON `t`"⟩,
          ⟨"t", "CREATE INDEX `seq_new` ON `t` (`seq`)"⟩] ∧
      (Layout.ofDeclared declared).Keyed ∧ (Layout.ofColumns columns).Keyed ∧
      (Dialect.mysql {}).operations declared columns =
        [.dropIndex "t" "seq_old", .createIndex "t" ⟨"seq_new", ["seq"], false⟩] ∧
      ¬ ((Layout.ofColumns columns).run [.dropIndex "t" "seq_old"]).Keyed :=
  ⟨eq_ok_of_toOption (by decide +kernel), by decide +kernel, by decide +kernel,
    by decide +kernel, by decide +kernel⟩

end SchemaPlan
