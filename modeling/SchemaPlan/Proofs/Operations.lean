import Mathlib.Data.List.Perm.Basic
import SchemaPlan.Proofs.TableRun
import SchemaPlan.Proofs.Validation

/-!
# The operations of a plan, table by table

A plan takes the declared tables in name order and then drops the tables that are not declared. Each
operation is about one table, so the operations on a table stand together, and they are its own.

* `operations_on_declared`, `operations_on_undeclared`: the operations of a plan on one table.
* `statements_ok`: the statements of operations are those of each of them, one after the other.
* `statements_flatMap`: lists of operations that are put together have the statements of each list.
* `forall₂_statements`: on MySQL each operation of a plan is one statement.
* `alteration_of_no_statement`: on Spanner each operation but an alteration has a statement.
-/
namespace SchemaPlan

/-! ## Declared and undeclared tables -/

theorem table_of_mem_declaredOperations {dialect : Dialect} {table : TableDecl}
    {live : NameMap LiveTable} {op : Operation}
    (h : op ∈ dialect.declaredOperations live table) : op.table = table.name := by
  unfold Dialect.declaredOperations at h
  split at h
  · obtain rfl := List.mem_singleton.1 h
    rfl
  · exact (keepsTable_of_mem dialect table _ h).1

def undeclaredTables (declared : List TableDecl) (columns : List Column) : List LiveTable :=
  ((liveTables columns).filter fun name _ => !(declared.map (·.name)).contains name).values

theorem mem_undeclaredTables {declared : List TableDecl} {columns : List Column}
    {live : LiveTable} :
    live ∈ undeclaredTables declared columns ↔
      (liveTables columns).find? live.name = some live ∧ live.name ∉ declared.map (·.name) := by
  simp only [undeclaredTables, NameMap.mem_values, NameMap.find?_filter, Option.filter_eq_some_iff,
    Bool.not_eq_true', List.contains_eq_mem, decide_eq_false_iff_not]
  constructor
  · rintro ⟨name, hfind, hname⟩
    obtain rfl := (live_table hfind).1
    exact ⟨hfind, hname⟩
  · exact fun h => ⟨_, h⟩

theorem names_undeclaredTables (declared : List TableDecl) (columns : List Column) :
    (undeclaredTables declared columns).map (·.name) =
      ((liveTables columns).filter fun name _ => !(declared.map (·.name)).contains name).names := by
  simp only [undeclaredTables, NameMap.values, NameMap.names, List.map_map]
  refine List.map_congr_left fun entry hentry => ?_
  have := NameMap.mem_entries.1 hentry
  rw [NameMap.find?_filter, Option.filter_eq_some_iff] at this
  exact (live_table this.1).1

theorem nodup_undeclaredTables (declared : List TableDecl) (columns : List Column) :
    ((undeclaredTables declared columns).map (·.name)).Nodup := by
  rw [names_undeclaredTables]
  exact NameMap.nodup_names _

/-- The declared tables in the order in which a plan takes them. -/
def inNameOrder (declared : List TableDecl) : List TableDecl :=
  declared.mergeSort fun a b => decide (a.name ≤ b.name)

theorem operations_eq (dialect : Dialect) (declared : List TableDecl) (columns : List Column) :
    dialect.operations declared columns =
      (inNameOrder declared).flatMap (dialect.declaredOperations (liveTables columns)) ++
        (undeclaredTables declared columns).map fun live =>
          .dropTable live.name live.indexes.values :=
  rfl

theorem perm_inNameOrder (declared : List TableDecl) : (inNameOrder declared).Perm declared :=
  List.mergeSort_perm ..

theorem mem_inNameOrder {declared : List TableDecl} {table : TableDecl} :
    table ∈ inNameOrder declared ↔ table ∈ declared :=
  (perm_inNameOrder declared).mem_iff

theorem pairwise_inNameOrder {declared : List TableDecl}
    (hnames : (declared.map (·.name)).Nodup) :
    (inNameOrder declared).Pairwise fun a b => a.name < b.name := by
  have hle : (inNameOrder declared).Pairwise fun a b => decide (a.name ≤ b.name) = true :=
    List.pairwise_mergeSort (fun a b c hab hbc => by
        simp only [decide_eq_true_eq] at hab hbc ⊢
        exact String.le_trans hab hbc)
      (fun a b => by
        simp only [Bool.or_eq_true, decide_eq_true_eq]
        exact String.le_total a.name b.name) declared
  have hne : (inNameOrder declared).Pairwise fun a b => a.name ≠ b.name :=
    List.pairwise_map.1 ((((perm_inNameOrder declared).map _).nodup_iff).2 hnames)
  refine (hle.and hne).imp fun {a b} h => ?_
  rw [decide_eq_true_eq] at h
  exact Decidable.byContradiction fun hlt => h.2 (String.le_antisymm h.1 (String.not_lt.1 hlt))

/-- Tables of different names are taken in an order of their own. -/
theorem inNameOrder_congr {declared others : List TableDecl} (hperm : declared.Perm others)
    (hnames : (declared.map (·.name)).Nodup) : inNameOrder declared = inNameOrder others := by
  have hall : (inNameOrder declared).Perm (inNameOrder others) :=
    ((perm_inNameOrder declared).trans hperm).trans (perm_inNameOrder others).symm
  exact hall.eq_of_pairwise
    (fun _ _ _ _ hab hba => absurd (String.lt_trans hab hba) (String.lt_irrefl _))
    (pairwise_inNameOrder hnames) (pairwise_inNameOrder ((hperm.map _).nodup_iff.1 hnames))

/-- Of tables with different names the first one in name order with a property is the least one. -/
theorem exists_least_iff {declared : List TableDecl} (hnames : (declared.map (·.name)).Nodup)
    {p q : TableDecl → Prop} :
    (∃ before table after, inNameOrder declared = before ++ table :: after ∧
        (∀ other ∈ before, ¬ p other) ∧ q table) ↔
      ∃ table ∈ declared, (∀ other ∈ declared, p other → table.name ≤ other.name) ∧ q table := by
  have hordered := pairwise_inNameOrder hnames
  constructor
  · rintro ⟨before, table, after, hsplit, hbefore, htable⟩
    rw [hsplit, List.pairwise_append, List.pairwise_cons] at hordered
    refine ⟨table, mem_inNameOrder.1 (by simp [hsplit]), fun other hother hp => ?_, htable⟩
    have hother := mem_inNameOrder.2 hother
    rw [hsplit, List.mem_append, List.mem_cons] at hother
    rcases hother with hother | rfl | hother
    · exact absurd hp (hbefore other hother)
    · exact String.le_refl _
    · have hlt := hordered.2.1.1 other hother
      exact fun hgt => String.lt_irrefl _ (String.lt_trans hlt hgt)
  · rintro ⟨table, htable, hleast, hq⟩
    obtain ⟨before, after, hsplit⟩ := List.append_of_mem (mem_inNameOrder.2 htable)
    rw [hsplit, List.pairwise_append] at hordered
    refine ⟨before, table, after, hsplit, fun other hother hp => ?_, hq⟩
    have hle := hleast other (mem_inNameOrder.1 (by simp [hsplit, hother])) hp
    exact hle (hordered.2.2 other hother table List.mem_cons_self)

/-! ## The operations on one table -/

theorem filter_flatMap_eq_nil {α β : Type} {l : List α} {parts : α → List β} {key : α → String}
    {tag : β → String} (htag : ∀ a, ∀ b ∈ parts a, tag b = key a) {name : String}
    (hname : name ∉ l.map key) : (l.flatMap parts).filter (fun b => tag b = name) = [] := by
  simp only [List.filter_eq_nil_iff, List.mem_flatMap, decide_eq_true_eq]
  rintro b ⟨a, ha, hb⟩ rfl
  exact hname (htag a b hb ▸ List.mem_map_of_mem ha)

/-- Of lists under different keys that are put together, those under one key are one of them. -/
theorem filter_flatMap_eq {α β : Type} {l : List α} {parts : α → List β} {key : α → String}
    {tag : β → String} (htag : ∀ a, ∀ b ∈ parts a, tag b = key a) (hnodup : (l.map key).Nodup)
    {a : α} (ha : a ∈ l) : (l.flatMap parts).filter (fun b => tag b = key a) = parts a := by
  induction l with
  | nil => cases ha
  | cons head rest ih =>
    rw [List.map_cons, List.nodup_cons] at hnodup
    rw [List.flatMap_cons, List.filter_append]
    rcases List.mem_cons.1 ha with rfl | ha
    · have hself : (parts a).filter (fun b => tag b = key a) = parts a :=
        List.filter_eq_self.2 fun b hb => decide_eq_true (htag a b hb)
      rw [hself, filter_flatMap_eq_nil htag hnodup.1, List.append_nil]
    · have hne : key a ≠ key head := fun he => hnodup.1 (he ▸ List.mem_map_of_mem ha)
      have hhead : (parts head).filter (fun b => tag b = key a) = [] := by
        simp only [List.filter_eq_nil_iff, decide_eq_true_eq]
        exact fun b hb he => hne (he.symm.trans (htag head b hb))
      rw [hhead, ih hnodup.2 ha, List.nil_append]

theorem flatMap_if {α β : Type} (keep : α → Bool) (f : α → β) (l : List α) :
    (l.flatMap fun a => if keep a then [f a] else []) = (l.filter keep).map f := by
  induction l with
  | nil => rfl
  | cons a rest ih =>
    rw [List.flatMap_cons, ih, List.filter_cons]
    split <;> rfl

/-- Elements that are taken up key by key are the same elements, perhaps in another order. -/
theorem flatMap_filter_perm {α κ : Type} [DecidableEq κ] (key : α → κ) {keys : List κ}
    (hnodup : keys.Nodup) {l : List α} (hkeys : ∀ a ∈ l, key a ∈ keys) :
    (keys.flatMap fun k => l.filter fun a => key a = k).Perm l := by
  induction l with
  | nil => simp
  | cons a rest ih =>
    -- the head is taken up under its own key, once, and the rest as before
    have hsingle : (keys.flatMap fun k => if key a = k then [a] else []) = [a] := by
      have hcount := List.count_eq_one_of_mem hnodup (hkeys a List.mem_cons_self)
      have hfilter := List.filter_eq (l := keys) (key a)
      rw [hcount] at hfilter
      have := flatMap_if (fun k => decide (k = key a)) (fun _ => a) keys
      rw [hfilter] at this
      simpa [eq_comm] using this
    have hsplit (k : κ) : (a :: rest).filter (fun x => key x = k) =
        (if key a = k then [a] else []) ++ rest.filter fun x => key x = k := by
      by_cases h : key a = k <;> simp [h]
    rw [List.flatMap_congr fun k _ => hsplit k]
    refine (List.flatMap_append_perm keys _ _).symm.trans ?_
    rw [hsingle]
    exact (ih fun x hx => hkeys x (List.mem_cons_of_mem _ hx)).cons a

section
variable {dialect : Dialect} {declared : List TableDecl} {columns : List Column}

theorem table_dropTable (live : LiveTable) :
    ∀ op ∈ [Operation.dropTable live.name live.indexes.values], op.table = live.name := by
  intro op hop
  obtain rfl := List.mem_singleton.1 hop
  rfl

/-- The operations of a plan on a declared table are its own. -/
theorem operations_on_declared (hnames : (declared.map (·.name)).Nodup) {table : TableDecl}
    (htable : table ∈ declared) :
    (dialect.operations declared columns).filter (fun op => op.table = table.name) =
      dialect.declaredOperations (liveTables columns) table := by
  have hperm := perm_inNameOrder declared
  rw [operations_eq, List.filter_append, List.map_eq_flatMap,
    filter_flatMap_eq (fun _ _ => table_of_mem_declaredOperations)
      ((hperm.map _).nodup_iff.2 hnames) (hperm.mem_iff.2 htable),
    filter_flatMap_eq_nil table_dropTable, List.append_nil]
  intro hmem
  obtain ⟨live, hlive, heq⟩ := List.mem_map.1 hmem
  exact (mem_undeclaredTables.1 hlive).2 (heq ▸ List.mem_map_of_mem htable)

theorem operations_on_undeclared {name : String} (hname : name ∉ declared.map (·.name)) :
    (dialect.operations declared columns).filter (fun op => op.table = name) =
      ((liveTables columns).find? name).toList.map fun live =>
        .dropTable live.name live.indexes.values := by
  have hdeclared : name ∉ (inNameOrder declared).map (·.name) := fun hmem =>
    hname (((perm_inNameOrder declared).map _).mem_iff.1 hmem)
  rw [operations_eq, List.filter_append, List.map_eq_flatMap,
    filter_flatMap_eq_nil (fun _ _ => table_of_mem_declaredOperations) hdeclared, List.nil_append]
  cases hlive : (liveTables columns).find? name with
  | none =>
    refine filter_flatMap_eq_nil table_dropTable fun hmem => ?_
    obtain ⟨live, hfound, heq⟩ := List.mem_map.1 hmem
    rw [← heq, (mem_undeclaredTables.1 hfound).1] at hlive
    cases hlive
  | some live =>
    obtain rfl := (live_table hlive).1
    exact filter_flatMap_eq table_dropTable (nodup_undeclaredTables declared columns)
      (mem_undeclaredTables.2 ⟨hlive, hname⟩)

end

/-! ## Their statements -/

/-- The statements of operations are those of each of them, one after the other. -/
theorem statements_ok {dialect : Dialect} {operations : List Operation}
    {statements : List Statement} (h : dialect.statements operations = .ok statements) :
    ∃ parts, List.Forall₂ (fun op part => dialect.statementsOf op = .ok part) operations parts ∧
      statements = parts.flatten := by
  unfold Dialect.statements at h
  cases hparts : operations.mapM dialect.statementsOf with
  | error e =>
    rw [hparts] at h
    cases h
  | ok parts =>
    rw [hparts] at h
    cases h
    exact ⟨parts, mapM_eq_ok_iff.1 hparts, rfl⟩

theorem statements_append (dialect : Dialect) (first second : List Operation) :
    dialect.statements (first ++ second) =
      (dialect.statements first).bind fun a => (dialect.statements second).map (a ++ ·) := by
  unfold Dialect.statements
  rw [List.mapM_append]
  cases first.mapM dialect.statementsOf with
  | error e => rfl
  | ok a =>
    cases second.mapM dialect.statementsOf with
    | error e => rfl
    | ok b => exact congrArg Except.ok List.flatten_append

theorem statements_flatMap {α : Type} (dialect : Dialect) (l : List α)
    (operations : α → List Operation) :
    dialect.statements (l.flatMap operations) =
      (l.mapM fun a => dialect.statements (operations a)).map List.flatten := by
  induction l with
  | nil => rfl
  | cons a rest ih =>
    rw [List.flatMap_cons, statements_append, ih, List.mapM_cons]
    cases dialect.statements (operations a) with
    | error e => rfl
    | ok part =>
      cases rest.mapM fun a => dialect.statements (operations a) <;> rfl

theorem statements_append_ok {dialect : Dialect} {first second : List Operation}
    {statements : List Statement} (h : dialect.statements (first ++ second) = .ok statements) :
    ∃ a b, dialect.statements first = .ok a ∧ dialect.statements second = .ok b ∧
      statements = a ++ b := by
  rw [statements_append] at h
  cases hfirst : dialect.statements first with
  | error e =>
    rw [hfirst] at h
    cases h
  | ok a =>
    cases hsecond : dialect.statements second with
    | error e =>
      rw [hfirst, hsecond] at h
      cases h
    | ok b =>
      rw [hfirst, hsecond] at h
      exact ⟨a, b, rfl, rfl, (Except.ok.inj h).symm⟩

theorem statements_flatMap_ok {α : Type} {dialect : Dialect} {l : List α}
    {operations : α → List Operation} {statements : List Statement}
    (h : dialect.statements (l.flatMap operations) = .ok statements) :
    ∃ parts, List.Forall₂ (fun a part => dialect.statements (operations a) = .ok part) l parts ∧
      statements = parts.flatten := by
  rw [statements_flatMap] at h
  cases hparts : l.mapM fun a => dialect.statements (operations a) with
  | error e =>
    rw [hparts] at h
    cases h
  | ok parts =>
    rw [hparts] at h
    exact ⟨parts, mapM_eq_ok_iff.1 hparts, (Except.ok.inj h).symm⟩

/-- For tables that are valid, a plan has the statements of its operations. -/
theorem plan_of_valid {dialect : Dialect} {tables : List TableDecl}
    (h : validate dialect tables = .ok ()) (columns : List Column) :
    dialect.plan tables columns = dialect.planValidated tables columns := by
  rw [Dialect.plan, h]
  rfl

theorem key_ne_of_mem_operations {dialect : Dialect} {declared : List TableDecl}
    {columns : List Column} {table : String} {old new : List String} {added : List FieldDecl}
    (h : .changeKey table old new added ∈ dialect.operations declared columns) : old ≠ new := by
  rw [operations_eq, List.mem_append, List.mem_flatMap] at h
  rcases h with ⟨decl, -, h⟩ | h
  · unfold Dialect.declaredOperations at h
    split at h
    · simp at h
    · rw [tableOperations_eq, settleOperations, releaseOperations, Dialect.keyOperations] at h
      split at h
      · simp at h
      · rename_i hkey
        simp only [List.mem_append, List.mem_map, List.mem_singleton, Operation.changeKey.injEq,
          reduceCtorEq, and_false, exists_false, or_false] at h
        obtain ⟨rfl, rfl, rfl, rfl⟩ := h
        exact fun he => hkey he.symm
  · simp at h

/-- The change of a key is one statement, since there is something to drop or to add. -/
theorem changePrimaryKey_eq (d : MySql) (table : String) {old new : List String}
    (added : List FieldDecl) (h : old ≠ new) :
    ∃ text, d.changePrimaryKey table old new added = [text] := by
  unfold MySql.changePrimaryKey
  cases old with
  | cons column rest => exact ⟨_, rfl⟩
  | nil =>
    cases new with
    | nil => exact absurd rfl h
    | cons column rest =>
      cases added with
      | nil => exact ⟨_, rfl⟩
      | cons field fields => exact ⟨_, rfl⟩

theorem statementsOf_operation {d : MySql} {declared : List TableDecl} {columns : List Column}
    {op : Operation} (h : op ∈ (Dialect.mysql d).operations declared columns) :
    ∃ statement, (Dialect.mysql d).statementsOf op = .ok [statement] := by
  cases op with
  | changeKey table old new added =>
    obtain ⟨text, htext⟩ := changePrimaryKey_eq d table added (key_ne_of_mem_operations h)
    exact ⟨⟨table, text⟩, by rw [Dialect.statementsOf, Dialect.render, htext]; rfl⟩
  | _ => exact ⟨_, rfl⟩

/-- Only an alteration may have no statement, and only on Spanner. -/
theorem alteration_of_no_statement {dialect : Dialect} {declared : List TableDecl}
    {columns : List Column} {op : Operation} (hop : op ∈ dialect.operations declared columns)
    (h : dialect.statementsOf op = .ok []) :
    ∃ d table old new, dialect = .spanner d ∧ op = .alterColumn table old new := by
  cases dialect with
  | mysql d =>
    obtain ⟨statement, hstatement⟩ := statementsOf_operation hop
    rw [hstatement] at h
    cases h
  | spanner d =>
    have hrender : Dialect.render (.spanner d) op = .ok [] := by
      unfold Dialect.statementsOf at h
      cases htexts : Dialect.render (.spanner d) op with
      | error error =>
        rw [htexts] at h
        cases h
      | ok texts =>
        rw [htexts] at h
        exact congrArg Except.ok (List.map_eq_nil_iff.1 (Except.ok.inj h))
    cases op with
    | alterColumn table old new => exact ⟨d, table, old, new, rfl, rfl⟩
    | addColumn table field =>
      change d.addColumn table field = .ok [] at hrender
      unfold Spanner.addColumn at hrender
      by_cases hnull : field.isNullable = true
      · rw [if_pos hnull] at hrender
        cases hrender
      · rw [if_neg hnull] at hrender
        cases hrender
    | dropTable table indexes =>
      change .ok (Spanner.dropTable table indexes) = Except.ok [] at hrender
      exact absurd (Except.ok.inj hrender) (List.append_ne_nil_of_right_ne_nil _ (by simp))
    | _ => cases hrender

/-- The statements of a MySQL plan are its operations, one statement each. -/
theorem forall₂_statements {d : MySql} {declared : List TableDecl} {columns : List Column}
    {statements : List Statement}
    (h : (Dialect.mysql d).planValidated declared columns = .ok statements) :
    List.Forall₂ (fun op statement => (Dialect.mysql d).statementsOf op = .ok [statement])
      ((Dialect.mysql d).operations declared columns) statements := by
  obtain ⟨parts, hparts, rfl⟩ := statements_ok h
  have hsingle : ∀ op ∈ (Dialect.mysql d).operations declared columns,
      ∃ statement, (Dialect.mysql d).statementsOf op = .ok [statement] :=
    fun _ => statementsOf_operation
  clear h
  generalize (Dialect.mysql d).operations declared columns = operations at hparts hsingle
  induction hparts with
  | nil => exact .nil
  | @cons op part rest parts hop _ ih =>
    obtain ⟨statement, hstatement⟩ := hsingle op List.mem_cons_self
    rw [hop] at hstatement
    cases hstatement
    exact .cons hop (ih fun o ho => hsingle o (List.mem_cons_of_mem _ ho))

end SchemaPlan
