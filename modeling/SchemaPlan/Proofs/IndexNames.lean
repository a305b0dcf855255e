import Mathlib.Data.List.Nodup
import Mathlib.Data.List.Pairwise
import SchemaPlan.Proofs.Operations
import SchemaPlan.Proofs.Quoting
import SchemaPlan.Proofs.Validation

/-!
# Index names in a Spanner plan

On Spanner an index name belongs to the whole database. What a statement does to the names in use is
read off its text, and a plan is followed from the names of the live indexes on.

* `CreatesFresh`: no index is created under a name that is in use.
* `indexSteps_statements`: the steps read off a plan's statements are those of its operations.
* `createsFresh_tables`: what the tables before have left decides about each table.
* `created_names_free_iff`: a plan creates no index under a name in use if and only if an index
  never moves to a table that comes earlier in name order, nor away from a table that is dropped.
-/
namespace SchemaPlan

open Text

/-! ## Steps -/

/-- What a statement does to the index names in use. -/
inductive IndexStep where
  | create (name : String)
  | drop (name : String)
  deriving DecidableEq

namespace IndexStep

/-- The step that a statement takes, read off its text. -/
def ofSql? (sql : String) : Option IndexStep :=
  let created := (afterWord? "CREATE INDEX ".toList sql.toList).or
    (afterWord? "CREATE UNIQUE INDEX ".toList sql.toList)
  match created with
  | some rest => (scanName rest).map fun (name, _) => .create name
  | none =>
    (afterWord? "DROP INDEX ".toList sql.toList).bind fun rest =>
      (scanName rest).map fun (name, _) => .drop name

def apply (used : List String) : IndexStep → List String
  | .create name => name :: used
  | .drop name => used.filter fun other => other ≠ name

end IndexStep

def indexSteps (statements : List Statement) : List IndexStep :=
  statements.filterMap fun statement => IndexStep.ofSql? statement.sql

def namesInUse (used : List String) (steps : List IndexStep) : List String :=
  steps.foldl IndexStep.apply used

/-- Whether no index is created under a name that is in use. -/
def CreatesFresh : List String → List IndexStep → Prop
  | _, [] => True
  | used, .create name :: rest => name ∉ used ∧ CreatesFresh (name :: used) rest
  | used, .drop name :: rest => CreatesFresh (used.filter fun other => other ≠ name) rest

/-- Steps create no index under a name in use if and only if, wherever they create one, the steps
before have left its name free. -/
theorem createsFresh_iff_forall {used : List String} {steps : List IndexStep} :
    CreatesFresh used steps ↔ ∀ before name after, steps = before ++ .create name :: after →
      name ∉ namesInUse used before := by
  induction steps generalizing used with
  | nil => simp [CreatesFresh]
  | cons step rest ih =>
    have hstep : CreatesFresh used (step :: rest) ↔
        (∀ name, step = .create name → name ∉ used) ∧ CreatesFresh (step.apply used) rest := by
      cases step <;> simp [CreatesFresh, IndexStep.apply]
    rw [hstep, ih]
    constructor
    · rintro ⟨hfirst, hrest⟩ before name after heq
      cases before with
      | nil =>
        obtain ⟨rfl, rfl⟩ := List.cons.inj heq
        exact hfirst name rfl
      | cons head before =>
        obtain ⟨rfl, rfl⟩ := List.cons.inj heq
        exact hrest before name after rfl
    · intro h
      refine ⟨?_, ?_⟩
      · rintro name rfl
        exact h [] name rest rfl
      · rintro before name after rfl
        exact h (step :: before) name after rfl

theorem createsFresh_append {used : List String} {a b : List IndexStep} :
    CreatesFresh used (a ++ b) ↔ CreatesFresh used a ∧ CreatesFresh (namesInUse used a) b := by
  induction a generalizing used with
  | nil => exact (iff_of_eq (true_and _)).symm
  | cons step rest ih =>
    cases step with
    | create name =>
      show name ∉ used ∧ CreatesFresh (name :: used) (rest ++ b) ↔ _
      rw [ih, ← and_assoc]
      rfl
    | drop name => exact ih

theorem namesInUse_append (used : List String) (a b : List IndexStep) :
    namesInUse used (a ++ b) = namesInUse (namesInUse used a) b :=
  List.foldl_append

/-! ### Drops and creations -/

theorem mem_namesInUse_drops {used names : List String} {name : String} :
    name ∈ namesInUse used (names.map .drop) ↔ name ∈ used ∧ name ∉ names := by
  induction names generalizing used with
  | nil => simp [namesInUse]
  | cons head rest ih =>
    show name ∈ namesInUse (used.filter fun other => other ≠ head) (rest.map .drop) ↔ _
    rw [ih, List.mem_filter, decide_eq_true_eq, List.mem_cons, not_or, and_assoc]

theorem createsFresh_drops (used names : List String) :
    CreatesFresh used (names.map .drop) := by
  induction names generalizing used with
  | nil => trivial
  | cons head rest ih => exact ih _

theorem mem_namesInUse_creates {used names : List String} {name : String} :
    name ∈ namesInUse used (names.map .create) ↔ name ∈ names ∨ name ∈ used := by
  induction names generalizing used with
  | nil => simp [namesInUse]
  | cons head rest ih =>
    show name ∈ namesInUse (head :: used) (rest.map .create) ↔ _
    rw [ih, List.mem_cons, List.mem_cons, ← or_assoc, or_comm (a := name ∈ rest)]

theorem createsFresh_creates {used names : List String} (hnodup : names.Nodup) :
    CreatesFresh used (names.map .create) ↔ ∀ name ∈ names, name ∉ used := by
  induction names generalizing used with
  | nil => simp [CreatesFresh]
  | cons head rest ih =>
    rw [List.nodup_cons] at hnodup
    show head ∉ used ∧ CreatesFresh (head :: used) (rest.map .create) ↔ _
    rw [ih hnodup.2, List.forall_mem_cons]
    refine and_congr_right fun _ => forall₂_congr fun name hname => ?_
    have hne : name ≠ head := fun he => hnodup.1 (he ▸ hname)
    rw [List.mem_cons, not_or]
    exact and_iff_right hne

/-! ## Reading steps off statements -/

theorem ofSql?_createIndex {sql name : String} {rest : List Char}
    (h : sql.toList = "CREATE INDEX ".toList ++ ((quoteName name).toList ++ rest))
    (hrest : rest.head? ≠ some '`') : IndexStep.ofSql? sql = some (.create name) := by
  have hword := afterWord?_append "CREATE INDEX ".toList ((quoteName name).toList ++ rest)
  rw [IndexStep.ofSql?, h]
  dsimp only
  rw [hword, Option.some_or]
  dsimp only
  rw [scanName_quoteName hrest, Option.map_some]

theorem ofSql?_createUniqueIndex {sql name : String} {rest : List Char}
    (h : sql.toList = "CREATE UNIQUE INDEX ".toList ++ ((quoteName name).toList ++ rest))
    (hrest : rest.head? ≠ some '`') : IndexStep.ofSql? sql = some (.create name) := by
  have hword := afterWord?_append "CREATE UNIQUE INDEX ".toList ((quoteName name).toList ++ rest)
  have hother : afterWord? "CREATE INDEX ".toList
      ("CREATE UNIQUE INDEX ".toList ++ ((quoteName name).toList ++ rest)) = none := rfl
  rw [IndexStep.ofSql?, h]
  dsimp only
  rw [hother, hword, Option.none_or]
  dsimp only
  rw [scanName_quoteName hrest, Option.map_some]

theorem ofSql?_createStatement (table : String) (index : Index) :
    IndexStep.ofSql? (index.createStatement table) = some (.create index.name) := by
  have hrest (rest : List Char) : (" ON ".toList ++ rest).head? ≠ some '`' := by
    intro h
    cases Option.some.inj h
  unfold Index.createStatement
  cases index.unique with
  | false =>
    refine ofSql?_createIndex ?_ (hrest ((quoteName table).toList ++ (" (".toList ++
      ((quoteNames index.columns).toList ++ ")".toList))))
    simp only [String.toList_append, List.append_assoc]
    rfl
  | true =>
    refine ofSql?_createUniqueIndex ?_ (hrest ((quoteName table).toList ++ (" (".toList ++
      ((quoteNames index.columns).toList ++ ")".toList))))
    simp only [String.toList_append, List.append_assoc]
    rfl

theorem ofSql?_dropIndex (name : String) :
    IndexStep.ofSql? (Spanner.dropIndex name) = some (.drop name) := by
  have hword := afterWord?_append "DROP INDEX ".toList (quoteName name).toList
  have hname := @scanName_quoteName [] nofun name
  have hcreate : (afterWord? "CREATE INDEX ".toList
      ("DROP INDEX ".toList ++ (quoteName name).toList)).or
      (afterWord? "CREATE UNIQUE INDEX ".toList
        ("DROP INDEX ".toList ++ (quoteName name).toList)) = none := rfl
  rw [List.append_nil] at hname
  rw [IndexStep.ofSql?, Spanner.dropIndex, String.toList_append]
  dsimp only
  rw [hcreate, hword]
  dsimp only
  rw [Option.bind_some, hname, Option.map_some]

theorem ofSql?_eq_none {sql word : String}
    (hword : word = "ALTER TABLE " ∨ word = "CREATE TABLE " ∨ word = "DROP TABLE ")
    (h : word.toList <+: sql.toList) : IndexStep.ofSql? sql = none := by
  obtain ⟨rest, h⟩ := h
  rw [IndexStep.ofSql?, ← h]
  rcases hword with rfl | rfl | rfl <;> rfl

def Operation.indexSteps : Operation → List IndexStep
  | .createTable _ indexes => indexes.map fun index => .create index.name
  | .createIndex _ index => [.create index.name]
  | .dropIndex _ name => [.drop name]
  | .dropTable _ indexes => indexes.map fun index => .drop index.name
  | .changeKey .. | .addColumn .. | .alterColumn .. | .dropColumn .. => []

theorem filterMap_ofSql?_map {α : Type} {text : α → String} {step : α → IndexStep}
    (h : ∀ a, IndexStep.ofSql? (text a) = some (step a)) (l : List α) :
    (l.map text).filterMap IndexStep.ofSql? = l.map step := by
  have hcomp : IndexStep.ofSql? ∘ text = some ∘ step := funext h
  rw [List.filterMap_map, hcomp, List.filterMap_eq_map]

theorem filterMap_ofSql?_createTable (d : Spanner) (table : TableDecl) (indexes : List Index) :
    (d.createTable table indexes).filterMap IndexStep.ofSql? =
      indexes.map fun index => .create index.name := by
  unfold Spanner.createTable
  rw [List.filterMap_cons_none, filterMap_ofSql?_map (ofSql?_createStatement table.name)]
  refine ofSql?_eq_none (.inr (.inl rfl)) ?_
  simp only [String.toList_append, List.append_assoc]
  exact List.prefix_append _ _

theorem filterMap_ofSql?_dropTable (table : String) (indexes : List Index) :
    (Spanner.dropTable table indexes).filterMap IndexStep.ofSql? =
      indexes.map fun index => .drop index.name := by
  rw [Spanner.dropTable, List.filterMap_append,
    filterMap_ofSql?_map fun index : Index => ofSql?_dropIndex index.name,
    List.filterMap_cons_none, List.filterMap_nil, List.append_nil]
  refine ofSql?_eq_none (.inr (.inr rfl)) ?_
  rw [String.toList_append]
  exact List.prefix_append _ _

theorem filterMap_ofSql?_alterColumn (d : Spanner) (table : String) (old new : FieldDecl) :
    (d.alterColumn table old new).filterMap IndexStep.ofSql? = [] := by
  have halter (rest : String) : IndexStep.ofSql? ("ALTER TABLE " ++ quoteName table ++
      " ALTER COLUMN " ++ quoteName new.columnName ++ " " ++ rest) = none := by
    refine ofSql?_eq_none (.inl rfl) ?_
    simp only [String.toList_append, List.append_assoc]
    exact List.prefix_append _ _
  rw [List.filterMap_eq_nil_iff]
  intro text htext
  simp only [Spanner.alterColumn, List.mem_append] at htext
  rcases htext with (htext | htext) | htext
  · split at htext
    · cases htext
    · rw [List.mem_singleton.1 htext, halter]
  · split at htext
    · cases htext
    · rw [List.mem_singleton.1 htext, halter]
  · split at htext
    · cases htext
    · rw [List.mem_singleton.1 htext, String.append_assoc, String.append_assoc, halter]

theorem filterMap_ofSql?_addColumn {d : Spanner} {table : String} {field : FieldDecl}
    {texts : List String} (h : d.addColumn table field = .ok texts) :
    texts.filterMap IndexStep.ofSql? = [] := by
  unfold Spanner.addColumn at h
  split at h
  · cases h
    refine List.filterMap_cons_none (ofSql?_eq_none (.inl rfl) ?_)
    simp only [String.toList_append, List.append_assoc]
    exact List.prefix_append _ _
  · cases h

theorem filterMap_ofSql?_dropColumn (table column : String) :
    [Spanner.dropColumn table column].filterMap IndexStep.ofSql? = [] := by
  refine List.filterMap_cons_none (ofSql?_eq_none (.inl rfl) ?_)
  simp only [Spanner.dropColumn, String.toList_append, List.append_assoc]
  exact List.prefix_append _ _

theorem indexSteps_statementsOf {d : Spanner} {op : Operation} {part : List Statement}
    (h : (Dialect.spanner d).statementsOf op = .ok part) : indexSteps part = op.indexSteps := by
  unfold Dialect.statementsOf at h
  cases hrender : (Dialect.spanner d).render op with
  | error e =>
    rw [hrender] at h
    cases h
  | ok texts =>
    rw [hrender] at h
    cases h
    rw [indexSteps, List.filterMap_map]
    show texts.filterMap IndexStep.ofSql? = _
    cases op with
    | createTable table indexes =>
      cases hrender
      exact filterMap_ofSql?_createTable d table indexes
    | createIndex table index =>
      cases hrender
      rw [List.filterMap_cons_some (ofSql?_createStatement table index)]
      rfl
    | dropIndex table name =>
      cases hrender
      rw [List.filterMap_cons_some (ofSql?_dropIndex name)]
      rfl
    | dropTable table indexes =>
      cases hrender
      exact filterMap_ofSql?_dropTable table indexes
    | changeKey table old new added => cases hrender
    | dropColumn table column =>
      cases hrender
      exact filterMap_ofSql?_dropColumn table column
    | addColumn table field => exact filterMap_ofSql?_addColumn hrender
    | alterColumn table old new =>
      have htexts : d.alterColumn table old new = texts := Except.ok.inj hrender
      rw [← htexts]
      exact filterMap_ofSql?_alterColumn d table old new

/-- The steps read off the statements of operations are those of the operations. -/
theorem indexSteps_statements {d : Spanner} {operations : List Operation}
    {statements : List Statement}
    (h : (Dialect.spanner d).statements operations = .ok statements) :
    indexSteps statements = operations.flatMap Operation.indexSteps := by
  obtain ⟨parts, hparts, rfl⟩ := statements_ok h
  clear h
  induction hparts with
  | nil => rfl
  | @cons op part rest parts hop _ ih =>
    rw [List.flatten_cons, List.flatMap_cons, ← indexSteps_statementsOf hop, ← ih]
    exact List.filterMap_append

/-! ## The steps of one table -/

def liveIndexNames (columns : List Column) : List String :=
  (liveTables columns).values.flatMap fun live => live.indexes.names

def declaredIndexNames (declared : List TableDecl) : List String :=
  declared.flatMap fun table => table.indexes.names

/-- The indexes that a table has before a plan: none if it is not there. -/
def presentIndexes (live : NameMap LiveTable) (name : String) : NameMap Index :=
  ((live.find? name).map LiveTable.indexes).getD .empty

theorem find?_presentIndexes {live : NameMap LiveTable} {table name : String} {index : Index} :
    (presentIndexes live table).find? name = some index ↔
      ∃ found, live.find? table = some found ∧ found.indexes.find? name = some index := by
  unfold presentIndexes
  cases live.find? table with
  | none => simp [NameMap.find?_empty]
  | some found => simp

/-- The steps of a declared table: indexes that change are dropped and then created. -/
def tableSteps (live : NameMap LiveTable) (table : TableDecl) : List IndexStep :=
  let changes := diffIndexes table.indexes (presentIndexes live table.name)
  changes.drop.map .drop ++ (changes.create.map (·.name)).map .create

theorem create_of_empty (wanted : NameMap Index) :
    (diffIndexes wanted .empty).create = wanted.values ∧
      (diffIndexes wanted .empty).drop = [] := by
  refine ⟨?_, rfl⟩
  show (wanted.filter fun _ index => none != some index).values = _
  congr 1
  refine NameMap.ext_find? fun name => ?_
  rw [NameMap.find?_filter]
  cases wanted.find? name <;> rfl

theorem indexSteps_tableOperations (dialect : Dialect) (table : TableDecl) (live : LiveTable) :
    (dialect.tableOperations table live).flatMap Operation.indexSteps =
      (diffIndexes table.indexes live.indexes).drop.map .drop ++
        ((diffIndexes table.indexes live.indexes).create.map (·.name)).map .create := by
  have hkey : (Dialect.keyOperations table live).flatMap Operation.indexSteps = [] := by
    unfold Dialect.keyOperations
    split <;> rfl
  have hcolumns {α : Type} (l : List α) : (l.flatMap fun _ => ([] : List IndexStep)) = [] :=
    List.flatMap_eq_nil_iff.2 fun _ _ => rfl
  rw [tableOperations_eq, settleOperations, releaseOperations, List.map_map]
  simp only [List.flatMap_append, List.flatMap_map, Operation.indexSteps, hkey, hcolumns,
    List.append_nil, List.nil_append, ← List.map_eq_flatMap]
  rfl

theorem indexSteps_declaredOperations (dialect : Dialect) (live : NameMap LiveTable)
    (table : TableDecl) :
    (dialect.declaredOperations live table).flatMap Operation.indexSteps =
      tableSteps live table := by
  unfold Dialect.declaredOperations tableSteps presentIndexes
  cases live.find? table.name with
  | none =>
    obtain ⟨hcreate, hdrop⟩ := create_of_empty table.indexes
    show [Operation.createTable table table.indexes.values].flatMap Operation.indexSteps =
      (diffIndexes table.indexes .empty).drop.map .drop ++
        ((diffIndexes table.indexes .empty).create.map (·.name)).map .create
    rw [hcreate, hdrop, List.flatMap_singleton, List.map_map]
    rfl
  | some found => exact indexSteps_tableOperations dialect table found

theorem mem_drop_names {wanted present : NameMap Index} {name : String} :
    name ∈ (diffIndexes wanted present).drop ↔
      name ∈ present.names ∧ ∀ index, wanted.find? name = some index →
        present.find? name ≠ some index := by
  rw [mem_drop, NameMap.mem_names]
  constructor
  · rintro ⟨index, hpresent, hwanted⟩
    refine ⟨⟨index, hpresent⟩, fun other hother heq => hwanted ?_⟩
    rw [hother, ← heq, hpresent]
  · rintro ⟨⟨index, hpresent⟩, h⟩
    exact ⟨index, hpresent, fun hwanted => h index hwanted hpresent⟩

theorem mem_create_names {wanted present : NameMap Index} (hnamed : Named wanted)
    {name : String} :
    name ∈ (diffIndexes wanted present).create.map (·.name) ↔
      ∃ index, wanted.find? name = some index ∧ present.find? name ≠ some index := by
  simp only [List.mem_map, mem_create]
  constructor
  · rintro ⟨index, ⟨other, hwanted, hpresent⟩, rfl⟩
    obtain rfl := hnamed other index hwanted
    exact ⟨index, hwanted, hpresent⟩
  · rintro ⟨index, hwanted, hpresent⟩
    exact ⟨index, ⟨name, hwanted, hpresent⟩, hnamed name index hwanted⟩

/-! ## Tables one after the other -/

/-- Whether the indexes of a table have been left to it: a live table that had one of their names is
the table itself or one of those before. -/
def LeftTo (live : NameMap LiveTable) (before : List TableDecl) (table : TableDecl) : Prop :=
  ∀ name ∈ table.indexes.names, ∀ other found, live.find? other = some found →
    name ∈ found.indexes.names → other = table.name ∨ other ∈ before.map (·.name)

/-- What is known of the names in use behind some of the tables: they are the names that these
declare and those of the live tables that are still to come. -/
structure InUse (live : NameMap LiveTable) (before : List TableDecl) (used : List String) :
    Prop where
  mem_used : ∀ name, name ∈ used ↔
    (∃ table ∈ before, name ∈ table.indexes.names) ∨
      ∃ other found, live.find? other = some found ∧ name ∈ found.indexes.names ∧
        other ∉ before.map (·.name)
  left_to : ∀ table ∈ before, LeftTo live before table

/-- Whether no two live tables have an index of one name. -/
def LiveDistinct (live : NameMap LiveTable) : Prop :=
  ∀ name a b found other, live.find? a = some found → live.find? b = some other →
    name ∈ found.indexes.names → name ∈ other.indexes.names → a = b

/-- Whether no two tables declare an index of one name. -/
def DeclaredDistinct (tables : List TableDecl) : Prop :=
  ∀ name, ∀ a ∈ tables, ∀ b ∈ tables, name ∈ a.indexes.names → name ∈ b.indexes.names → a = b

theorem mem_presentIndexes {live : NameMap LiveTable} {table name : String} :
    name ∈ (presentIndexes live table).names ↔
      ∃ found, live.find? table = some found ∧ name ∈ found.indexes.names := by
  simp only [NameMap.mem_names, find?_presentIndexes]
  constructor
  · rintro ⟨index, found, hfound, hindex⟩
    exact ⟨found, hfound, index, hindex⟩
  · rintro ⟨found, hfound, index, hindex⟩
    exact ⟨index, found, hfound, hindex⟩

section
variable {live : NameMap LiveTable} {before : List TableDecl} {table : TableDecl}
  {used : List String}

/-- A table creates its indexes under free names if and only if these have been left to it. -/
theorem createsFresh_table (hinuse : InUse live before used) (hlive : LiveDistinct live)
    (hdeclared : ∀ other ∈ before, ∀ name ∈ table.indexes.names, name ∉ other.indexes.names) :
    CreatesFresh used (tableSteps live table) ↔ LeftTo live before table := by
  have hnamed := named_indexes table
  rw [tableSteps, createsFresh_append, createsFresh_creates (nodup_create _ hnamed),
    and_iff_right (createsFresh_drops ..)]
  constructor
  · intro h name hname other found hfound hother
    by_contra hne
    rw [not_or] at hne
    have habsent : name ∉ (presentIndexes live table.name).names := by
      intro hpresent
      obtain ⟨own, hown, hmem⟩ := mem_presentIndexes.1 hpresent
      exact hne.1 (hlive name other table.name found own hfound hown hother hmem)
    obtain ⟨index, hindex⟩ := NameMap.mem_names.1 hname
    refine h name ((mem_create_names hnamed).2 ⟨index, hindex, fun hpresent => ?_⟩)
      (mem_namesInUse_drops.2 ⟨?_, fun hdrop => habsent (mem_drop_names.1 hdrop).1⟩)
    · exact habsent (NameMap.mem_names.2 ⟨index, hpresent⟩)
    · exact (hinuse.mem_used name).2 (.inr ⟨other, found, hfound, hother, hne.2⟩)
  · intro h name hcreate huse
    obtain ⟨hused, hkept⟩ := mem_namesInUse_drops.1 huse
    obtain ⟨index, hwanted, hpresent⟩ := (mem_create_names hnamed).1 hcreate
    have hname := NameMap.mem_names.2 ⟨index, hwanted⟩
    rcases (hinuse.mem_used name).1 hused with ⟨other, hother, hmem⟩ |
      ⟨other, found, hfound, hmem, hlater⟩
    · exact hdeclared other hother name hname hmem
    · rcases h name hname other found hfound hmem with rfl | hbefore
      · refine hkept (mem_drop_names.2 ⟨mem_presentIndexes.2 ⟨found, hfound, hmem⟩, ?_⟩)
        intro own hown heq
        rw [hwanted] at hown
        cases hown
        exact hpresent heq
      · exact hlater hbefore

/-- A table whose indexes have been left to it passes on what is known of the names in use. -/
theorem inUse_tableSteps (hinuse : InUse live before used) (hlive : LiveDistinct live)
    (hleft : LeftTo live before table) (hnew : table.name ∉ before.map (·.name)) :
    InUse live (table :: before) (namesInUse used (tableSteps live table)) := by
  have hnamed := named_indexes table
  have hmono {other : TableDecl} (h : LeftTo live before other) :
      LeftTo live (table :: before) other := fun name hname owner found hfound hmem =>
    (h name hname owner found hfound hmem).imp_right fun hb => List.mem_cons_of_mem _ hb
  refine ⟨fun name => ?_, fun other hother => ?_⟩
  · rw [tableSteps, namesInUse_append, mem_namesInUse_creates, mem_namesInUse_drops,
      mem_create_names hnamed, hinuse.mem_used]
    constructor
    · rintro (⟨index, hwanted, -⟩ | ⟨⟨other, hother, hmem⟩ | ⟨other, found, hfound, hmem, hlater⟩,
        hkept⟩)
      · exact .inl ⟨table, List.mem_cons_self, NameMap.mem_names.2 ⟨index, hwanted⟩⟩
      · exact .inl ⟨other, List.mem_cons_of_mem _ hother, hmem⟩
      · by_cases hown : other = table.name
        · -- The table's own index that is not dropped is one that it declares.
          subst hown
          have hpresent := mem_presentIndexes.2 ⟨found, hfound, hmem⟩
          rw [mem_drop_names, and_iff_right hpresent] at hkept
          simp only [not_forall, not_not, ne_eq] at hkept
          obtain ⟨index, hwanted, -⟩ := hkept
          exact .inl ⟨table, List.mem_cons_self, NameMap.mem_names.2 ⟨index, hwanted⟩⟩
        · refine .inr ⟨other, found, hfound, hmem, ?_⟩
          rw [List.map_cons, List.mem_cons, not_or]
          exact ⟨hown, hlater⟩
    · rintro (⟨other, hother, hmem⟩ | ⟨other, found, hfound, hmem, hlater⟩)
      · rcases List.mem_cons.1 hother with rfl | hother
        · obtain ⟨index, hwanted⟩ := NameMap.mem_names.1 hmem
          by_cases hpresent : (presentIndexes live other.name).find? name = some index
          · obtain ⟨found, hfound, hindex⟩ := find?_presentIndexes.1 hpresent
            have hname := NameMap.mem_names.2 ⟨index, hindex⟩
            refine .inr ⟨.inr ⟨other.name, found, hfound, hname, hnew⟩,
              fun hdrop => (mem_drop_names.1 hdrop).2 index hwanted hpresent⟩
          · exact .inl ⟨index, hwanted, hpresent⟩
        · refine .inr ⟨.inl ⟨other, hother, hmem⟩, fun hdrop => ?_⟩
          obtain ⟨found, hfound, hown⟩ := mem_presentIndexes.1 (mem_drop_names.1 hdrop).1
          rcases hinuse.left_to other hother name hmem table.name found hfound hown with heq | hin
          · exact hnew (heq ▸ List.mem_map_of_mem hother)
          · exact hnew hin
      · rw [List.map_cons, List.mem_cons, not_or] at hlater
        refine .inr ⟨.inr ⟨other, found, hfound, hmem, hlater.2⟩, fun hdrop => ?_⟩
        obtain ⟨own, hown, hmine⟩ := mem_presentIndexes.1 (mem_drop_names.1 hdrop).1
        exact hlater.1 (hlive name other table.name found own hfound hown hmem hmine)
  · rcases List.mem_cons.1 hother with rfl | hother
    · exact hmono hleft
    · exact hmono (hinuse.left_to other hother)

/-- Whether no index moves to a table from one that comes later, or that is dropped. -/
def MovesForward (live : NameMap LiveTable) (declared : List TableDecl) (table : TableDecl) : Prop :=
  ∀ name ∈ table.indexes.names, ∀ other found, live.find? other = some found →
    name ∈ found.indexes.names →
      other = table.name ∨ other ∈ declared.map (·.name) ∧ other < table.name

/-- Declared tables in name order create their indexes under free names if and only if no index
moves to a table from a later one. -/
theorem createsFresh_tables {declared rest : List TableDecl} (hinuse : InUse live before used)
    (hlive : LiveDistinct live) (hdistinct : DeclaredDistinct declared)
    (hsplit : declared = before.reverse ++ rest)
    (hsorted : declared.Pairwise fun a b => a.name < b.name) :
    CreatesFresh used (rest.flatMap (tableSteps live)) ↔
      ∀ table ∈ rest, MovesForward live declared table := by
  induction rest generalizing before used with
  | nil => simp [CreatesFresh]
  | cons table rest ih =>
    have hmem {other : TableDecl} (h : other ∈ before) : other ∈ declared := by
      rw [hsplit]
      exact List.mem_append_left _ (List.mem_reverse.2 h)
    have htable : table ∈ declared := by
      rw [hsplit]
      exact List.mem_append_right _ List.mem_cons_self
    have hlt : ∀ other ∈ before, other.name < table.name := by
      rw [hsplit, List.pairwise_append] at hsorted
      exact fun other hother =>
        hsorted.2.2 other (List.mem_reverse.2 hother) table List.mem_cons_self
    have hge : ∀ other ∈ rest, table.name < other.name := by
      rw [hsplit, List.pairwise_append, List.pairwise_cons] at hsorted
      exact hsorted.2.1.1
    have hnew : table.name ∉ before.map (·.name) := by
      intro hin
      obtain ⟨other, hother, heq⟩ := List.mem_map.1 hin
      exact String.ne_of_lt (hlt other hother) heq
    have hbefore (other : String) : other ∈ before.map (·.name) ↔
        other ∈ declared.map (·.name) ∧ other < table.name := by
      constructor
      · intro hin
        obtain ⟨found, hfound, rfl⟩ := List.mem_map.1 hin
        exact ⟨List.mem_map_of_mem (hmem hfound), hlt found hfound⟩
      · rintro ⟨hin, hsmaller⟩
        obtain ⟨found, hfound, rfl⟩ := List.mem_map.1 hin
        rw [hsplit, List.mem_append, List.mem_reverse, List.mem_cons] at hfound
        rcases hfound with hfound | rfl | hfound
        · exact List.mem_map_of_mem hfound
        · exact absurd hsmaller (String.lt_irrefl _)
        · exact absurd (String.lt_trans hsmaller (hge found hfound)) (String.lt_irrefl _)
    have hleft : LeftTo live before table ↔ MovesForward live declared table := by
      unfold LeftTo MovesForward
      simp only [hbefore]
    have hfresh := createsFresh_table hinuse hlive fun other hother name hname hin =>
      String.ne_of_lt (hlt other hother)
        (congrArg TableDecl.name (hdistinct name other (hmem hother) table htable hin hname))
    rw [List.flatMap_cons, createsFresh_append, List.forall_mem_cons, hfresh, hleft]
    refine and_congr_right fun hforward =>
      ih (inUse_tableSteps hinuse hlive (hleft.2 hforward) hnew) ?_
    rw [hsplit, List.reverse_cons, List.append_assoc]
    rfl

end

/-! ## Whole plans -/

theorem eq_of_mem_flatMap {α β : Type} {l : List α} {f : α → List β} (h : (l.flatMap f).Nodup)
    {a b : α} (ha : a ∈ l) (hb : b ∈ l) {x : β} (hxa : x ∈ f a) (hxb : x ∈ f b) : a = b := by
  by_contra hne
  have : Std.Symm (Function.onFun List.Disjoint f) := ⟨fun _ _ h _ ha hb => h hb ha⟩
  exact (List.nodup_flatMap.1 h).2.forall ha hb hne hxa hxb

theorem liveDistinct_of_nodup {columns : List Column} (h : (liveIndexNames columns).Nodup) :
    LiveDistinct (liveTables columns) := by
  intro name a b found other ha hb hfound hother
  have := eq_of_mem_flatMap h (NameMap.mem_values.2 ⟨a, ha⟩) (NameMap.mem_values.2 ⟨b, hb⟩) hfound
    hother
  rw [← (live_table ha).1, ← (live_table hb).1, this]

theorem inUse_start (columns : List Column) :
    InUse (liveTables columns) [] (liveIndexNames columns) := by
  refine ⟨fun name => ?_, nofun⟩
  simp only [liveIndexNames, List.mem_flatMap, NameMap.mem_values]
  constructor
  · rintro ⟨found, ⟨other, hfound⟩, hmem⟩
    exact .inr ⟨other, found, hfound, hmem, List.not_mem_nil⟩
  · rintro (⟨table, hnil, -⟩ | ⟨other, found, hfound, hmem, -⟩)
    · cases hnil
    · exact ⟨found, ⟨other, hfound⟩, hmem⟩

/-- The steps of a plan are those of the declared tables, and then indexes are only dropped. -/
theorem indexSteps_operations (dialect : Dialect) (declared : List TableDecl)
    (columns : List Column) :
    (dialect.operations declared columns).flatMap Operation.indexSteps =
      (inNameOrder declared).flatMap (tableSteps (liveTables columns)) ++
        ((undeclaredTables declared columns).flatMap fun live =>
          live.indexes.values.map (·.name)).map .drop := by
  rw [operations_eq, List.flatMap_append, List.flatMap_assoc, List.flatMap_map, List.map_flatMap]
  simp only [indexSteps_declaredOperations, Operation.indexSteps, List.map_map]
  rfl

/-- Wherever a Spanner plan creates an index its name is free, if and only if no index moves to a
table from one that comes later in name order, or that is dropped. -/
theorem created_names_free_iff {d : Spanner} {declared : List TableDecl} {columns : List Column}
    {statements : List Statement} (h : (Dialect.spanner d).plan declared columns = .ok statements)
    (hdeclared : (declaredIndexNames declared).Nodup) (hlive : (liveIndexNames columns).Nodup) :
    (∀ before name after, indexSteps statements = before ++ .create name :: after →
        name ∉ namesInUse (liveIndexNames columns) before) ↔
      ∀ table ∈ declared, MovesForward (liveTables columns) declared table := by
  obtain ⟨hvalid, hplan⟩ := bind_eq_ok h
  have hnames := (validate_ok hvalid).1
  have hperm := perm_inNameOrder declared
  have hdistinct : DeclaredDistinct (inNameOrder declared) := fun name a ha b hb =>
    eq_of_mem_flatMap hdeclared (hperm.mem_iff.1 ha) (hperm.mem_iff.1 hb)
  have hsplit : inNameOrder declared = [].reverse ++ inNameOrder declared := rfl
  have htables := createsFresh_tables (inUse_start columns) (liveDistinct_of_nodup hlive) hdistinct
    hsplit (pairwise_inNameOrder hnames)
  rw [← createsFresh_iff_forall, indexSteps_statements hplan, indexSteps_operations,
    createsFresh_append, and_iff_left (createsFresh_drops ..), htables]
  simp only [hperm.mem_iff, MovesForward, (hperm.map _).mem_iff]

/-- A plan that creates a table with an index and drops another table with an index. -/
theorem created_names_free_orders :
    let columns : List Column := [
      { table := "drafts", name := "id", dataType := "INT64", nullable := false, primaryKey := true
        memberships := [⟨"PRIMARY_KEY", 1, true, true⟩, ⟨"drafts_id", 1, false, false⟩] }]
    let orders : TableDecl := { name := "orders", fields := [
      { name := "id", type := "i64", primaryKey := true, index := some {} }] }
    let statements : List Statement := [
      ⟨"orders", "CREATE TABLE `orders` (\n  `id` INT64 NOT NULL\n) PRIMARY KEY (`id`)"⟩,
      ⟨"orders", "CREATE INDEX `orders_id` ON `orders` (`id`)"⟩,
      ⟨"drafts", "DROP INDEX `drafts_id`"⟩, ⟨"drafts", "DROP TABLE `drafts`"⟩]
    (∀ before name after, indexSteps statements = before ++ .create name :: after →
        name ∉ namesInUse (liveIndexNames columns) before) ↔
      ∀ table ∈ [orders], MovesForward (liveTables columns) [orders] table :=
  created_names_free_iff (d := {}) (eq_ok_of_toOption (by decide +kernel)) (by decide +kernel)
    (by decide +kernel)

/-- An index that moves away from a dropped table is created while its name is still in use. -/
theorem moved_index_created_in_use :
    let columns : List Column := [
      { table := "b", name := "id", dataType := "INT64", position := 1, nullable := false
        primaryKey := true
        memberships := [⟨"PRIMARY_KEY", 1, true, true⟩, ⟨"by_id", 1, false, false⟩] }]
    let declared : List TableDecl := [{ name := "a", fields := [
      { name := "id", type := "i64", primaryKey := true, index := some { name := some "by_id" } }] }]
    let statements : List Statement := [
      ⟨"a", "CREATE TABLE `a` (\n  `id` INT64 NOT NULL\n) PRIMARY KEY (`id`)"⟩,
      ⟨"a", "CREATE INDEX `by_id` ON `a` (`id`)"⟩,
      ⟨"b", "DROP INDEX `by_id`"⟩, ⟨"b", "DROP TABLE `b`"⟩]
    (Dialect.spanner {}).plan declared columns = .ok statements ∧
      (declaredIndexNames declared).Nodup ∧ (liveIndexNames columns).Nodup ∧
      indexSteps statements = [] ++ .create "by_id" :: [.drop "by_id"] ∧
      "by_id" ∈ namesInUse (liveIndexNames columns) [] :=
  ⟨eq_ok_of_toOption (by decide +kernel), by decide +kernel, by decide +kernel,
    by decide +kernel, by decide +kernel⟩

end SchemaPlan
