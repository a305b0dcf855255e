import SchemaPlan.Proofs.Operations
import SchemaPlan.Proofs.Sorting
import SchemaPlan.Proofs.Validation

/-!
# Plans and the order of their inputs

A plan shows neither the order in which tables are declared nor the one in which a catalog lists its
columns and the memberships of each of them. It sorts the tables by name, the columns of a table by
position and the parts of a key or an index by their places, and none of these has ties.

* `Reordered`: two catalogs list the same columns with the same memberships.
* `Unambiguous`: no two columns of a table have one position, and the memberships of an index agree
  on its uniqueness.
* `LiveTable.face`: what a plan sees of a live table; `find?_face` says that reordered catalogs have
  the same tables to that extent.
* `plan_reordered`: plans from reordered inputs have the same statements, or none of them exists.
-/
namespace SchemaPlan

/-! ## Catalogs with the same contents -/

def Column.bare (column : Column) : Column :=
  { column with memberships := [] }

/-- A membership together with its column. -/
structure Place where
  table : String
  column : String
  membership : Membership
  deriving DecidableEq

def places (columns : List Column) : List Place :=
  columns.flatMap fun column => column.memberships.map (Place.mk column.table column.name)

/-- Whether an index of a table has exactly one place. -/
def hasOnePlace (places : List Place) (table index : String) : Bool :=
  (places.filter fun place => place.table = table && place.membership.name = index).length == 1

/-- Two catalogs list the same columns and the same memberships of each, in whatever order. -/
structure Reordered (columns others : List Column) : Prop where
  bare : (columns.map Column.bare).Perm (others.map Column.bare)
  places : (places columns).Perm (places others)

theorem places_perm {columns others : List Column} (h : columns.Perm others) :
    (places columns).Perm (places others) :=
  h.flatMap_right _

theorem reordered_of_perm {columns others : List Column} (h : columns.Perm others) :
    Reordered columns others :=
  ⟨h.map _, places_perm h⟩

/-- Two columns differ in nothing but the order of their memberships. -/
structure Column.Agrees (column other : Column) : Prop where
  bare : column.bare = other.bare
  memberships : column.memberships.Perm other.memberships

theorem reordered_of_forall₂ {columns others : List Column}
    (h : List.Forall₂ Column.Agrees columns others) : Reordered columns others := by
  induction h with
  | nil => exact reordered_of_perm .nil
  | @cons column other rest rest' hagrees hrest ih =>
    refine ⟨?_, ?_⟩
    · rw [List.map_cons, List.map_cons, hagrees.bare]
      exact ih.bare.cons _
    · have htable : column.bare.table = other.bare.table := by rw [hagrees.bare]
      have hname : column.bare.name = other.bare.name := by rw [hagrees.bare]
      simp only [Column.bare] at htable hname
      simp only [SchemaPlan.places, List.flatMap_cons, htable, hname]
      exact (hagrees.memberships.map _).append ih.places

theorem Reordered.trans {a b c : List Column} (h : Reordered a b) (h' : Reordered b c) :
    Reordered a c :=
  ⟨h.bare.trans h'.bare, h.places.trans h'.places⟩

theorem places_filter (columns : List Column) (name : String) :
    places (columns.filter fun column => column.table = name) =
      (places columns).filter fun place => place.table = name := by
  induction columns with
  | nil => rfl
  | cons column rest ih =>
    by_cases h : column.table = name
    · simp_all [places, List.filter_map, Function.comp_def]
    · simp_all [places, List.filter_map, Function.comp_def]

theorem Reordered.filter {columns others : List Column} (h : Reordered columns others)
    (name : String) :
    Reordered (columns.filter fun column => column.table = name)
      (others.filter fun column => column.table = name) := by
  refine ⟨?_, ?_⟩
  · have hbare (l : List Column) : (l.filter fun column => column.table = name).map Column.bare =
        (l.map Column.bare).filter fun column => column.table = name := by
      rw [List.filter_map]
      rfl
    rw [hbare, hbare]
    exact h.bare.filter _
  · rw [places_filter, places_filter]
    exact h.places.filter _

/-- Columns of a table have different positions, and memberships of an index of a table agree on its
uniqueness. -/
structure Unambiguous (columns : List Column) : Prop where
  positions : columns.Pairwise fun a b => a.table = b.table → a.position ≠ b.position
  unique : ∀ a ∈ places columns, ∀ b ∈ places columns, a.table = b.table →
    a.membership.name = b.membership.name → a.membership.unique = b.membership.unique

theorem Unambiguous.perm {columns others : List Column} (h : Unambiguous columns)
    (hperm : columns.Perm others) : Unambiguous others := by
  refine ⟨(hperm.pairwise_iff fun hab htable => (hab htable.symm).symm).1 h.positions,
    fun a ha b hb => h.unique a ?_ b ?_⟩
  · exact (places_perm hperm).mem_iff.2 ha
  · exact (places_perm hperm).mem_iff.2 hb

theorem Unambiguous.filter {columns : List Column} (h : Unambiguous columns) (name : String) :
    Unambiguous (columns.filter fun column => column.table = name) := by
  refine ⟨h.positions.filter _, fun a ha b hb => ?_⟩
  rw [places_filter] at ha hb
  exact h.unique a (List.mem_filter.1 ha).1 b (List.mem_filter.1 hb).1

/-! ## Keys and indexes -/

theorem primaryKey_eq_places (live : LiveTable) :
    live.primaryKey =
      ((((places live.columns).filter fun place => place.membership.primary).map fun place =>
        (place.membership.position, place.column)).mergeSort keyPartBefore).map Prod.snd := by
  simp only [LiveTable.primaryKey, places, List.filter_flatMap, List.map_flatMap, List.filter_map,
    List.map_map, Function.comp_def]

theorem primaryKey_congr {live other : LiveTable}
    (h : (places live.columns).Perm (places other.columns)) :
    live.primaryKey = other.primaryKey := by
  rw [primaryKey_eq_places, primaryKey_eq_places,
    mergeSort_congr keyPartBefore_trans keyPartBefore_total ((h.filter _).map _)
      fun a _ b _ => keyPartBefore_antisymm a b]

/-- The parts of secondary indexes that memberships are, under the names of the indexes. -/
def indexParts (places : List Place) : List (String × Bool × Nat × String) :=
  (places.filter fun place => !place.membership.primary).map fun place =>
    (place.membership.name, place.membership.unique, place.membership.position, place.column)

/-- An index by its name and its parts. -/
def indexOfParts (name : String) (parts : List (Bool × Nat × String)) : Index where
  name
  columns := ((parts.map Prod.snd).mergeSort keyPartBefore).map Prod.snd
  unique := parts.head?.any Prod.fst

theorem indexes_eq_places (live : LiveTable) :
    live.indexes = (NameMap.group (indexParts (places live.columns))).mapValues indexOfParts := by
  simp only [LiveTable.indexes, indexParts, places, List.filter_flatMap, List.map_flatMap,
    List.filter_map, List.map_map, Function.comp_def]
  rfl

/-- The parts of an index give it in any order, if they agree on its uniqueness. -/
theorem indexOfParts_congr {name : String} {parts others : List (Bool × Nat × String)}
    (h : parts.Perm others) (hunique : ∀ a ∈ parts, ∀ b ∈ parts, a.1 = b.1) :
    indexOfParts name parts = indexOfParts name others := by
  have hhead : parts.head?.any Prod.fst = others.head?.any Prod.fst := by
    cases parts with
    | nil => rw [h.nil_eq]
    | cons a rest =>
      cases others with
      | nil => exact absurd h.symm.nil_eq (by simp)
      | cons b rest' => exact hunique a (by simp) b (h.mem_iff.2 (by simp))
  rw [indexOfParts, indexOfParts, hhead,
    mergeSort_congr keyPartBefore_trans keyPartBefore_total (h.map Prod.snd)
      fun a _ b _ => keyPartBefore_antisymm a b]

theorem indexes_congr {live other : LiveTable}
    (h : (places live.columns).Perm (places other.columns))
    (hunique : ∀ a ∈ places live.columns, ∀ b ∈ places live.columns,
      a.membership.name = b.membership.name → a.membership.unique = b.membership.unique) :
    live.indexes = other.indexes := by
  rw [indexes_eq_places, indexes_eq_places]
  refine NameMap.ext_find? fun name => ?_
  have hparts : (((indexParts (places live.columns)).filter fun x => x.1 = name).map
      Prod.snd).Perm
      (((indexParts (places other.columns)).filter fun x => x.1 = name).map Prod.snd) :=
    ((((h.filter _).map _).filter _).map _)
  rw [NameMap.find?_mapValues, NameMap.find?_mapValues, NameMap.find?_group, NameMap.find?_group]
  dsimp only
  rw [hparts.isEmpty_eq]
  split
  · rfl
  · refine congrArg some (indexOfParts_congr hparts ?_)
    simp only [indexParts, List.mem_map, List.mem_filter, decide_eq_true_eq]
    rintro _ ⟨_, ⟨⟨a, ⟨ha, -⟩, rfl⟩, hname⟩, rfl⟩ _ ⟨_, ⟨⟨b, ⟨hb, -⟩, rfl⟩, hname'⟩, rfl⟩
    exact hunique a ha b hb (hname.trans hname'.symm)

/-! ## What a plan sees of a live table -/

/-- A live table without the order of memberships. -/
structure Face where
  name : String
  columns : List Column
  primaryKey : List String
  indexes : NameMap Index

def LiveTable.face (live : LiveTable) : Face :=
  ⟨live.name, live.columns.map Column.bare, live.primaryKey, live.indexes⟩

theorem sort_bare_congr {columns others : List Column}
    (h : (columns.map Column.bare).Perm (others.map Column.bare))
    (hpositions : columns.Pairwise fun a b => a.position ≠ b.position) :
    (columns.mergeSort fun a b => a.position ≤ b.position).map Column.bare =
      (others.mergeSort fun a b => a.position ≤ b.position).map Column.bare := by
  have hsort (l : List Column) : (l.mergeSort fun a b => a.position ≤ b.position).map Column.bare =
      (l.map Column.bare).mergeSort fun a b => a.position ≤ b.position :=
    List.map_mergeSort fun _ _ _ _ => rfl
  rw [hsort, hsort]
  refine mergeSort_congr (fun a b c => ?_) (fun a b => ?_) h fun a ha b hb hab hba => ?_
  · simp only [decide_eq_true_eq]
    exact Nat.le_trans
  · simp only [Bool.or_eq_true, decide_eq_true_eq]
    exact Nat.le_total a.position b.position
  · have hnodup : ((columns.map Column.bare).map (·.position)).Nodup := by
      rw [List.map_map]
      exact List.pairwise_map.2 hpositions
    simp only [decide_eq_true_eq] at hab hba
    exact List.inj_on_of_nodup_map hnodup ha hb (Nat.le_antisymm hab hba)

theorem face_congr {name : String} {columns others : List Column} (h : Reordered columns others)
    (hclear : Unambiguous columns) (htable : ∀ column ∈ columns, column.table = name) :
    LiveTable.face ⟨name, columns.mergeSort fun a b => a.position ≤ b.position⟩ =
      LiveTable.face ⟨name, others.mergeSort fun a b => a.position ≤ b.position⟩ := by
  have hsorted (l : List Column) :
      (places (l.mergeSort fun a b => a.position ≤ b.position)).Perm (places l) :=
    places_perm (List.mergeSort_perm l _)
  have hplaces := ((hsorted columns).trans h.places).trans (hsorted others).symm
  have hpositions : columns.Pairwise fun a b => a.position ≠ b.position :=
    hclear.positions.imp_of_mem fun {a b} ha hb hab =>
      hab ((htable a ha).trans (htable b hb).symm)
  have htableOf : ∀ place ∈ places columns, place.table = name := by
    intro place hplace
    obtain ⟨column, hcolumn, hplace⟩ := List.mem_flatMap.1 hplace
    obtain ⟨membership, -, rfl⟩ := List.mem_map.1 hplace
    exact htable column hcolumn
  simp only [LiveTable.face, Face.mk.injEq, true_and]
  refine ⟨sort_bare_congr h.bare hpositions, primaryKey_congr hplaces,
    indexes_congr hplaces fun a ha b hb => ?_⟩
  have ha := (hsorted columns).mem_iff.1 ha
  have hb := (hsorted columns).mem_iff.1 hb
  exact hclear.unique a ha b hb ((htableOf a ha).trans (htableOf b hb).symm)

/-- Reordered catalogs have the same live tables, as far as a plan sees. -/
theorem find?_face {columns others : List Column} (h : Reordered columns others)
    (hclear : Unambiguous columns) (name : String) :
    ((liveTables columns).find? name).map LiveTable.face =
      ((liveTables others).find? name).map LiveTable.face := by
  have hfound := h.filter name
  have hempty : (columns.filter fun column => column.table = name).isEmpty =
      (others.filter fun column => column.table = name).isEmpty := by
    simpa only [List.isEmpty_map] using hfound.bare.isEmpty_eq
  rw [find?_liveTables, find?_liveTables]
  dsimp only
  rw [hempty]
  split
  · rfl
  · refine congrArg some (face_congr hfound (hclear.filter name) fun column hcolumn => ?_)
    simpa using (List.mem_filter.1 hcolumn).2

/-! ## Plans -/

namespace Dialect

/-- What does not look at memberships is the same for a column of two tables with one face. -/
theorem column?_bind_congr {α : Type} {live other : LiveTable} (h : live.face = other.face)
    (f : Column → Option α) (hbare : ∀ column, f column.bare = f column) (name : String) :
    (live.column? name).bind f = (other.column? name).bind f := by
  have hfind (l : List Column) : (l.find? fun column => column.name = name).bind f =
      ((l.map Column.bare).find? fun column => column.name = name).bind f := by
    rw [List.find?_map, Option.bind_map]
    exact congrArg _ (funext fun column => (hbare column).symm)
  have hcolumns : live.columns.map Column.bare = other.columns.map Column.bare :=
    congrArg Face.columns h
  rw [LiveTable.column?, LiveTable.column?, hfind live.columns, hcolumns, ← hfind]

theorem tableOperations_congr (dialect : Dialect) (table : TableDecl) {live other : LiveTable}
    (h : live.face = other.face) :
    dialect.tableOperations table live = dialect.tableOperations table other := by
  have hcolumns : live.columns.map Column.bare = other.columns.map Column.bare :=
    congrArg Face.columns h
  have hkey : live.primaryKey = other.primaryKey := congrArg Face.primaryKey h
  have hindexes : live.indexes = other.indexes := congrArg Face.indexes h
  have hisNone (name : String) : (live.column? name).isNone = (other.column? name).isNone := by
    have hnone (column? : Option Column) :
        column?.isNone = (column?.bind fun _ => some ()).isNone := by cases column? <;> rfl
    rw [hnone, hnone (other.column? name), column?_bind_congr h _ (fun _ => rfl)]
  have hdropped (l : List Column) :
      ((l.filter fun column => !table.columnNames.contains column.name).map fun column =>
        Operation.dropColumn table.name column.name) =
      (((l.map Column.bare).filter fun column => !table.columnNames.contains column.name).map
        fun column => Operation.dropColumn table.name column.name) := by
    rw [List.filter_map, List.map_map]
    rfl
  have haltered (field : FieldDecl) (unique : Bool) :=
    column?_bind_congr h (fun column =>
      if dialect.columnChanged field unique column then
        some (Operation.alterColumn table.name (dialect.fieldOfColumn column) field)
      else none) (fun _ => rfl) field.columnName
  simp only [tableOperations, keyOperations, hkey, hindexes, hisNone, haltered]
  rw [hdropped, hcolumns, ← hdropped]

theorem declaredOperations_congr (dialect : Dialect) {live other : NameMap LiveTable}
    (h : ∀ name, (live.find? name).map LiveTable.face = (other.find? name).map LiveTable.face)
    (table : TableDecl) :
    dialect.declaredOperations live table = dialect.declaredOperations other table := by
  have hfind := h table.name
  unfold declaredOperations
  cases hlive : live.find? table.name <;> cases hother : other.find? table.name <;>
    simp only [hlive, hother, Option.map_some, Option.map_none, reduceCtorEq, Option.some.injEq]
      at hfind ⊢
  exact tableOperations_congr dialect table hfind

end Dialect

theorem undeclaredTables_face {columns others : List Column} (declared : List TableDecl)
    (h : ∀ name, ((liveTables columns).find? name).map LiveTable.face =
      ((liveTables others).find? name).map LiveTable.face) :
    (undeclaredTables declared columns).map LiveTable.face =
      (undeclaredTables declared others).map LiveTable.face := by
  have hfaces : (liveTables columns).mapValues (fun _ => LiveTable.face) =
      (liveTables others).mapValues fun _ => LiveTable.face :=
    NameMap.ext_find? fun name => by rw [NameMap.find?_mapValues, NameMap.find?_mapValues, h]
  have hleft (l : List Column) : (undeclaredTables declared l).map LiveTable.face =
      (((liveTables l).mapValues fun _ => LiveTable.face).filter fun name _ =>
        !(declared.map (·.name)).contains name).values := by
    simp only [undeclaredTables, NameMap.values, NameMap.filter, NameMap.mapValues, List.filter_map,
      List.map_map, Function.comp_def]
  rw [hleft, hleft, hfaces]

theorem undeclaredTables_perm {declared others : List TableDecl} (h : declared.Perm others)
    (columns : List Column) : undeclaredTables declared columns = undeclaredTables others columns := by
  have hnames (name : String) : (declared.map (·.name)).contains name =
      (others.map (·.name)).contains name := by
    rw [Bool.eq_iff_iff, List.contains_iff_mem, List.contains_iff_mem, (h.map _).mem_iff]
  simp only [undeclaredTables, hnames]

namespace Dialect

/-- Reordered inputs give the same operations. -/
theorem operations_reordered (dialect : Dialect) {declared declared' : List TableDecl}
    {columns others : List Column} (hdeclared : declared.Perm declared')
    (hnames : (declared.map (·.name)).Nodup) (h : Reordered columns others)
    (hclear : Unambiguous columns) :
    dialect.operations declared columns = dialect.operations declared' others := by
  have hface := find?_face h hclear
  have hdrop (l : List LiveTable) :
      (l.map fun live => Operation.dropTable live.name live.indexes.values) =
        (l.map LiveTable.face).map fun face => .dropTable face.name face.indexes.values := by
    rw [List.map_map]
    rfl
  rw [operations_eq, operations_eq, inNameOrder_congr hdeclared hnames,
    funext (declaredOperations_congr dialect hface), hdrop, hdrop,
    undeclaredTables_perm hdeclared, undeclaredTables_face declared' hface]

theorem validate_perm (dialect : Dialect) {declared declared' : List TableDecl}
    (h : declared.Perm declared') :
    validate dialect declared = .ok () ↔ validate dialect declared' = .ok () := by
  simp only [validate_eq_ok_iff, (h.map _).nodup_iff, h.mem_iff]

/-- Plans from reordered inputs have the same statements, or none of them exists. -/
theorem plan_reordered (dialect : Dialect) {declared declared' : List TableDecl}
    {columns others : List Column} (hdeclared : declared.Perm declared')
    (h : Reordered columns others) (hclear : Unambiguous columns) :
    (dialect.plan declared columns).toOption = (dialect.plan declared' others).toOption := by
  have hvalid := validate_perm dialect hdeclared
  unfold plan
  cases hleft : validate dialect declared with
  | ok valid =>
    rw [hvalid.1 hleft]
    have hnames := (validate_eq_ok_iff.1 hleft).1
    simp only [planValidated, operations_reordered dialect hdeclared hnames h hclear]
  | error error =>
    cases hright : validate dialect declared' with
    | ok valid => exact absurd (hvalid.2 hright) (by simp [hleft])
    | error error' => rfl

end Dialect

end SchemaPlan
