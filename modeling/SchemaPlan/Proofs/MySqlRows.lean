import Mathlib.Data.List.Perm.Basic
import SchemaPlan.MySql.Rows
import SchemaPlan.Proofs.PlanOrder

/-!
# The order of MySQL catalog rows

The rows about columns and the rows about index parts may come in any order: if no column is
described twice, the columns that they describe are the same, each with the same memberships.

* `Consistent`: what the rows of one catalog have in common.
* `columnsFrom_eq`: every row that names its column is read by itself.
* `columnsOfRows_reordered`: reordered rows are read as reordered columns.
-/
namespace SchemaPlan.MySql

/-! ## Rows that belong together -/

/-- Rows describe no column twice and no two columns at one position, and the parts of an index agree
on its uniqueness. -/
structure Consistent (rows : List ColumnRow) (parts : List IndexRow) : Prop where
  columns : rows.Pairwise fun a b => a.column.isSome → b.column.isSome → a.table = b.table →
    a.column ≠ b.column ∧ a.position ≠ b.position
  unique : ∀ a ∈ parts, ∀ b ∈ parts, a.table = b.table → a.index = b.index →
    a.nonUnique = b.nonUnique

/-! ## Reading row by row -/

theorem columnsFrom_cons_ok {version : Version} {parts : List IndexRow}
    {seen : List (String × String)} {row : ColumnRow} {rest : List ColumnRow}
    {columns : List Column} (h : columnsFrom version parts seen (row :: rest) = .ok columns) :
    (row.column = none ∧ columnsFrom version parts seen rest = .ok columns) ∨
      ∃ name column others, row.column = some name ∧
        columnOfRow version parts row name (if seen.contains (row.table, name) then []
          else membershipsOf parts row.table name) = .ok column ∧
        columnsFrom version parts ((row.table, name) :: seen) rest = .ok others ∧
        columns = column :: others := by
  rw [columnsFrom] at h
  cases hname : row.column with
  | none =>
    rw [hname] at h
    exact .inl ⟨rfl, h⟩
  | some name =>
    rw [hname] at h
    obtain ⟨column, hcolumn, h⟩ := bind_eq_ok_iff.1 h
    obtain ⟨others, hothers, h⟩ := bind_eq_ok_iff.1 h
    exact .inr ⟨name, column, others, rfl, hcolumn, hothers, (Except.ok.inj h).symm⟩

/-- The rows that name their columns, with the names. -/
def named (rows : List ColumnRow) : List (ColumnRow × String) :=
  rows.filterMap fun row => row.column.map fun name => (row, name)

def describe (version : Version) (parts : List IndexRow) (entry : ColumnRow × String) :
    Except CatalogError Column :=
  columnOfRow version parts entry.1 entry.2 (membershipsOf parts entry.1.table entry.2)

/-- If no column is described twice, every row that names its column is read by itself. -/
theorem columnsFrom_eq (version : Version) (parts : List IndexRow) {seen : List (String × String)}
    {rows : List ColumnRow}
    (hrows : rows.Pairwise fun a b => a.column.isSome → b.column.isSome → a.table = b.table →
      a.column ≠ b.column ∧ a.position ≠ b.position)
    (hseen : ∀ row ∈ rows, ∀ name, row.column = some name → (row.table, name) ∉ seen) :
    columnsFrom version parts seen rows = (named rows).mapM (describe version parts) := by
  induction rows generalizing seen with
  | nil => rfl
  | cons row rest ih =>
    obtain ⟨hrow, hrest⟩ := List.pairwise_cons.1 hrows
    cases hname : row.column with
    | none =>
      have hnamed : named (row :: rest) = named rest := by simp [named, hname]
      rw [columnsFrom, hname, hnamed]
      exact ih hrest fun other hother => hseen other (List.mem_cons_of_mem _ hother)
    | some name =>
      have hnamed : named (row :: rest) = (row, name) :: named rest := by simp [named, hname]
      have hnew : seen.contains (row.table, name) = false := by
        simpa using hseen row List.mem_cons_self name hname
      rw [columnsFrom, hname, hnamed, List.mapM_cons]
      simp only [hnew, Bool.false_eq_true, if_false]
      rw [ih hrest]
      · rfl
      · intro other hother name' hname' hmem
        rcases List.mem_cons.1 hmem with heq | hmem
        · obtain ⟨htable, rfl⟩ := Prod.mk.inj heq
          exact (hrow other hother (by simp [hname]) (by simp [hname']) htable.symm).1
            (hname.trans hname'.symm)
        · exact hseen other (List.mem_cons_of_mem _ hother) name' hname' hmem

theorem columnsOfRows_eq (dialect : MySql) {rows : List ColumnRow} {parts : List IndexRow}
    (h : Consistent rows parts) :
    columnsOfRows dialect rows parts = (named rows).mapM (describe dialect.version parts) :=
  columnsFrom_eq _ _ h.columns fun _ _ _ _ => List.not_mem_nil

/-! ## What a row says of its column -/

theorem columnOfRow_ok {version : Version} {parts : List IndexRow} {row : ColumnRow}
    {name : String} {memberships : List Membership} {column : Column}
    (h : columnOfRow version parts row name memberships = .ok column) :
    column.table = row.table ∧ column.name = name ∧ column.position = row.position ∧
      column.dataType = normalizeColumnType row.columnType ∧ column.memberships = memberships ∧
      column.unique = memberships.any fun m =>
        m.unique && !m.primary && hasOneColumn parts row.table m.name := by
  unfold columnOfRow at h
  cases hnull : readNullability row name with
  | error error =>
    rw [hnull] at h
    cases h
  | ok nullable =>
    rw [hnull] at h
    cases h
    exact ⟨rfl, rfl, rfl, rfl, rfl, rfl⟩

theorem describe_ok {version : Version} {parts : List IndexRow} {entry : ColumnRow × String}
    {column : Column} (h : describe version parts entry = .ok column) :
    column.table = entry.1.table ∧ column.name = entry.2 ∧ column.position = entry.1.position ∧
      column.memberships = membershipsOf parts entry.1.table entry.2 := by
  obtain ⟨htable, hname, hposition, -, hmemberships, -⟩ := columnOfRow_ok h
  exact ⟨htable, hname, hposition, hmemberships⟩

theorem membershipsOf_perm {parts parts' : List IndexRow} (h : parts.Perm parts')
    (table column : String) :
    (membershipsOf parts table column).Perm (membershipsOf parts' table column) :=
  (h.filter _).map _

theorem hasOneColumn_perm {parts parts' : List IndexRow} (h : parts.Perm parts')
    (table index : String) : hasOneColumn parts table index = hasOneColumn parts' table index := by
  rw [hasOneColumn, hasOneColumn, (h.filter _).length_eq]

theorem describe_perm {version : Version} {parts parts' : List IndexRow} (h : parts.Perm parts')
    {entry : ColumnRow × String} {column : Column}
    (hcolumn : describe version parts entry = .ok column) :
    ∃ other, describe version parts' entry = .ok other ∧ column.Agrees other := by
  have hmemberships := membershipsOf_perm h entry.1.table entry.2
  unfold describe columnOfRow at hcolumn ⊢
  cases hnull : readNullability entry.1 entry.2 with
  | error error =>
    rw [hnull] at hcolumn
    cases hcolumn
  | ok nullable =>
    rw [hnull] at hcolumn
    cases hcolumn
    refine ⟨_, rfl, ⟨?_, hmemberships⟩⟩
    simp only [Column.bare, hmemberships.any_eq, hasOneColumn_perm h]

theorem forall₂_describe_perm {version : Version} {parts parts' : List IndexRow}
    (h : parts.Perm parts') {entries : List (ColumnRow × String)} {columns : List Column}
    (hread : List.Forall₂ (fun entry column => describe version parts entry = .ok column) entries
      columns) :
    ∃ others, List.Forall₂ (fun entry column => describe version parts' entry = .ok column) entries
        others ∧ List.Forall₂ Column.Agrees columns others := by
  induction hread with
  | nil => exact ⟨[], .nil, .nil⟩
  | cons hentry _ ih =>
    obtain ⟨other, hother, hagrees⟩ := describe_perm h hentry
    obtain ⟨others, hothers, hall⟩ := ih
    exact ⟨other :: others, .cons hother hothers, .cons hagrees hall⟩

/-! ## Reading reordered rows -/

theorem pairwise_named {rows : List ColumnRow} {parts : List IndexRow}
    (h : Consistent rows parts) :
    (named rows).Pairwise fun a b => a.1.table = b.1.table → a.1.position ≠ b.1.position := by
  refine List.pairwise_filterMap.2 (h.columns.imp fun {a b} hab c hc d hd htable => ?_)
  obtain ⟨name, hname, rfl⟩ := Option.map_eq_some_iff.1 hc
  obtain ⟨name', hname', rfl⟩ := Option.map_eq_some_iff.1 hd
  exact (hab (by simp [hname]) (by simp [hname']) htable).2

theorem unambiguous_of_consistent {version : Version} {rows : List ColumnRow}
    {parts : List IndexRow} (h : Consistent rows parts) {columns : List Column}
    (hread : List.Forall₂ (fun entry column => describe version parts entry = .ok column)
      (named rows) columns) : Unambiguous columns := by
  constructor
  · have hkeys : columns.map (fun column => (column.table, column.position)) =
        (named rows).map fun entry => (entry.1.table, entry.1.position) := by
      refine map_eq_of_forall₂ (hread.flip.imp fun column entry hcolumn => ?_)
      obtain ⟨htable, -, hposition, -⟩ := describe_ok hcolumn
      rw [htable, hposition]
    have hpairs : ((named rows).map fun entry => (entry.1.table, entry.1.position)).Pairwise
        fun a b => a.1 = b.1 → a.2 ≠ b.2 := List.pairwise_map.2 (pairwise_named h)
    rw [← hkeys] at hpairs
    exact List.pairwise_map.1 hpairs
  · have hsource : ∀ place ∈ places columns, ∃ part ∈ parts, part.table = place.table ∧
        part.index = place.membership.name ∧ place.membership.unique = !part.nonUnique := by
      intro place hplace
      obtain ⟨column, hcolumn, hplace⟩ := List.mem_flatMap.1 hplace
      obtain ⟨membership, hmembership, rfl⟩ := List.mem_map.1 hplace
      obtain ⟨entry, -, hentry⟩ := exists_left_of_mem hread hcolumn
      obtain ⟨htable, -, -, hmemberships⟩ := describe_ok hentry
      rw [hmemberships] at hmembership
      obtain ⟨part, hpart, rfl⟩ := List.mem_map.1 hmembership
      have := List.mem_filter.1 hpart
      simp only [Bool.and_eq_true, decide_eq_true_eq] at this
      exact ⟨part, this.1, this.2.1.trans htable.symm, rfl, rfl⟩
    intro a ha b hb htable hname
    obtain ⟨part, hpart, hparttable, hpartname, hunique⟩ := hsource a ha
    obtain ⟨part', hpart', hparttable', hpartname', hunique'⟩ := hsource b hb
    rw [hunique, hunique', h.unique part hpart part' hpart'
      (hparttable.trans (htable.trans hparttable'.symm))
      (hpartname.trans (hname.trans hpartname'.symm))]

theorem Consistent.perm {rows rows' : List ColumnRow} {parts parts' : List IndexRow}
    (h : Consistent rows parts) (hrows : rows.Perm rows') (hparts : parts.Perm parts') :
    Consistent rows' parts' := by
  refine ⟨(hrows.pairwise_iff ?_).1 h.columns, fun a ha b hb =>
    h.unique a (hparts.mem_iff.2 ha) b (hparts.mem_iff.2 hb)⟩
  intro a b hab hb ha htable
  exact (hab ha hb htable.symm).imp Ne.symm Ne.symm

/-- Consistent rows in another order are read as the same columns in another order. -/
theorem columnsOfRows_reordered (dialect : MySql) {rows rows' : List ColumnRow}
    {parts parts' : List IndexRow} (h : Consistent rows parts) (hrows : rows.Perm rows')
    (hparts : parts.Perm parts') {columns : List Column}
    (hread : columnsOfRows dialect rows parts = .ok columns) :
    Unambiguous columns ∧ ∃ columns', columnsOfRows dialect rows' parts' = .ok columns' ∧
      Reordered columns columns' := by
  rw [columnsOfRows_eq dialect h, mapM_eq_ok_iff] at hread
  refine ⟨unambiguous_of_consistent h hread, ?_⟩
  -- first the rows about columns in their other order, then the other index parts
  obtain ⟨between, hbetween, hperm⟩ := List.perm_comp_forall₂ (hrows.symm.filterMap _) hread
  obtain ⟨columns', hread', hagrees⟩ := forall₂_describe_perm hparts hbetween
  refine ⟨columns', ?_, (reordered_of_perm hperm.symm).trans (reordered_of_forall₂ hagrees)⟩
  rw [columnsOfRows_eq dialect (h.perm hrows hparts), mapM_eq_ok_iff]
  exact hread'

end SchemaPlan.MySql
