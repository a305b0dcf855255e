import SchemaPlan.Index
import SchemaPlan.Proofs.NameMap

/-!
# Declared and live indexes

What is known of the indexes that a declaration has: each stands under its own name, and its columns
are columns of the table. And what a live table is made of.

* `declared_index`: the indexes of a declaration.
* `find?_liveTables`: a live table has the columns that name it.
* `mem_soleUniqueColumns`: which columns a unique index has to itself.
* `mem_drop`, `mem_create`, `find?_create`: what `diffIndexes` drops and creates.
-/
namespace SchemaPlan

/-! ## Declared indexes -/

/-- An index all of whose columns are among some columns, each of them once. -/
structure Index.Covers (columns : List String) (name : String) (index : Index) : Prop where
  name_eq : index.name = name
  columns_ne_nil : index.columns ≠ []
  nodup_columns : index.columns.Nodup
  columns_subset : index.columns ⊆ columns

theorem covers_addUse {columns : List String} {use : IndexUse} (huse : use.column ∈ columns)
    {known : Option Index} (hknown : ∀ index, known = some index → index.Covers columns use.index) :
    (Index.addUse use known).Covers columns use.index := by
  cases known with
  | none => exact ⟨rfl, by simp [Index.addUse], by simp [Index.addUse], by simpa [Index.addUse]⟩
  | some index =>
    obtain ⟨hname, hne, hnodup, hsub⟩ := hknown index rfl
    by_cases hmem : use.column ∈ index.columns
    · exact ⟨hname, by simpa [Index.addUse, hmem], by simpa [Index.addUse, hmem],
        by simpa [Index.addUse, hmem]⟩
    · refine ⟨hname, by simp [Index.addUse, hmem], ?_, ?_⟩
      · simpa [Index.addUse, hmem, List.nodup_append] using
          ⟨hnodup, fun c hc he => hmem (he ▸ hc)⟩
      · simpa [Index.addUse, hmem] using
          List.append_subset.2 ⟨hsub, List.cons_subset.2 ⟨huse, List.nil_subset _⟩⟩

theorem covers_foldl_addUse {columns : List String} {name : String} (uses : List IndexUse)
    (huses : ∀ use ∈ uses, use.index = name ∧ use.column ∈ columns) (known : Option Index)
    (hknown : ∀ index, known = some index → index.Covers columns name) {index : Index}
    (h : uses.foldl (fun old use => some (Index.addUse use old)) known = some index) :
    index.Covers columns name := by
  induction uses generalizing known with
  | nil => exact hknown index h
  | cons use rest ih =>
    obtain ⟨rfl, hcolumn⟩ := huses use List.mem_cons_self
    refine ih (fun u hu => huses u (List.mem_cons_of_mem _ hu)) _ ?_ h
    rintro index ⟨⟩
    exact covers_addUse hcolumn hknown

theorem mem_indexUses {table : TableDecl} {use : IndexUse} (h : use ∈ table.indexUses) :
    use.column ∈ table.columnNames := by
  obtain ⟨field, hfield, h⟩ := List.mem_flatMap.1 h
  have : use.column = field.columnName := by
    unfold FieldDecl.indexUses at h
    dsimp only at h
    rcases List.mem_append.1 h with h | h
    · split at h
      · simp only [List.mem_singleton] at h
        rw [h]
      · cases h
    · split at h
      · simp only [List.mem_singleton] at h
        rw [h]
      · cases h
  exact this ▸ List.mem_map_of_mem hfield

theorem find?_indexes (table : TableDecl) (name : String) :
    table.indexes.find? name =
      (table.indexUses.filter fun use => use.index = name).foldl
        (fun old use => some (Index.addUse use old)) none :=
  NameMap.find?_foldl_alter table.indexUses IndexUse.index Index.addUse NameMap.empty name

/-- A declared index stands under its own name, has columns, and has each of them once, all of them
declared. -/
theorem declared_index {table : TableDecl} {name : String} {index : Index}
    (h : table.indexes.find? name = some index) : index.Covers table.columnNames name := by
  rw [find?_indexes] at h
  refine covers_foldl_addUse _ (fun use huse => ?_) none (fun _ hnone => nomatch hnone) h
  have := List.mem_filter.1 huse
  exact ⟨by simpa using this.2, mem_indexUses this.1⟩

/-! ## Live tables and their indexes -/

theorem find?_liveTables (columns : List Column) (name : String) :
    (liveTables columns).find? name =
      let found := columns.filter fun column => column.table = name
      if found.isEmpty then none
      else some ⟨name, found.mergeSort fun a b => a.position ≤ b.position⟩ := by
  have hfound : ((columns.map fun column => (column.table, column)).filter
      fun x => x.1 = name).map Prod.snd = columns.filter fun column => column.table = name := by
    rw [List.filter_map, List.map_map]
    exact List.map_id _
  rw [liveTables, NameMap.find?_mapValues, NameMap.find?_group, hfound]
  dsimp only
  split <;> rfl

theorem exists_find?_liveTables {columns : List Column} {name : String} :
    (∃ live, (liveTables columns).find? name = some live) ↔ name ∈ columns.map (·.table) := by
  rw [find?_liveTables, List.mem_map]
  dsimp only
  split
  · rename_i hnone
    simpa using hnone
  · rename_i hsome
    simpa using hsome

theorem live_table {columns : List Column} {name : String} {live : LiveTable}
    (h : (liveTables columns).find? name = some live) :
    live.name = name ∧ live.columns ≠ [] ∧
      live.columns.Perm (columns.filter fun column => column.table = name) := by
  rw [find?_liveTables] at h
  dsimp only at h
  split at h
  · cases h
  · rename_i hne
    obtain rfl := Option.some.inj h
    have hperm := List.mergeSort_perm (columns.filter fun column => column.table = name)
      fun a b => a.position ≤ b.position
    refine ⟨rfl, ?_, hperm⟩
    intro hnil
    dsimp only at hnil
    rw [hnil] at hperm
    exact hne (List.isEmpty_iff.2 hperm.nil_eq.symm)

theorem nodup_live_columns {columns : List Column} {name : String} {live : LiveTable}
    (h : (liveTables columns).find? name = some live)
    (hnodup : (columns.map fun column => (column.table, column.name)).Nodup) :
    (live.columns.map (·.name)).Nodup := by
  obtain ⟨-, -, hperm⟩ := live_table h
  rw [(hperm.map _).nodup_iff, List.nodup_iff_pairwise_ne, List.pairwise_map]
  refine ((List.pairwise_map.1 hnodup).filter _).imp_of_mem fun {a b} ha hb hab heq => ?_
  have hta : a.table = name := by simpa using (List.mem_filter.1 ha).2
  have htb : b.table = name := by simpa using (List.mem_filter.1 hb).2
  exact hab (by rw [hta, htb, heq])

theorem column?_eq_some {live : LiveTable} {name : String} {column : Column}
    (h : live.column? name = some column) : column ∈ live.columns ∧ column.name = name :=
  ⟨List.mem_of_find?_eq_some h, by simpa using List.find?_some h⟩

theorem column?_eq_none {live : LiveTable} {name : String} :
    live.column? name = none ↔ name ∉ live.columns.map (·.name) := by
  simp only [LiveTable.column?, List.find?_eq_none, decide_eq_true_eq, List.mem_map, not_exists,
    not_and]

/-- The columns that a unique index has to itself. -/
theorem mem_soleUniqueColumns {indexes : NameMap Index} {column : String} :
    column ∈ soleUniqueColumns indexes ↔
      ∃ name index, indexes.find? name = some index ∧ index.unique = true ∧
        index.columns = [column] := by
  simp only [soleUniqueColumns, NameMap.mem_sortNames, List.mem_flatMap, List.mem_filter,
    NameMap.mem_values, Bool.and_eq_true, beq_iff_eq]
  constructor
  · rintro ⟨index, ⟨⟨name, hindex⟩, hunique, hlength⟩, hcolumn⟩
    obtain ⟨only, honly⟩ := List.length_eq_one_iff.1 hlength
    rw [honly, List.mem_singleton] at hcolumn
    exact ⟨name, index, hindex, hunique, by rw [honly, hcolumn]⟩
  · rintro ⟨name, index, hindex, hunique, honly⟩
    exact ⟨index, ⟨⟨name, hindex⟩, hunique, by rw [honly]; rfl⟩, by simp [honly]⟩

/-! ## Changes of indexes -/

theorem mem_drop {wanted present : NameMap Index} {name : String} :
    name ∈ (diffIndexes wanted present).drop ↔
      ∃ index, present.find? name = some index ∧ wanted.find? name ≠ some index := by
  simp only [diffIndexes, NameMap.mem_names, NameMap.find?_filter, Option.filter_eq_some_iff,
    bne_iff_ne]

theorem mem_create {wanted present : NameMap Index} {index : Index} :
    index ∈ (diffIndexes wanted present).create ↔
      ∃ name, wanted.find? name = some index ∧ present.find? name ≠ some index := by
  simp only [diffIndexes, NameMap.mem_values, NameMap.find?_filter, Option.filter_eq_some_iff,
    bne_iff_ne]

/-- Whether every index of a map stands under its own name. -/
def Named (indexes : NameMap Index) : Prop :=
  ∀ name index, indexes.find? name = some index → index.name = name

theorem named_indexes (table : TableDecl) : Named table.indexes := fun _ _ h =>
  (declared_index h).name_eq

theorem map_name_values {indexes : NameMap Index} (h : Named indexes) :
    indexes.values.map (·.name) = indexes.names := by
  simp only [NameMap.values, NameMap.names, List.map_map]
  exact List.map_congr_left fun entry hentry => h _ _ (NameMap.mem_entries.1 hentry)

theorem filter_values {indexes : NameMap Index} (h : Named indexes) (name : String) :
    indexes.values.filter (fun index => index.name = name) = (indexes.find? name).toList := by
  rw [NameMap.find?, ← NameMap.filter_eq_findIn indexes.nodup_names, NameMap.values,
    List.filter_map]
  congr 1
  refine List.filter_congr fun entry hentry => ?_
  rw [Function.comp_apply, h _ _ (NameMap.mem_entries.1 hentry)]

theorem nodup_create {wanted : NameMap Index} (present : NameMap Index) (h : Named wanted) :
    ((diffIndexes wanted present).create.map (·.name)).Nodup := by
  rw [diffIndexes, map_name_values]
  · exact NameMap.nodup_names _
  · intro name index hindex
    rw [NameMap.find?_filter, Option.filter_eq_some_iff] at hindex
    exact h name index hindex.1

theorem find?_create {wanted : NameMap Index} (present : NameMap Index) (h : Named wanted)
    (name : String) :
    ((diffIndexes wanted present).create.find? fun index => index.name = name) =
      (wanted.find? name).filter fun index => present.find? name != some index := by
  ext index
  rw [Option.filter_eq_some_iff, bne_iff_ne]
  constructor
  · intro hfind
    obtain ⟨other, hwanted, hpresent⟩ := mem_create.1 (List.mem_of_find?_eq_some hfind)
    have hname : index.name = name := by simpa using List.find?_some hfind
    obtain rfl : other = name := (h other index hwanted).symm.trans hname
    exact ⟨hwanted, hpresent⟩
  · rintro ⟨hwanted, hpresent⟩
    have hmem := mem_create.2 ⟨name, hwanted, hpresent⟩
    cases hfind : (diffIndexes wanted present).create.find? fun index => index.name = name with
    | none =>
      have := List.find?_eq_none.1 hfind index hmem
      simp [h name index hwanted] at this
    | some found =>
      obtain ⟨other, hfound, -⟩ := mem_create.1 (List.mem_of_find?_eq_some hfind)
      have hname : found.name = name := by simpa using List.find?_some hfind
      obtain rfl : other = name := (h other found hfound).symm.trans hname
      rw [hwanted] at hfound
      exact hfound.symm

end SchemaPlan
