import SchemaPlan.Proofs.Index
import SchemaPlan.Proofs.WellFormed

/-!
# The indexes of an accepted table

The indexes of a table are gathered use by use, and validation walks through the same uses to see
that they agree. Both come to what the uses of each name say: an index has the columns of its uses,
in declaration order and each once, and it is unique if they ask for that.

* `Index.ofUses`: the index that some uses make.
* `find?_indexes_usesOf`: the indexes of any table, from the uses of each name.
* `declared_indexes`: those of an accepted table, and the columns that a unique one has to itself.
-/
namespace SchemaPlan

/-- The index that some uses of a name make. -/
def Index.ofUses (name : String) (uses : List (String × Bool)) : Index where
  name := name
  columns := (uses.map Prod.fst).eraseDups
  unique := uses.any Prod.snd

theorem eraseDups_concat (columns : List String) (column : String) :
    (columns ++ [column]).eraseDups =
      if column ∈ columns then columns.eraseDups else columns.eraseDups ++ [column] := by
  rw [List.eraseDups_append]
  by_cases hmem : column ∈ columns <;> simp [List.removeAll, hmem, List.eraseDups_cons]

theorem eraseDups_eq_singleton_iff {columns : List String} {column : String} :
    columns.eraseDups = [column] ↔ columns ≠ [] ∧ ∀ other ∈ columns, other = column := by
  constructor
  · intro h
    refine ⟨?_, ?_⟩
    · rintro rfl
      cases h
    · intro other hother
      rw [← List.mem_eraseDups, h] at hother
      simpa using hother
  · intro ⟨hne, hall⟩
    obtain ⟨first, rest, rfl⟩ := List.exists_cons_of_ne_nil hne
    obtain ⟨rfl, hrest⟩ := List.forall_mem_cons.1 hall
    have hnone : rest.filter (fun other => !other == first) = [] := by
      rw [List.filter_eq_nil_iff]
      intro other hother
      simp [hrest other hother]
    rw [List.eraseDups_cons, hnone]
    rfl

theorem addUse_none (use : IndexUse) :
    Index.addUse use none = .ofUses use.index [(use.column, use.unique)] := by
  simp [Index.addUse, Index.ofUses, List.eraseDups_cons]

theorem addUse_ofUses (use : IndexUse) (uses : List (String × Bool)) :
    Index.addUse use (some (.ofUses use.index uses)) =
      .ofUses use.index (uses ++ [(use.column, use.unique)]) := by
  unfold Index.addUse Index.ofUses
  simp [eraseDups_concat, List.mem_eraseDups]

/-- What is known of an index is what the uses so far make. -/
theorem foldl_addUse {name : String} {uses : List IndexUse} (h : ∀ use ∈ uses, use.index = name)
    (before : List (String × Bool)) :
    uses.foldl (fun known use => some (Index.addUse use known)) (some (.ofUses name before)) =
      some (.ofUses name (before ++ uses.map fun use => (use.column, use.unique))) := by
  induction uses generalizing before with
  | nil => simp
  | cons use rest ih =>
    obtain ⟨rfl, hrest⟩ := List.forall_mem_cons.1 h
    rw [List.foldl_cons, addUse_ofUses, ih hrest]
    simp

/-- A table has an index of each name that its fields use, and it is the one that the uses make. -/
theorem find?_indexes_usesOf (table : TableDecl) (name : String) :
    table.indexes.find? name =
      if table.usesOf name = [] then none else some (.ofUses name (table.usesOf name)) := by
  rw [find?_indexes, TableDecl.usesOf_eq]
  have hnamed : ∀ use ∈ table.indexUses.filter fun use => use.index = name, use.index = name := by
    intro use huse
    simpa using (List.mem_filter.1 huse).2
  cases huses : table.indexUses.filter fun use => use.index = name with
  | nil => rfl
  | cons use rest =>
    rw [huses] at hnamed
    obtain ⟨rfl, hrest⟩ := List.forall_mem_cons.1 hnamed
    rw [List.foldl_cons, addUse_none, foldl_addUse hrest]
    simp

theorem TableDecl.UsesAgree.unique_eq {table : TableDecl} (h : table.UsesAgree) {name : String}
    {use : String × Bool} (huse : use ∈ table.usesOf name) :
    use.2 = (Index.ofUses name (table.usesOf name)).unique := by
  unfold Index.ofUses
  dsimp only
  symm
  cases hunique : use.2 with
  | true => exact List.any_eq_true.2 ⟨use, huse, hunique⟩
  | false =>
    rw [List.any_eq_false]
    intro other hother
    rw [← h name use huse other hother, hunique]
    exact Bool.false_ne_true

/-- If its uses agree, a unique index has one column if all of its uses are unique ones of it. -/
theorem TableDecl.UsesAgree.mem_soleUniqueColumns_iff {table : TableDecl} (h : table.UsesAgree)
    {column : String} :
    column ∈ soleUniqueColumns table.indexes ↔
      ∃ name, table.usesOf name ≠ [] ∧ ∀ use ∈ table.usesOf name, use = (column, true) := by
  rw [mem_soleUniqueColumns]
  simp only [find?_indexes_usesOf]
  constructor
  · rintro ⟨name, index, hindex, hunique, hcolumns⟩
    split at hindex
    · cases hindex
    · rename_i hne
      obtain rfl := Option.some.inj hindex
      refine ⟨name, hne, ?_⟩
      intro use huse
      have hall := (eraseDups_eq_singleton_iff.1 hcolumns).2 use.1 (List.mem_map_of_mem huse)
      exact Prod.ext hall ((h.unique_eq huse).trans hunique)
  · intro ⟨name, hne, hall⟩
    obtain ⟨use, huse⟩ := List.exists_mem_of_ne_nil _ hne
    refine ⟨name, _, if_neg hne, ?_, eraseDups_eq_singleton_iff.2 ⟨by simpa using hne, ?_⟩⟩
    · rw [← h.unique_eq huse, hall use huse]
    · intro other hother
      obtain ⟨use, huse, rfl⟩ := List.mem_map.1 hother
      rw [hall use huse]

/-- An accepted table has an index of each name that its fields use, with the columns of these uses
and as unique as each of them; and a unique index has a column to itself if all uses of some name
are unique ones of it. -/
theorem declared_indexes {dialect : Dialect} {tables : List TableDecl} {table : TableDecl}
    (hvalid : validate dialect tables = .ok ()) (htable : table ∈ tables) :
    (∀ name, (∃ index, table.indexes.find? name = some index) ↔ table.usesOf name ≠ []) ∧
      (∀ name index, table.indexes.find? name = some index →
        index.name = name ∧ index.columns = ((table.usesOf name).map Prod.fst).eraseDups ∧
          index.columns ⊆ table.columnNames ∧ ∀ use ∈ table.usesOf name, use.2 = index.unique) ∧
      ∀ column, column ∈ soleUniqueColumns table.indexes ↔
        ∃ name, table.usesOf name ≠ [] ∧ ∀ use ∈ table.usesOf name, use = (column, true) := by
  have hagree : table.UsesAgree := uses_ok_iff.1 ((validate_ok hvalid).2 table htable).uses_ok
  refine ⟨?_, ?_, fun column => hagree.mem_soleUniqueColumns_iff⟩
  · intro name
    rw [find?_indexes_usesOf]
    by_cases huses : table.usesOf name = [] <;> simp [huses]
  · intro name index hindex
    have hcovers := declared_index hindex
    rw [find?_indexes_usesOf] at hindex
    split at hindex
    · cases hindex
    · obtain rfl := Option.some.inj hindex
      exact ⟨rfl, rfl, hcovers.columns_subset, fun use huse => hagree.unique_eq huse⟩

/-- An index with a default name that one field uses twice and another one by that name, beside one
of a single column. -/
theorem declared_indexes_users :
    let users : TableDecl := { name := "users", fields := [
      { name := "code", type := "i64", unique := true, index := some { unique := true } },
      { name := "email", type := "String", unique := true },
      { name := "label", type := "String", index := some ⟨some "users_code", true⟩ }] }
    validate (.mysql {}) [users] = .ok () ∧
      users.usesOf "users_code" = [("code", true), ("code", true), ("label", true)] ∧
      (∃ index, users.indexes.find? "users_code" = some index ∧
        index.columns = ["code", "label"] ∧ index.unique = true) ∧
      "email" ∈ soleUniqueColumns users.indexes := by
  intro users
  have hvalid : validate (.mysql {}) [users] = .ok () := eq_ok_of_toOption (by decide +kernel)
  have huses : users.usesOf "users_code" = [("code", true), ("code", true), ("label", true)] := by
    decide +kernel
  have hemail : users.usesOf "users_email" = [("email", true)] := by decide +kernel
  obtain ⟨hkeys, hindexes, hsole⟩ := declared_indexes hvalid List.mem_cons_self
  obtain ⟨index, hindex⟩ := (hkeys "users_code").2 (by simp [huses])
  obtain ⟨-, hcolumns, -, hunique⟩ := hindexes "users_code" index hindex
  refine ⟨hvalid, huses, ⟨index, hindex, ?_, ?_⟩, (hsole "email").2 ⟨"users_email", ?_, ?_⟩⟩
  · rw [hcolumns, huses]
    decide
  · exact (hunique ("code", true) (by simp [huses])).symm
  · simp [hemail]
  · simp [hemail]

end SchemaPlan
