import SchemaPlan.Proofs.Index

/-!
# Changes of indexes

What is dropped and created leads from the present indexes to the wanted ones. An index that is
wanted as it is present stays, and changes with the same effect cannot leave out any of these:
an index keeps its definition until it is dropped, and its name until then.

* `IndexChanges.result?`: the indexes behind a set of changes, if no name is given twice.
* `find?_createIndexes?`: what it takes to create several indexes, and what is found then.
* `result?_diffIndexes`: the changes have the wanted indexes as their result.
* `diffIndexes_least`: they are in name order, and part of all others with this result.
-/
namespace SchemaPlan

/-! ## Dropping and creating -/

def NameMap.eraseAll {α : Type} (map : NameMap α) (names : List String) : NameMap α :=
  names.foldl NameMap.erase map

def createIndex? (indexes : NameMap Index) (index : Index) : Option (NameMap Index) :=
  if indexes.contains index.name then none else some (indexes.insert index.name index)

def createIndexes? (indexes : NameMap Index) (created : List Index) : Option (NameMap Index) :=
  created.foldlM createIndex? indexes

/-- The indexes behind the changes: all drops come first, and an index is only created under a name
that is free. -/
def IndexChanges.result? (changes : IndexChanges) (present : NameMap Index) :
    Option (NameMap Index) :=
  createIndexes? (present.eraseAll changes.drop) changes.create

theorem NameMap.find?_eraseAll {α : Type} (map : NameMap α) (names : List String) (name : String) :
    (map.eraseAll names).find? name = if name ∈ names then none else map.find? name := by
  induction names generalizing map with
  | nil => simp [eraseAll]
  | cons first rest ih =>
    have hrest := ih (map.erase first)
    unfold eraseAll at hrest ⊢
    rw [List.foldl_cons, hrest, find?_erase]
    by_cases hfirst : name = first <;> simp [hfirst]

theorem createIndex?_of_taken {indexes : NameMap Index} {index other : Index}
    (h : indexes.find? index.name = some other) : createIndex? indexes index = none := by
  unfold createIndex?
  rw [if_pos (NameMap.contains_eq_true.2 ⟨other, h⟩)]

theorem createIndex?_of_free {indexes : NameMap Index} {index : Index}
    (h : indexes.find? index.name = none) :
    createIndex? indexes index = some (indexes.insert index.name index) := by
  unfold createIndex?
  rw [if_neg (by simp [NameMap.contains, h])]

section
variable {indexes result : NameMap Index} {created : List Index}

theorem createIndexes?_cons (index : Index) (rest : List Index)
    (hfree : indexes.find? index.name = none) :
    createIndexes? indexes (index :: rest) =
      createIndexes? (indexes.insert index.name index) rest := by
  simp [createIndexes?, createIndex?_of_free hfree]

theorem exists_createIndexes? (hnodup : (created.map (·.name)).Nodup)
    (hfree : ∀ index ∈ created, indexes.find? index.name = none) :
    ∃ result, createIndexes? indexes created = some result := by
  induction created generalizing indexes with
  | nil => exact ⟨indexes, rfl⟩
  | cons index rest ih =>
    obtain ⟨hindex, hrest⟩ := List.forall_mem_cons.1 hfree
    obtain ⟨hnew, hnodup⟩ := List.nodup_cons.1 hnodup
    rw [createIndexes?_cons index rest hindex]
    apply ih hnodup
    intro other hother
    have hne : index.name ≠ other.name := by
      intro heq
      exact hnew (List.mem_map.2 ⟨other, hother, heq.symm⟩)
    rw [NameMap.find?_insert, if_neg hne, hrest other hother]

/-- Indexes are only created under names that are free, and all of them are found then. -/
theorem find?_createIndexes? (h : createIndexes? indexes created = some result) :
    (∀ index ∈ created, indexes.find? index.name = none) ∧
      ∀ name, result.find? name =
        (created.find? fun index => index.name = name).or (indexes.find? name) := by
  induction created generalizing indexes with
  | nil =>
    obtain rfl := Option.some.inj h
    simp
  | cons index rest ih =>
    cases hindex : indexes.find? index.name with
    | some other => simp [createIndexes?, createIndex?_of_taken hindex] at h
    | none =>
      rw [createIndexes?_cons index rest hindex] at h
      obtain ⟨hfree, hresult⟩ := ih h
      have hothers : ∀ other ∈ rest,
          index.name ≠ other.name ∧ indexes.find? other.name = none := by
        intro other hother
        have hnone := hfree other hother
        rw [NameMap.find?_insert] at hnone
        split at hnone
        · cases hnone
        · rename_i hne
          exact ⟨hne, hnone⟩
      refine ⟨List.forall_mem_cons.2 ⟨hindex, fun other hother => (hothers other hother).2⟩, ?_⟩
      intro name
      rw [hresult name, NameMap.find?_insert, List.find?_cons]
      by_cases hname : index.name = name
      · have hrest : rest.find? (fun other => other.name = name) = none := by
          rw [List.find?_eq_none]
          intro other hother heq
          exact (hothers other hother).1 (hname.trans (of_decide_eq_true heq).symm)
        simp [hname, hrest]
      · simp [hname]

end

/-! ## The changes from one set of indexes to another -/

variable {wanted present : NameMap Index}

/-- A present index that is dropped or stays: it stays if it is wanted. -/
theorem find?_eraseAll_drop (name : String) :
    (present.eraseAll (diffIndexes wanted present).drop).find? name =
      (present.find? name).filter fun index => wanted.find? name = some index := by
  rw [NameMap.find?_eraseAll]
  simp only [mem_drop]
  cases hpresent : present.find? name with
  | none => simp
  | some index =>
    by_cases hwanted : wanted.find? name = some index <;> simp [Option.filter_some, hwanted]

/-- The changes lead to the wanted indexes. -/
theorem result?_diffIndexes (hwanted : Named wanted) :
    (diffIndexes wanted present).result? present = some wanted := by
  have hfree : ∀ index ∈ (diffIndexes wanted present).create,
      (present.eraseAll (diffIndexes wanted present).drop).find? index.name = none := by
    intro index hindex
    obtain ⟨name, hname, hpresent⟩ := mem_create.1 hindex
    rw [hwanted name index hname, find?_eraseAll_drop, Option.filter_eq_none_iff]
    intro other hother heq
    have hsame : index = other := by simpa [hname] using heq
    exact hpresent (hsame ▸ hother)
  obtain ⟨result, hresult⟩ := exists_createIndexes? (nodup_create present hwanted) hfree
  have hfind := (find?_createIndexes? hresult).2
  have heq : result = wanted := by
    apply NameMap.ext_find?
    intro name
    rw [hfind name, find?_create present hwanted, find?_eraseAll_drop]
    cases hname : wanted.find? name with
    | none => simp
    | some index =>
      by_cases hpresent : present.find? name = some index
      · simp [hpresent]
      · simp [Option.filter_some, hpresent]
  unfold IndexChanges.result?
  rw [hresult, heq]

/-- Other changes that lead to the wanted indexes drop and create at least the same. -/
theorem subset_of_result? {other : IndexChanges} (h : other.result? present = some wanted) :
    (diffIndexes wanted present).drop ⊆ other.drop ∧
      (diffIndexes wanted present).create ⊆ other.create := by
  obtain ⟨hfree, hfind⟩ := find?_createIndexes? h
  have hkept : ∀ name, name ∉ other.drop →
      (present.eraseAll other.drop).find? name = present.find? name := by
    intro name hname
    rw [NameMap.find?_eraseAll, if_neg hname]
  constructor
  · intro name hname
    obtain ⟨index, hpresent, hwanted⟩ := mem_drop.1 hname
    by_contra hstays
    have hthere := (hkept name hstays).trans hpresent
    -- nothing can be created under the name of an index that stays
    have hnone : other.create.find? (fun created => created.name = name) = none := by
      rw [List.find?_eq_none]
      intro created hcreated heq
      have htaken := hfree created hcreated
      rw [of_decide_eq_true heq, hthere] at htaken
      cases htaken
    apply hwanted
    rw [hfind name, hnone, hthere]
    rfl
  · intro index hindex
    obtain ⟨name, hwanted, hpresent⟩ := mem_create.1 hindex
    have hfound := (hfind name).symm.trans hwanted
    rcases Option.or_eq_some_iff.1 hfound with hcreated | ⟨-, hthere⟩
    · exact List.mem_of_find?_eq_some hcreated
    · rw [NameMap.find?_eraseAll] at hthere
      split at hthere
      · cases hthere
      · exact absurd hthere hpresent

/-- The changes come in the order of names, drop present and create wanted indexes, lead from the
present indexes to the wanted ones, and are part of all other changes that do. -/
theorem diffIndexes_least (hwanted : Named wanted) :
    (diffIndexes wanted present).drop.Pairwise (· < ·) ∧
      ((diffIndexes wanted present).create.map (·.name)).Pairwise (· < ·) ∧
      (diffIndexes wanted present).drop ⊆ present.names ∧
      (diffIndexes wanted present).create ⊆ wanted.values ∧
      (diffIndexes wanted present).result? present = some wanted ∧
      ∀ other : IndexChanges, other.result? present = some wanted →
        (diffIndexes wanted present).drop ⊆ other.drop ∧
          (diffIndexes wanted present).create ⊆ other.create := by
  have hcreated : Named (wanted.filter fun name index => present.find? name != some index) := by
    intro name index hindex
    rw [NameMap.find?_filter, Option.filter_eq_some_iff] at hindex
    exact hwanted name index hindex.1
  refine ⟨NameMap.pairwise_names _, ?_, ?_, ?_, result?_diffIndexes hwanted,
    fun other hother => subset_of_result? hother⟩
  · unfold diffIndexes
    rw [map_name_values hcreated]
    exact NameMap.pairwise_names _
  · intro name hname
    obtain ⟨index, hpresent, -⟩ := mem_drop.1 hname
    exact NameMap.mem_names.2 ⟨index, hpresent⟩
  · intro index hindex
    obtain ⟨name, hname, -⟩ := mem_create.1 hindex
    exact NameMap.mem_values.2 ⟨name, hname⟩

/-- An index that is reordered, one that is dropped, one that is new and one that stays. -/
theorem diffIndexes_least_mixed :
    let wanted := NameMap.ofList [("a", ⟨"a", ["y", "x"], false⟩), ("c", ⟨"c", ["x"], true⟩),
      ("d", ⟨"d", ["y"], false⟩)]
    let present := NameMap.ofList [("a", ⟨"a", ["x", "y"], false⟩), ("b", ⟨"b", ["x"], false⟩),
      ("d", ⟨"d", ["y"], false⟩)]
    let other : IndexChanges := ⟨["d", "b", "a"],
      [⟨"d", ["y"], false⟩, ⟨"c", ["x"], true⟩, ⟨"a", ["y", "x"], false⟩]⟩
    Named wanted ∧ other.result? present = some wanted ∧
      diffIndexes wanted present =
        ⟨["a", "b"], [⟨"a", ["y", "x"], false⟩, ⟨"c", ["x"], true⟩]⟩ ∧
      (diffIndexes wanted present).drop ⊆ other.drop ∧
      (diffIndexes wanted present).create ⊆ other.create := by
  intro wanted present other
  have hnamed : Named wanted := by
    intro name index hindex
    have hentry := NameMap.mem_of_find?_ofList hindex
    simp at hentry
    rcases hentry with ⟨rfl, rfl⟩ | ⟨rfl, rfl⟩ | ⟨rfl, rfl⟩ <;> rfl
  have hother : other.result? present = some wanted := by rfl
  obtain ⟨-, -, -, -, -, hleast⟩ := @diffIndexes_least wanted present hnamed
  exact ⟨hnamed, hother, by decide +kernel, hleast other hother⟩

end SchemaPlan
