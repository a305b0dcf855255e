import SchemaPlan.Proofs.PlanOrder

/-!
# Keys and indexes as places

Catalogs tell of the key and the indexes of a table by the places that columns have in them. In
whatever order these places come, they give the key and the indexes again, and say which columns are
flagged as key columns and as unique alone.

* `Indexing`: the key and the indexes of a table; `Indexing.places`: the places in them.
* `Indexing.primaryKey_eq`, `Indexing.indexes_eq`: a live table with these places has this key and
  these indexes.
* `Indexing.any_primary`, `Indexing.any_unique`: what the memberships of a column say of its flags.
-/
namespace SchemaPlan

/-! ## Places in one index -/

/-- The places of the columns of an index, counted from one. -/
def Index.places (index : Index) (table : String) (primary : Bool) : List Place :=
  (index.columns.zipIdx 1).map fun (column, position) =>
    ⟨table, column, ⟨index.name, position, index.unique, primary⟩⟩

section
variable {index : Index} {table : String} {primary : Bool} {place : Place}

theorem Index.of_mem_places (h : place ∈ index.places table primary) :
    place.table = table ∧ place.column ∈ index.columns ∧ place.membership.name = index.name ∧
      place.membership.unique = index.unique ∧ place.membership.primary = primary := by
  obtain ⟨entry, hentry, rfl⟩ := List.mem_map.1 h
  exact ⟨rfl, List.fst_mem_of_mem_zipIdx hentry, rfl, rfl, rfl⟩

theorem Index.mem_columns_iff {column : String} :
    column ∈ index.columns ↔
      ∃ membership, Place.mk table column membership ∈ index.places table primary := by
  constructor
  · intro h
    obtain ⟨i, hi, rfl⟩ := List.mem_iff_getElem.1 h
    refine ⟨_, List.mem_map_of_mem (a := (index.columns[i], 1 + i)) ?_⟩
    simp [List.mk_mem_zipIdx_iff_le_and_getElem?_sub, hi]
  · rintro ⟨membership, h⟩
    exact (Index.of_mem_places h).2.1

theorem Index.length_places (index : Index) (table : String) (primary : Bool) :
    (index.places table primary).length = index.columns.length := by
  rw [Index.places, List.length_map, List.length_zipIdx]

end

/-- Columns that are sorted by their counts stand in their order. -/
theorem sort_counted {columns : List String} {found : List (Nat × String)}
    (h : found.Perm ((columns.zipIdx 1).map Prod.swap)) :
    (found.mergeSort keyPartBefore).map Prod.snd = columns := by
  have hsorted : ((columns.zipIdx 1).map Prod.swap).Pairwise fun a b => a.1 < b.1 := by
    rw [← List.pairwise_map (f := Prod.fst), List.map_map]
    exact List.zipIdx_map_snd 1 columns ▸ List.pairwise_lt_range'
  rw [@mergeSort_eq_of_perm _ _ Prod.fst keyPartBefore_trans keyPartBefore_total
    fst_le_of_keyPartBefore _ _ h hsorted, List.map_map]
  exact List.zipIdx_map_fst 1 columns

/-- The part of an index that a place in it makes up. -/
def partOf (place : Place) : Bool × Nat × String :=
  (place.membership.unique, place.membership.position, place.column)

theorem filter_indexParts (places : List Place) (name : String) :
    ((indexParts places).filter fun part => part.1 = name).map Prod.snd =
      ((places.filter fun place => !place.membership.primary).filter fun place =>
        place.membership.name = name).map partOf := by
  simp only [indexParts, List.filter_map, List.map_map, List.filter_filter, Function.comp_def]
  rfl

/-- The places in an index give it again. -/
theorem indexOfParts_places {columns : List String} {name : String} {index : Index}
    (hcovers : index.Covers columns name) {table : String} {found : List (Bool × Nat × String)}
    (h : found.Perm ((index.places table false).map partOf)) :
    found ≠ [] ∧ indexOfParts name found = index := by
  have hmap : (index.places table false).map partOf =
      (index.columns.zipIdx 1).map fun entry => (index.unique, entry.swap) := by
    rw [Index.places, List.map_map]
    rfl
  rw [hmap] at h
  have hunique : ∀ part ∈ found, part.1 = index.unique := by
    intro part hpart
    obtain ⟨entry, -, rfl⟩ := List.mem_map.1 (h.mem_iff.1 hpart)
    rfl
  have hcolumns : ((found.map Prod.snd).mergeSort keyPartBefore).map Prod.snd = index.columns := by
    have hcounted := h.map Prod.snd
    rw [List.map_map] at hcounted
    exact sort_counted hcounted
  have hne : found ≠ [] := by
    rintro rfl
    exact hcovers.columns_ne_nil (by simpa using hcolumns.symm)
  obtain ⟨first, rest, rfl⟩ := List.exists_cons_of_ne_nil hne
  refine ⟨hne, ?_⟩
  rw [indexOfParts, hcolumns, List.head?_cons, Option.any_some, hunique first List.mem_cons_self,
    ← hcovers.name_eq]

/-! ## Places in the key and the indexes of a table -/

/-- The key and the indexes of a table with some columns. -/
structure Indexing (columns : List String) where
  key : Index
  indexes : NameMap Index
  nodup_key : key.columns.Nodup
  key_subset : key.columns ⊆ columns
  key_apart : indexes.find? key.name = none
  covers : ∀ name index, indexes.find? name = some index → index.Covers columns name

namespace Indexing

variable {columns : List String}

/-- The key and the indexes, each with whether it is the key. -/
def all (indexing : Indexing columns) : List (Index × Bool) :=
  (indexing.key, true) :: indexing.indexes.values.map (·, false)

def places (indexing : Indexing columns) (table : String) : List Place :=
  indexing.all.flatMap fun entry => entry.1.places table entry.2

def memberships (indexing : Indexing columns) (column : String) : List Membership :=
  indexing.all.flatMap fun entry =>
    ((entry.1.columns.zipIdx 1).filter fun part => part.1 = column).map fun part =>
      ⟨entry.1.name, part.2, entry.1.unique, entry.2⟩

variable {indexing : Indexing columns} {table : String}

theorem named (indexing : Indexing columns) : Named indexing.indexes :=
  fun name index h => (indexing.covers name index h).name_eq

theorem mem_all {entry : Index × Bool} :
    entry ∈ indexing.all ↔ entry = (indexing.key, true) ∨
      indexing.indexes.find? entry.1.name = some entry.1 ∧ entry.2 = false := by
  obtain ⟨index, primary⟩ := entry
  simp only [all, List.mem_cons, List.mem_map, NameMap.mem_values, Prod.mk.injEq]
  refine or_congr_right ⟨?_, ?_⟩
  · rintro ⟨_, ⟨name, hindex⟩, rfl, rfl⟩
    obtain rfl := indexing.named name _ hindex
    exact ⟨hindex, rfl⟩
  · rintro ⟨hindex, rfl⟩
    exact ⟨index, ⟨_, hindex⟩, rfl, rfl⟩

theorem nodup_all (indexing : Indexing columns) :
    (indexing.all.map fun entry => entry.1.name).Nodup := by
  have hnames : indexing.all.map (fun entry => entry.1.name) =
      indexing.key.name :: indexing.indexes.names := by
    rw [all, List.map_cons, List.map_map, ← map_name_values indexing.named]
    rfl
  rw [hnames, List.nodup_cons, NameMap.mem_names, indexing.key_apart]
  exact ⟨by simp, NameMap.nodup_names _⟩

theorem columns_subset {entry : Index × Bool} (h : entry ∈ indexing.all) :
    entry.1.columns ⊆ columns := by
  rcases mem_all.1 h with rfl | ⟨hindex, -⟩
  · exact indexing.key_subset
  · exact (indexing.covers _ _ hindex).columns_subset

theorem nodup_index_columns {entry : Index × Bool} (h : entry ∈ indexing.all) :
    entry.1.columns.Nodup := by
  rcases mem_all.1 h with rfl | ⟨hindex, -⟩
  · exact indexing.nodup_key
  · exact (indexing.covers _ _ hindex).nodup_columns

theorem mem_places {place : Place} :
    place ∈ indexing.places table ↔
      ∃ entry ∈ indexing.all, place ∈ entry.1.places table entry.2 :=
  List.mem_flatMap

theorem of_mem_places {place : Place} (h : place ∈ indexing.places table) :
    place.table = table ∧ place.column ∈ columns := by
  obtain ⟨entry, hentry, hplace⟩ := mem_places.1 h
  obtain ⟨htable, hcolumn, -⟩ := Index.of_mem_places hplace
  exact ⟨htable, columns_subset hentry hcolumn⟩

theorem filter_places {entry : Index × Bool} (h : entry ∈ indexing.all) :
    (indexing.places table).filter (fun place => place.membership.name = entry.1.name) =
      entry.1.places table entry.2 :=
  filter_flatMap_eq (fun _ _ hplace => (Index.of_mem_places hplace).2.2.1) indexing.nodup_all h

theorem filter_primary (indexing : Indexing columns) (table : String) :
    (indexing.places table).filter (fun place => place.membership.primary) =
      indexing.key.places table true := by
  rw [places, all, List.flatMap_cons, List.filter_append, List.filter_eq_self.2,
    List.filter_eq_nil_iff.2, List.append_nil]
  · intro place hplace
    obtain ⟨entry, hentry, hplace⟩ := List.mem_flatMap.1 hplace
    obtain ⟨index, -, rfl⟩ := List.mem_map.1 hentry
    simp [(Index.of_mem_places hplace).2.2.2.2]
  · exact fun place hplace => (Index.of_mem_places hplace).2.2.2.2

theorem filter_secondary (indexing : Indexing columns) (table : String) :
    (indexing.places table).filter (fun place => !place.membership.primary) =
      indexing.indexes.values.flatMap fun index => index.places table false := by
  rw [places, all, List.flatMap_cons, List.filter_append, List.flatMap_map,
    List.filter_eq_nil_iff.2, List.nil_append, List.filter_eq_self.2]
  · intro place hplace
    obtain ⟨index, -, hplace⟩ := List.mem_flatMap.1 hplace
    simp [(Index.of_mem_places hplace).2.2.2.2]
  · intro place hplace
    simp [(Index.of_mem_places hplace).2.2.2.2]

/-! ## Memberships of a column -/

theorem map_memberships (indexing : Indexing columns) (table column : String) :
    (indexing.memberships column).map (Place.mk table column) =
      (indexing.places table).filter fun place => place.column = column := by
  rw [memberships, places, List.map_flatMap, List.filter_flatMap]
  refine List.flatMap_congr fun entry _ => ?_
  rw [Index.places, List.filter_map, List.map_map]
  refine List.map_congr_left fun part hpart => ?_
  obtain rfl : part.1 = column := by simpa using (List.mem_filter.1 hpart).2
  rfl

theorem mem_memberships {column : String} {membership : Membership} :
    membership ∈ indexing.memberships column ↔
      Place.mk table column membership ∈ indexing.places table := by
  have hinj : Function.Injective (Place.mk table column) := fun _ _ h => (Place.mk.inj h).2.2
  rw [← List.mem_map_of_injective hinj, map_memberships]
  simp

/-- The memberships of the columns are all the places. -/
theorem flatMap_memberships_perm (hnodup : columns.Nodup) (indexing : Indexing columns)
    (table : String) :
    (columns.flatMap fun name => (indexing.memberships name).map (Place.mk table name)).Perm
      (indexing.places table) := by
  simp only [map_memberships]
  exact flatMap_filter_perm Place.column hnodup fun place hplace => (of_mem_places hplace).2

theorem nodup_memberships (indexing : Indexing columns) (column : String) :
    (indexing.memberships column).Nodup := by
  refine List.nodup_flatMap.2 ⟨fun entry _ => ?_, ?_⟩
  · have hpositions : ((entry.1.columns.zipIdx 1).map Prod.snd).Nodup :=
      List.zipIdx_map_snd 1 entry.1.columns ▸ List.nodup_range'
    refine List.pairwise_map.2 ((List.pairwise_map.1 hpositions).filter _ |>.imp ?_)
    exact fun hne heq => hne (Membership.mk.inj heq).2.1
  · refine (List.pairwise_map.1 indexing.nodup_all).imp fun hne => ?_
    intro membership hleft hright
    obtain ⟨_, -, rfl⟩ := List.mem_map.1 hleft
    obtain ⟨_, -, heq⟩ := List.mem_map.1 hright
    exact hne (Membership.mk.inj heq).1.symm

theorem position_le {column : String} {membership : Membership}
    (h : membership ∈ indexing.memberships column) : membership.position ≤ columns.length := by
  obtain ⟨entry, hentry, hmembership⟩ := List.mem_flatMap.1 h
  obtain ⟨⟨name, position⟩, hpart, rfl⟩ := List.mem_map.1 hmembership
  have hlength := (List.subperm_of_subset (nodup_index_columns hentry) (columns_subset hentry)).length_le
  have hposition := List.snd_lt_add_of_mem_zipIdx (List.mem_filter.1 hpart).1
  dsimp only at hposition ⊢
  omega

/-! ## The table that the places make -/

theorem primaryKey_eq {live : LiveTable}
    (h : (SchemaPlan.places live.columns).Perm (indexing.places table)) :
    live.primaryKey = indexing.key.columns := by
  have hfound := (h.filter fun place => place.membership.primary).map fun place =>
    (place.membership.position, place.column)
  rw [filter_primary, Index.places, List.map_map] at hfound
  rw [primaryKey_eq_places]
  exact sort_counted hfound

theorem indexes_eq {live : LiveTable}
    (h : (SchemaPlan.places live.columns).Perm (indexing.places table)) :
    live.indexes = indexing.indexes := by
  refine NameMap.ext_find? fun name => ?_
  have hfound := ((h.filter fun place => !place.membership.primary).filter fun place =>
    place.membership.name = name).map partOf
  rw [filter_secondary] at hfound
  have htag : ∀ index : Index, ∀ place ∈ index.places table false,
      place.membership.name = index.name :=
    fun _ _ hplace => (Index.of_mem_places hplace).2.2.1
  rw [indexes_eq_places, NameMap.find?_mapValues, NameMap.find?_group, filter_indexParts]
  dsimp only
  cases hindex : indexing.indexes.find? name with
  | none =>
    have hname : name ∉ indexing.indexes.values.map (·.name) := by
      rw [map_name_values indexing.named, NameMap.mem_names, hindex]
      simp
    rw [filter_flatMap_eq_nil htag hname] at hfound
    rw [hfound.eq_nil]
    rfl
  | some index =>
    obtain rfl := indexing.named name index hindex
    have hnodup : (indexing.indexes.values.map (·.name)).Nodup :=
      map_name_values indexing.named ▸ NameMap.nodup_names _
    rw [filter_flatMap_eq htag hnodup (NameMap.mem_values.2 ⟨_, hindex⟩)] at hfound
    obtain ⟨hne, hsame⟩ := indexOfParts_places (indexing.covers _ index hindex) hfound
    rw [if_neg (by simpa using hne), Option.map_some, hsame]

/-! ## Flags -/

/-- A column has a membership with a property just if it is in an index with this property. -/
theorem exists_place_iff {column : String} {p : Membership → Bool} {q : Index × Bool → Bool}
    (hsame : ∀ entry ∈ indexing.all, ∀ membership,
      Place.mk table column membership ∈ entry.1.places table entry.2 → p membership = q entry) :
    (∃ membership, Place.mk table column membership ∈ indexing.places table ∧
      p membership = true) ↔
    ∃ entry ∈ indexing.all, column ∈ entry.1.columns ∧ q entry = true := by
  constructor
  · rintro ⟨membership, hplace, hp⟩
    obtain ⟨entry, hentry, hplace⟩ := mem_places.1 hplace
    exact ⟨entry, hentry, (Index.of_mem_places hplace).2.1, hsame entry hentry _ hplace ▸ hp⟩
  · rintro ⟨entry, hentry, hcolumn, hq⟩
    obtain ⟨membership, hplace⟩ :=
      (@Index.mem_columns_iff entry.1 table entry.2 column).1 hcolumn
    exact ⟨membership, mem_places.2 ⟨entry, hentry, hplace⟩,
      (hsame entry hentry _ hplace).trans hq⟩

section
variable {column : String} {memberships : List Membership}
  (hmemberships : ∀ membership, membership ∈ memberships ↔
    Place.mk table column membership ∈ indexing.places table)

include hmemberships

/-- A column is a key column if one of its memberships is in the key. -/
theorem any_primary : memberships.any (·.primary) = indexing.key.columns.contains column := by
  rw [Bool.eq_iff_iff, List.any_eq_true, List.contains_iff_mem]
  simp only [hmemberships]
  rw [exists_place_iff (q := Prod.snd) fun _ _ _ hplace => (Index.of_mem_places hplace).2.2.2.2]
  constructor
  · rintro ⟨entry, hentry, hcolumn, hprimary⟩
    rcases mem_all.1 hentry with rfl | ⟨-, hsecondary⟩
    · exact hcolumn
    · simp [hsecondary] at hprimary
  · exact fun h => ⟨_, mem_all.2 (.inl rfl), h, rfl⟩

/-- A column is unique alone if one of its memberships is the only place in a unique index. -/
theorem any_unique {all : List Place}
    (hall : (all.filter fun place => place.table = table).Perm (indexing.places table)) :
    (memberships.any fun membership => membership.unique && !membership.primary &&
        hasOnePlace all table membership.name) =
      (soleUniqueColumns indexing.indexes).contains column := by
  -- an index has as many places as columns
  have hone : ∀ entry ∈ indexing.all,
      hasOnePlace all table entry.1.name = (entry.1.columns.length == 1) := by
    intro entry hentry
    have hlength := (hall.filter fun place => place.membership.name = entry.1.name).length_eq
    rw [filter_places hentry, Index.length_places, List.filter_filter] at hlength
    rw [hasOnePlace, ← hlength]
    congr 2
    exact List.filter_congr fun place _ => Bool.and_comm _ _
  rw [Bool.eq_iff_iff, List.any_eq_true, List.contains_iff_mem]
  simp only [hmemberships]
  rw [exists_place_iff (q := fun entry =>
      entry.1.unique && !entry.2 && entry.1.columns.length == 1), mem_soleUniqueColumns]
  · constructor
    · rintro ⟨entry, hentry, hcolumn, hq⟩
      simp only [Bool.and_eq_true, Bool.not_eq_true', beq_iff_eq] at hq
      obtain ⟨⟨hunique, hsecondary⟩, hlength⟩ := hq
      obtain ⟨only, honly⟩ := List.length_eq_one_iff.1 hlength
      obtain rfl : column = only := by simpa [honly] using hcolumn
      rcases mem_all.1 hentry with rfl | ⟨hindex, -⟩
      · cases hsecondary
      · exact ⟨_, _, hindex, hunique, honly⟩
    · rintro ⟨name, index, hindex, hunique, honly⟩
      obtain rfl := indexing.named name index hindex
      exact ⟨(index, false), mem_all.2 (.inr ⟨hindex, rfl⟩), by simp [honly],
        by simp [hunique, honly]⟩
  · intro entry hentry membership hplace
    obtain ⟨-, -, hname, hunique, hprimary⟩ := Index.of_mem_places hplace
    dsimp only at hname hunique hprimary
    rw [hunique, hprimary, hname, hone entry hentry]

end

end Indexing

end SchemaPlan
