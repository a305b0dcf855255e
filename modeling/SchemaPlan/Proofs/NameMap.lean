import Mathlib.Data.List.Nodup
import Mathlib.Data.List.Sort
import SchemaPlan.NameMap

/-!
# The theory of maps keyed by name

What each operation of a map does to its look-ups. A map is its look-ups (`ext_find?`), so nothing
else has to be known of one.

* `find?_filter`, `find?_mapValues`, `find?_erase`, `find?_ofFirst`, `find?_group`: the look-ups of
  the maps that these operations build.
* `mem_names`, `mem_values`: names and values are those of the entries.
* `mem_sortNames`: sorting keeps the names.
* `ofList_congr`: entries that agree with each other give the same map in any order and number.
-/
namespace SchemaPlan.NameMap

variable {α β : Type}

def erase (map : NameMap α) (name : String) : NameMap α :=
  map.filter fun other _ => other != name

/-- The map of a list of entries; of several with one name the first counts. -/
def ofFirst (entries : List (String × α)) : NameMap α :=
  entries.foldr (fun entry map => map.insert entry.1 entry.2) empty

/-! ## Entries and look-ups -/

theorem findIn_eq_some_of_mem {l : List (String × α)} {e : String × α} (he : e ∈ l)
    (hl : (l.map Prod.fst).Nodup) : findIn e.1 l = some e.2 := by
  induction l with
  | nil => cases he
  | cons head rest ih =>
    obtain ⟨key, value⟩ := head
    rw [List.map_cons, List.nodup_cons] at hl
    rcases List.mem_cons.1 he with rfl | he
    · simp [findIn]
    · have : ¬ key = e.1 := fun h => hl.1 (List.mem_map.2 ⟨e, he, h.symm⟩)
      simp only [findIn, this, if_false]
      exact ih he hl.2

theorem mem_of_findIn_eq_some {l : List (String × α)} {name : String} {value : α}
    (h : findIn name l = some value) : (name, value) ∈ l := by
  induction l with
  | nil => cases h
  | cons head rest ih =>
    obtain ⟨key, v⟩ := head
    simp only [findIn] at h
    split at h
    · rename_i hk
      simp only [Option.some.injEq] at h
      simp [hk, h]
    · exact List.mem_cons_of_mem _ (ih h)

theorem findIn_cons_of_eq {e : String × α} {name : String} (h : e.1 = name)
    {l : List (String × α)} : findIn name (e :: l) = some e.2 :=
  if_pos h

theorem findIn_cons_of_ne {e : String × α} {name : String} (h : ¬ e.1 = name)
    {l : List (String × α)} : findIn name (e :: l) = findIn name l :=
  if_neg h

/-- The entries under a name, of which there is at most one. -/
theorem filter_eq_findIn {l : List (String × α)} (hl : (l.map Prod.fst).Nodup) (name : String) :
    (l.filter fun e => e.1 = name).map Prod.snd = (findIn name l).toList := by
  induction l with
  | nil => rfl
  | cons e rest ih =>
    rw [List.map_cons, List.nodup_cons] at hl
    by_cases he : e.1 = name
    · have hrest : rest.filter (fun x => x.1 = name) = [] := by
        rw [List.filter_eq_nil_iff]
        intro x hx hname
        exact hl.1 (List.mem_map.2 ⟨x, hx, by simpa [he] using hname⟩)
      rw [List.filter_cons_of_pos (by simpa using he), hrest, findIn_cons_of_eq he]
      rfl
    · rw [List.filter_cons_of_neg (by simpa using he), findIn_cons_of_ne he, ih hl.2]

theorem findIn_eq_none_iff {l : List (String × α)} {name : String} :
    findIn name l = none ↔ name ∉ l.map Prod.fst := by
  induction l with
  | nil => simp [findIn]
  | cons head rest ih =>
    obtain ⟨key, value⟩ := head
    by_cases hk : key = name
    · simp [findIn, hk]
    · have : ¬ name = key := fun h => hk h.symm
      simp [findIn, hk, ih, this]

theorem findIn_eq_of_perm {a b : List (String × α)} {name : String} (h : a.Perm b)
    (hnodup : (a.map Prod.fst).Nodup) : findIn name a = findIn name b := by
  ext value
  constructor
  · intro hfind
    exact findIn_eq_some_of_mem (h.mem_iff.1 (mem_of_findIn_eq_some hfind))
      ((h.map _).nodup_iff.1 hnodup)
  · intro hfind
    exact findIn_eq_some_of_mem (h.mem_iff.2 (mem_of_findIn_eq_some hfind)) hnodup

theorem pairwise_names (map : NameMap α) : map.names.Pairwise (· < ·) :=
  List.pairwise_map.2 map.ordered

theorem nodup_names (map : NameMap α) : map.names.Nodup :=
  map.pairwise_names.imp String.ne_of_lt

theorem mem_entries {map : NameMap α} {name : String} {value : α} :
    (name, value) ∈ map.entries ↔ map.find? name = some value :=
  ⟨fun h => findIn_eq_some_of_mem h map.nodup_names, mem_of_findIn_eq_some⟩

theorem mem_names {map : NameMap α} {name : String} :
    name ∈ map.names ↔ ∃ value, map.find? name = some value := by
  simp only [names, List.mem_map, Prod.exists, exists_and_right, exists_eq_right, mem_entries]

theorem mem_values {map : NameMap α} {value : α} :
    value ∈ map.values ↔ ∃ name, map.find? name = some value := by
  simp only [values, List.mem_map, Prod.exists, exists_eq_right, mem_entries]

theorem contains_eq_true {map : NameMap α} {name : String} :
    map.contains name = true ↔ ∃ value, map.find? name = some value :=
  Option.isSome_iff_exists

/-- Maps with equal look-ups are equal. -/
theorem ext_find? {a b : NameMap α} (h : ∀ name, a.find? name = b.find? name) : a = b := by
  obtain ⟨la, ha⟩ := a
  obtain ⟨lb, hb⟩ := b
  have hnodup {l : List (String × α)} (hl : l.Pairwise fun x y => x.1 < y.1) : l.Nodup :=
    hl.imp fun hlt he => String.ne_of_lt hlt (congrArg Prod.fst he)
  have hmem : ∀ e, e ∈ la ↔ e ∈ lb := fun e => by
    have := h e.1
    rw [show e ∈ la ↔ NameMap.find? ⟨la, ha⟩ e.1 = some e.2 from @mem_entries _ ⟨la, ha⟩ _ _,
      show e ∈ lb ↔ NameMap.find? ⟨lb, hb⟩ e.1 = some e.2 from @mem_entries _ ⟨lb, hb⟩ _ _, this]
  have hperm : la.Perm lb := (List.perm_ext_iff_of_nodup (hnodup ha) (hnodup hb)).2 hmem
  have : la = lb := hperm.eq_of_pairwise
    (fun x y _ _ hxy hyx => absurd (String.lt_trans hxy hyx) (String.lt_irrefl _)) ha hb
  subst this
  rfl

theorem entries_eq_nil_iff {map : NameMap α} :
    map.entries = [] ↔ ∀ name, map.find? name = none := by
  constructor
  · intro h name
    rw [find?, h]
    rfl
  · intro h
    exact congrArg entries (ext_find? (b := empty) h)

/-! ## Operations -/

theorem find?_filter (map : NameMap α) (keep : String → α → Bool) (name : String) :
    (map.filter keep).find? name = (map.find? name).filter (keep name) := by
  ext value
  rw [← mem_entries, Option.filter_eq_some_iff, ← mem_entries]
  simp [filter]

theorem find?_mapValues (map : NameMap α) (f : String → α → β) (name : String) :
    (map.mapValues f).find? name = (map.find? name).map (f name) := by
  ext value
  rw [← mem_entries, Option.map_eq_some_iff]
  simp only [mapValues, List.mem_map, Prod.mk.injEq, Prod.exists]
  constructor
  · rintro ⟨n, v, hv, rfl, rfl⟩
    exact ⟨v, mem_entries.1 hv, rfl⟩
  · rintro ⟨v, hv, rfl⟩
    exact ⟨name, v, mem_entries.2 hv, rfl, rfl⟩

theorem find?_erase (map : NameMap α) (name other : String) :
    (map.erase name).find? other = if other = name then none else map.find? other := by
  rw [erase, find?_filter]
  by_cases h : other = name
  · simp [h]
  · cases map.find? other <;> simp [h, Option.filter]

theorem find?_ofFirst (entries : List (String × α)) (name : String) :
    (ofFirst entries).find? name = findIn name entries := by
  induction entries with
  | nil => rfl
  | cons head rest ih =>
    simp only [ofFirst, List.foldr_cons, findIn] at ih ⊢
    rw [find?_insert, ih]

theorem find?_foldl_alter {γ : Type} (xs : List γ) (key : γ → String)
    (change : γ → Option α → α) (map : NameMap α) (name : String) :
    (xs.foldl (fun map x => map.alter (key x) (change x)) map).find? name =
      (xs.filter fun x => key x = name).foldl (fun old x => some (change x old))
        (map.find? name) := by
  induction xs generalizing map with
  | nil => rfl
  | cons x rest ih =>
    rw [List.foldl_cons, ih, find?_alter]
    by_cases h : key x = name <;> simp [h]

/-- The group of a name: its values in the order of the list, if it has any. -/
theorem find?_group (xs : List (String × α)) (name : String) :
    (group xs).find? name =
      let found := (xs.filter fun x => x.1 = name).map Prod.snd
      if found.isEmpty then none else some found := by
  have hfold : ∀ (l : List (String × α)) (old : Option (List α)),
      l.foldl (fun old x => some (old.getD [] ++ [x.2])) old =
        if l.isEmpty then old else some (old.getD [] ++ l.map Prod.snd) := by
    intro l
    induction l with
    | nil => intro old; rfl
    | cons x rest ih =>
      intro old
      rw [List.foldl_cons, ih]
      cases rest <;> simp
  rw [group, find?_foldl_alter xs Prod.fst fun x group => group.getD [] ++ [x.2], find?_empty,
    hfold]
  simp only [Option.getD_none, List.nil_append, List.isEmpty_map]

theorem find?_foldl_insert (entries : List (String × α)) (map : NameMap α) (name : String) :
    (entries.foldl (fun map e => map.insert e.1 e.2) map).find? name =
      (entries.filter fun e => e.1 = name).foldl (fun _ e => some e.2) (map.find? name) :=
  find?_foldl_alter entries Prod.fst (fun e _ => e.2) map name

theorem mem_sortNames {l : List String} {name : String} : name ∈ sortNames l ↔ name ∈ l := by
  have hsome : ∀ entries : List (String × Unit),
      (∃ value, entries.foldl (fun _ e => some e.2) none = some value) ↔ entries ≠ [] := by
    intro entries
    rcases List.eq_nil_or_concat entries with rfl | ⟨init, last, rfl⟩
    · simp
    · simp [List.foldl_append]
  rw [sortNames, mem_names, ofList, find?_foldl_insert, find?_empty, hsome, List.filter_map,
    ne_eq, List.map_eq_nil_iff, List.filter_eq_nil_iff]
  simp

theorem mem_of_find?_ofList {entries : List (String × α)} {name : String} {value : α}
    (h : (ofList entries).find? name = some value) : (name, value) ∈ entries := by
  rw [ofList, find?_foldl_insert, find?_empty] at h
  rcases List.eq_nil_or_concat (entries.filter fun e => e.1 = name) with hnil | ⟨init, last, hlast⟩
  · rw [hnil] at h
    cases h
  · rw [List.concat_eq_append] at hlast
    have hfound : last ∈ entries.filter fun e => e.1 = name := by simp [hlast]
    obtain ⟨hmem, hname⟩ := List.mem_filter.1 hfound
    rw [hlast, List.foldl_append, List.foldl_cons, List.foldl_nil, Option.some.injEq] at h
    rw [← h, ← of_decide_eq_true hname]
    exact hmem

/-- If no two entries give a name different values, each of them is found. -/
theorem find?_ofList_eq_some {entries : List (String × α)}
    (hagree : ∀ a ∈ entries, ∀ b ∈ entries, a.1 = b.1 → a.2 = b.2) {name : String} {value : α} :
    (ofList entries).find? name = some value ↔ (name, value) ∈ entries := by
  have hfound (e : String × α) : e ∈ entries.filter (fun e => e.1 = name) ↔
      e ∈ entries ∧ e.1 = name := by simp
  rw [ofList, find?_foldl_insert, find?_empty]
  rcases List.eq_nil_or_concat (entries.filter fun e => e.1 = name) with hnil | ⟨init, last, hlast⟩
  · rw [hnil] at hfound ⊢
    simpa using hfound (name, value)
  · rw [hlast, List.concat_eq_append] at hfound
    rw [hlast, List.concat_eq_append]
    obtain ⟨hmem, hname⟩ := (hfound last).1 (by simp)
    rw [List.foldl_append, List.foldl_cons, List.foldl_nil, Option.some.injEq]
    refine ⟨fun heq => ?_, fun hvalue => hagree last hmem _ hvalue hname⟩
    rw [← heq, ← hname]
    exact hmem

/-- If no two entries give a name different values, neither their order nor their number shows. -/
theorem ofList_congr {entries others : List (String × α)} (hsame : ∀ e, e ∈ entries ↔ e ∈ others)
    (hagree : ∀ a ∈ entries, ∀ b ∈ entries, a.1 = b.1 → a.2 = b.2) :
    ofList entries = ofList others := by
  have hagree' : ∀ a ∈ others, ∀ b ∈ others, a.1 = b.1 → a.2 = b.2 :=
    fun a ha b hb => hagree a ((hsame a).2 ha) b ((hsame b).2 hb)
  refine ext_find? fun name => Option.ext fun value => ?_
  rw [find?_ofList_eq_some hagree, find?_ofList_eq_some hagree', hsame]

theorem ofList_entries (map : NameMap α) : ofList map.entries = map := by
  have hagree : ∀ a ∈ map.entries, ∀ b ∈ map.entries, a.1 = b.1 → a.2 = b.2 := fun a ha b hb h =>
    Option.some.inj ((mem_entries.1 ha).symm.trans (h ▸ mem_entries.1 hb))
  refine ext_find? fun name => Option.ext fun value => ?_
  rw [find?_ofList_eq_some hagree, mem_entries]

end SchemaPlan.NameMap
