import SchemaPlan.Declaration.Document
import SchemaPlan.Proofs.Computation

/-!
# Reading records from JSON objects

What the value of each declaration's key has to be for a declaration to be read from an object. As
keys occur once, the member that is looked up is any member with that key.

* `WellKeyed`: the keys of an object are declared and occur once.
* `Gives`, `GivesOption`, `GivesFlag`: what the members of an object say of one key.
* `required_eq_ok_iff`, `optional_eq_ok_iff`, `flag_eq_ok_iff`: the readers of one key.
* `IndexDecl.ofJson_object_iff`, `FieldDecl.ofJson_object_iff`, `TableDecl.ofJson_object_iff`,
  `Document.ofJson_object_iff`: the readers of the declarations, key by key.
-/
namespace SchemaPlan

namespace Json

open Decimal

/-! ## Keys -/

theorem eraseDups_sublist (l : List String) : l.eraseDups.Sublist l := by
  match l with
  | [] => simp
  | a :: rest =>
    rw [List.eraseDups_cons]
    exact .cons_cons a ((eraseDups_sublist _).trans List.filter_sublist)
termination_by l.length
decreasing_by exact Nat.lt_succ_of_le (List.length_filter_le _ _)

theorem nodup_eraseDups (l : List String) : l.eraseDups.Nodup := by
  match l with
  | [] => simp
  | a :: rest =>
    rw [List.eraseDups_cons, List.nodup_cons]
    exact ⟨by simp, nodup_eraseDups _⟩
termination_by l.length
decreasing_by exact Nat.lt_succ_of_le (List.length_filter_le _ _)

theorem length_eraseDups_eq_iff {l : List String} : l.eraseDups.length = l.length ↔ l.Nodup := by
  constructor
  · intro h
    rw [← (eraseDups_sublist l).eq_of_length h]
    exact nodup_eraseDups l
  · intro h
    have hperm : l.eraseDups.Perm l :=
      (List.perm_ext_iff_of_nodup (nodup_eraseDups l) h).2 fun _ => List.mem_eraseDups
    exact hperm.length_eq

/-- Each key of an object is one of the given keys and occurs once. -/
structure WellKeyed (keys : List String) (members : List (String × Json)) : Prop where
  declared : ∀ key ∈ members.map Prod.fst, key ∈ keys
  once : (members.map Prod.fst).Nodup

/-- A record is read from an object whose keys are declared and occur once. -/
theorem readRecord_object_iff {α : Type} {keys : List String}
    {read : List (String × Json) → Except Fault α} {members : List (String × Json)} {a : α} :
    readRecord keys read (.object members) = .ok a ↔
      WellKeyed keys members ∧ read members = .ok a := by
  have hkeys : ((members.map Prod.fst).all keys.contains &&
      (members.map Prod.fst).eraseDups.length == (members.map Prod.fst).length) = true ↔
      WellKeyed keys members := by
    rw [Bool.and_eq_true, List.all_eq_true, beq_iff_eq, length_eraseDups_eq_iff]
    simp only [List.contains_iff_mem]
    exact ⟨fun ⟨hdeclared, honce⟩ => ⟨hdeclared, honce⟩, fun h => ⟨h.declared, h.once⟩⟩
  rw [readRecord]
  split
  · next h => simp [hkeys.1 h]
  · next h => simp [mt hkeys.2 h]

/-! ## The members with a key -/

section
variable {α : Type} {members : List (String × Json)} {key : String} {value : Json}

theorem lookup_eq_some_iff_mem (hmembers : (members.map Prod.fst).Nodup) :
    members.lookup key = some value ↔ (key, value) ∈ members := by
  rw [List.lookup_eq_some_iff]
  constructor
  · rintro ⟨before, after, rfl, -⟩
    simp
  · intro h
    obtain ⟨before, after, rfl⟩ := List.append_of_mem h
    refine ⟨before, after, rfl, fun p hp => ?_⟩
    rw [List.map_append, List.map_cons, List.nodup_append] at hmembers
    have hne := hmembers.2.2 p.1 (List.mem_map_of_mem hp) key (by simp)
    simpa using Ne.symm hne

theorem lookup_eq_none_iff_not_mem : members.lookup key = none ↔ key ∉ members.map Prod.fst := by
  rw [List.lookup_eq_none_iff, List.mem_map]
  constructor
  · rintro h ⟨member, hmember, rfl⟩
    simpa using h member hmember
  · intro h member hmember
    have hne : member.1 ≠ key := fun heq => h ⟨member, hmember, heq⟩
    simpa using Ne.symm hne

/-- The members give a value for a key: one of them has the key, and its value stands for the
given one. -/
inductive Gives (members : List (String × Json)) (key : String) (means : Json → α → Prop) :
    α → Prop
  | value {value : Json} {a : α} (h : (key, value) ∈ members) (hmeans : means value a) :
    Gives members key means a

/-- The members give a value for a key, or none, as the key is missing or has the value null. -/
inductive GivesOption (members : List (String × Json)) (key : String) (means : Json → α → Prop) :
    Option α → Prop
  | missing (h : key ∉ members.map Prod.fst) : GivesOption members key means none
  | null (h : (key, .null) ∈ members) : GivesOption members key means none
  | value {value : Json} {a : α} (h : (key, value) ∈ members) (hmeans : means value a) :
    GivesOption members key means (some a)

/-- The members give a flag for a key, or the key is missing and the flag is not set. -/
inductive GivesFlag (members : List (String × Json)) (key : String) : Bool → Prop
  | missing (h : key ∉ members.map Prod.fst) : GivesFlag members key false
  | value {b : Bool} (h : (key, .bool b) ∈ members) : GivesFlag members key b

/-- What a reader reads from a value. -/
def Reads (read : Json → Except Fault α) (value : Json) (a : α) : Prop :=
  read value = .ok a

theorem required_eq_ok_iff {read : Json → Except Fault α} {a : α}
    (hmembers : (members.map Prod.fst).Nodup) :
    required members key read = .ok a ↔ Gives members key (Reads read) a := by
  rw [required]
  constructor
  · intro h
    split at h
    · next hfound => exact .value ((lookup_eq_some_iff_mem hmembers).1 hfound) h
    · cases h
  · rintro ⟨h, hread⟩
    rw [(lookup_eq_some_iff_mem hmembers).2 h]
    exact hread

theorem optional_of_lookup {read : Json → Except Fault α} {a : α}
    (hfound : members.lookup key = some value) (hread : read value = .ok a)
    (hnull : ∀ a, read .null ≠ .ok a) : optional members key read = .ok (some a) := by
  rw [optional, hfound]
  split
  · next heq => cases heq
  · next heq =>
    cases heq
    exact absurd hread (hnull a)
  · next heq =>
    cases heq
    rw [hread]
    rfl

theorem optional_eq_ok_iff {read : Json → Except Fault α} {o : Option α}
    (hmembers : (members.map Prod.fst).Nodup) (hnull : ∀ a, read .null ≠ .ok a) :
    optional members key read = .ok o ↔ GivesOption members key (Reads read) o := by
  constructor
  · intro h
    rw [optional] at h
    split at h
    · next hmissing =>
      cases h
      exact .missing (lookup_eq_none_iff_not_mem.1 hmissing)
    · next hfound =>
      cases h
      exact .null ((lookup_eq_some_iff_mem hmembers).1 hfound)
    · next value _ hfound =>
      cases hread : read value with
      | error fault =>
        rw [hread] at h
        cases h
      | ok a =>
        rw [hread] at h
        cases h
        exact .value ((lookup_eq_some_iff_mem hmembers).1 hfound) hread
  · rintro (hmissing | hfound | ⟨hfound, hread⟩)
    · rw [optional, lookup_eq_none_iff_not_mem.2 hmissing]
    · rw [optional, (lookup_eq_some_iff_mem hmembers).2 hfound]
    · exact optional_of_lookup ((lookup_eq_some_iff_mem hmembers).2 hfound) hread hnull

theorem flag_eq_ok_iff {b : Bool} (hmembers : (members.map Prod.fst).Nodup) :
    flag members key = .ok b ↔ GivesFlag members key b := by
  rw [flag]
  constructor
  · intro h
    split at h
    · next value hfound =>
      unfold readFlag at h
      split at h
      · cases h
        exact .value ((lookup_eq_some_iff_mem hmembers).1 hfound)
      · cases h
    · next hmissing =>
      cases h
      exact .missing (lookup_eq_none_iff_not_mem.1 hmissing)
  · rintro (hmissing | hfound)
    · rw [lookup_eq_none_iff_not_mem.2 hmissing]
    · rw [(lookup_eq_some_iff_mem hmembers).2 hfound]
      rfl

end

theorem readWord_number {number : Number} {word : UInt64}
    (h : number.natural? = some word.toNat) : readWord (.number number) = .ok word := by
  have hlt : word.toNat < bound64 := word.toNat_lt
  rw [readWord, h]
  simp [hlt]

end Json

open Json

/-! ## Declarations -/

theorem IndexDecl.ofJson_object_iff {members : List (String × Json)} {index : IndexDecl} :
    IndexDecl.ofJson (.object members) = .ok index ↔
      WellKeyed IndexDecl.keys members ∧
      optional members "name" readText = .ok index.name ∧
      flag members "unique" = .ok index.unique := by
  rw [IndexDecl.ofJson, readRecord_object_iff]
  simp only [bind_eq_ok_iff, Except.ok.injEq]
  constructor
  · rintro ⟨hkeys, _, hname, _, hunique, rfl⟩
    exact ⟨hkeys, hname, hunique⟩
  · rintro ⟨hkeys, hname, hunique⟩
    exact ⟨hkeys, _, hname, _, hunique, rfl⟩

theorem FieldDecl.ofJson_object_iff {members : List (String × Json)} {field : FieldDecl} :
    FieldDecl.ofJson (.object members) = .ok field ↔
      WellKeyed FieldDecl.keys members ∧
      required members "name" readText = .ok field.name ∧
      required members "type" readText = .ok field.type ∧
      flag members "nullable" = .ok field.nullable ∧
      optional members "column" readText = .ok field.column ∧
      optional members "comment" readText = .ok field.comment ∧
      flag members "unique" = .ok field.unique ∧
      optional members "unique_index" readText = .ok field.uniqueIndex ∧
      flag members "primary_key" = .ok field.primaryKey ∧
      flag members "auto_increment" = .ok field.autoIncrement ∧
      optional members "default" readText = .ok field.defaultValue ∧
      optional members "db_type" readText = .ok field.ddlType ∧
      optional members "size" readWord = .ok field.size ∧
      optional members "precision" readWord = .ok field.precision ∧
      optional members "scale" readWord = .ok field.scale ∧
      optional members "extra" readText = .ok field.extra ∧
      optional members "index" IndexDecl.ofJson = .ok field.index := by
  rw [FieldDecl.ofJson, readRecord_object_iff]
  simp only [bind_eq_ok_iff, Except.ok.injEq]
  constructor
  · rintro ⟨hkeys, _, hname, _, htype, _, hnullable, _, hcolumn, _, hcomment, _, hunique, _,
      huniqueIndex, _, hprimaryKey, _, hautoIncrement, _, hdefault, _, hddlType, _, hsize, _,
      hprecision, _, hscale, _, hextra, _, hindex, rfl⟩
    exact ⟨hkeys, hname, htype, hnullable, hcolumn, hcomment, hunique, huniqueIndex, hprimaryKey,
      hautoIncrement, hdefault, hddlType, hsize, hprecision, hscale, hextra, hindex⟩
  · rintro ⟨hkeys, hname, htype, hnullable, hcolumn, hcomment, hunique, huniqueIndex, hprimaryKey,
      hautoIncrement, hdefault, hddlType, hsize, hprecision, hscale, hextra, hindex⟩
    exact ⟨hkeys, _, hname, _, htype, _, hnullable, _, hcolumn, _, hcomment, _, hunique, _,
      huniqueIndex, _, hprimaryKey, _, hautoIncrement, _, hdefault, _, hddlType, _, hsize, _,
      hprecision, _, hscale, _, hextra, _, hindex, rfl⟩

theorem TableDecl.ofJson_object_iff {members : List (String × Json)} {table : TableDecl} :
    TableDecl.ofJson (.object members) = .ok table ↔
      WellKeyed TableDecl.keys members ∧
      required members "name" readText = .ok table.name ∧
      required members "fields" (readList FieldDecl.ofJson) = .ok table.fields ∧
      optional members "option" readText = .ok table.option := by
  rw [TableDecl.ofJson, readRecord_object_iff]
  simp only [bind_eq_ok_iff, Except.ok.injEq]
  constructor
  · rintro ⟨hkeys, _, hname, _, hfields, _, hoption, rfl⟩
    exact ⟨hkeys, hname, hfields, hoption⟩
  · rintro ⟨hkeys, hname, hfields, hoption⟩
    exact ⟨hkeys, _, hname, _, hfields, _, hoption, rfl⟩

theorem Document.ofJson_object_iff {members : List (String × Json)} {document : Document} :
    Document.ofJson (.object members) = .ok document ↔
      WellKeyed Document.keys members ∧
      required members "tables" (readList TableDecl.ofJson) = .ok document.tables := by
  rw [Document.ofJson, readRecord_object_iff]
  simp only [bind_eq_ok_iff, Except.ok.injEq]
  constructor
  · rintro ⟨hkeys, _, htables, rfl⟩
    exact ⟨hkeys, htables⟩
  · rintro ⟨hkeys, htables⟩
    exact ⟨hkeys, _, htables, rfl⟩

end SchemaPlan
