import SchemaPlan.Proofs.JsonReading
import SchemaPlan.Proofs.JsonRecord

/-!
# Documents that are written and read again

A declaration as JSON is an object whose keys are among the declared ones, in their order; a key is
left out exactly if its option is not set. All of its numbers are words.

* `FieldDecl.ofJson_toJson`, `TableDecl.ofJson_toJson`, `Document.ofJson_toJson`: a declaration is
  read from the JSON that is written for it.
* `words_document`: the numbers in a written document.
* `Document.read_compact_toJson`: the compact text of a document is read as the document.
-/
namespace SchemaPlan.Json

open Decimal

/-! ## Values that are written -/

section
variable {α : Type} {members : List (String × Json)} {key : String}

@[simp] theorem mem_optionMember {write : α → Json} {wanted : String} {value : Json}
    {o : Option α} :
    (wanted, value) ∈ optionMember key write o ↔
      wanted = key ∧ ∃ a, o = some a ∧ value = write a := by
  cases o <;> simp [optionMember]

theorem forall_mem_optionMember {write : α → Json} {p : String × Json → Prop} {o : Option α} :
    (∀ member ∈ optionMember key write o, p member) ↔ ∀ a, o = some a → p (key, write a) := by
  cases o <;> simp [optionMember]

theorem keys_optionMember (key : String) (write : α → Json) (o : Option α) :
    ((optionMember key write o).map Prod.fst).Sublist [key] := by
  cases o with
  | none => exact List.nil_sublist _
  | some a => exact List.Sublist.refl _

theorem wellKeyed_of_sublist {keys : List String}
    (h : (members.map Prod.fst).Sublist keys) (hkeys : keys.Nodup) : WellKeyed keys members :=
  ⟨fun _ hkey => h.subset hkey, h.nodup hkeys⟩

/-- An option is read again, if the member written for it is the only one with its key. -/
theorem optional_written {read : Json → Except Fault α} {write : α → Json} {o : Option α}
    (hread : ∀ a, read (write a) = .ok a) (hnull : ∀ a, read .null ≠ .ok a)
    (hmembers : (members.map Prod.fst).Nodup)
    (hkey : ∀ value, (key, value) ∈ members ↔ ∃ a, o = some a ∧ value = write a) :
    optional members key read = .ok o := by
  rw [optional_eq_ok_iff hmembers hnull]
  cases o with
  | none =>
    refine .missing fun hmissing => ?_
    obtain ⟨⟨_, value⟩, hmember, rfl⟩ := List.mem_map.1 hmissing
    simpa using (hkey value).1 hmember
  | some a => exact .value ((hkey _).2 ⟨a, rfl, rfl⟩) (hread a)

theorem optional_text {o : Option String} (hmembers : (members.map Prod.fst).Nodup)
    (hkey : ∀ value, (key, value) ∈ members ↔ ∃ s, o = some s ∧ value = .text s) :
    optional members key readText = .ok o :=
  optional_written (fun _ => rfl) nofun hmembers hkey

theorem readWord_word (n : UInt64) : readWord (word n) = .ok n :=
  readWord_number (natural?_ofNat n.toNat)

theorem optional_word {o : Option UInt64} (hmembers : (members.map Prod.fst).Nodup)
    (hkey : ∀ value, (key, value) ∈ members ↔ ∃ n, o = some n ∧ value = word n) :
    optional members key readWord = .ok o :=
  optional_written readWord_word nofun hmembers hkey

theorem required_text {s : String} (hmembers : (members.map Prod.fst).Nodup)
    (hkey : (key, .text s) ∈ members) : required members key readText = .ok s :=
  (required_eq_ok_iff hmembers).2 (.value hkey rfl)

theorem flag_written {b : Bool} (hmembers : (members.map Prod.fst).Nodup)
    (hkey : (key, .bool b) ∈ members) : flag members key = .ok b :=
  (flag_eq_ok_iff hmembers).2 (.value hkey)

end

end SchemaPlan.Json

namespace SchemaPlan

open Json Decimal

theorem IndexDecl.ofJson_toJson (index : IndexDecl) :
    IndexDecl.ofJson index.toJson = .ok index := by
  have hkeys : WellKeyed keys
      (optionMember "name" .text index.name ++ [("unique", .bool index.unique)]) := by
    refine wellKeyed_of_sublist ?_ (by decide)
    rw [List.map_append]
    exact (keys_optionMember ..).append (List.Sublist.refl ["unique"])
  rw [toJson, ofJson_object_iff]
  exact ⟨hkeys, optional_text hkeys.once (by simp), flag_written hkeys.once (by simp)⟩

/-- The keys that are written for a field are declared, and none is written twice. -/
theorem FieldDecl.wellKeyed_toJson {field : FieldDecl} {members : List (String × Json)}
    (h : field.toJson = .object members) : WellKeyed keys members := by
  refine wellKeyed_of_sublist ?_ (by decide)
  cases h
  simp only [List.map_append]
  exact (List.Sublist.refl ["name", "type", "nullable"])
    |>.append (keys_optionMember "column" ..) |>.append (keys_optionMember "comment" ..)
    |>.append (List.Sublist.refl ["unique"]) |>.append (keys_optionMember "unique_index" ..)
    |>.append (List.Sublist.refl ["primary_key", "auto_increment"])
    |>.append (keys_optionMember "default" ..) |>.append (keys_optionMember "db_type" ..)
    |>.append (keys_optionMember "size" ..) |>.append (keys_optionMember "precision" ..)
    |>.append (keys_optionMember "scale" ..) |>.append (keys_optionMember "extra" ..)
    |>.append (keys_optionMember "index" ..)

theorem FieldDecl.ofJson_toJson (field : FieldDecl) :
    FieldDecl.ofJson field.toJson = .ok field := by
  obtain ⟨members, hmembers⟩ : ∃ members, field.toJson = .object members := ⟨_, rfl⟩
  have hkeys := wellKeyed_toJson hmembers
  have h := hkeys.once
  rw [hmembers, ofJson_object_iff]
  cases hmembers
  exact ⟨hkeys, required_text h (by simp), required_text h (by simp), flag_written h (by simp),
    optional_text h (by simp), optional_text h (by simp), flag_written h (by simp),
    optional_text h (by simp), flag_written h (by simp), flag_written h (by simp),
    optional_text h (by simp), optional_text h (by simp), optional_word h (by simp),
    optional_word h (by simp), optional_word h (by simp), optional_text h (by simp),
    optional_written IndexDecl.ofJson_toJson nofun h (by simp)⟩

theorem Json.readList_written {α : Type} {read : Json → Except Fault α} {write : α → Json}
    (hread : ∀ a, read (write a) = .ok a) (l : List α) :
    readList read (.list (l.map write)) = .ok l := by
  rw [readList, mapM_eq_ok_iff, List.forall₂_map_left_iff, List.forall₂_same]
  exact fun a _ => hread a

theorem TableDecl.ofJson_toJson (table : TableDecl) :
    TableDecl.ofJson table.toJson = .ok table := by
  obtain ⟨members, hmembers⟩ : ∃ members, table.toJson = .object members := ⟨_, rfl⟩
  have hkeys : WellKeyed keys members := by
    cases hmembers
    refine wellKeyed_of_sublist ?_ (by decide)
    rw [List.map_append]
    exact (List.Sublist.refl ["name", "fields"]).append (keys_optionMember ..)
  have h := hkeys.once
  rw [hmembers, ofJson_object_iff]
  cases hmembers
  exact ⟨hkeys, required_text h (by simp),
    (required_eq_ok_iff h).2 (.value (by simp) (readList_written FieldDecl.ofJson_toJson _)),
    optional_text h (by simp)⟩

theorem Document.ofJson_toJson (document : Document) :
    Document.ofJson document.toJson = .ok document := by
  rw [toJson, ofJson_object_iff]
  have hkeys : WellKeyed keys [("tables", .list (document.tables.map TableDecl.toJson))] :=
    wellKeyed_of_sublist (List.Sublist.refl ["tables"]) (by decide)
  exact ⟨hkeys, readList_written TableDecl.ofJson_toJson document.tables⟩

/-! ## The text of a document -/

namespace Json

/-- All numbers in a value are words, written in decimal. -/
def Words (value : Json) : Prop :=
  ∀ n ∈ numbers value, ∃ word : UInt64, n = .ofNat word.toNat

theorem words_text (s : String) : Words (.text s) := by simp [Words, numbers]

theorem words_bool (b : Bool) : Words (.bool b) := by simp [Words, numbers]

theorem words_word (n : UInt64) : Words (word n) := by
  intro other hother
  exact ⟨n, List.mem_singleton.1 hother⟩

theorem words_list {items : List Json} : Words (.list items) ↔ ∀ item ∈ items, Words item := by
  simp only [Words, numbers, mem_itemNumbers, forall_exists_index, and_imp]
  exact ⟨fun h item hitem n => h n item hitem, fun h n item hitem => h item hitem n⟩

theorem words_object {members : List (String × Json)} :
    Words (.object members) ↔ ∀ member ∈ members, Words member.2 := by
  simp only [Words, numbers, mem_memberNumbers, forall_exists_index, and_imp]
  exact ⟨fun h member hmember n => h n member hmember, fun h n member hmember => h member hmember n⟩

/-- The compact text of a value whose numbers are words is read as the value. -/
theorem read_compact {value : Json} (h : Words value) : read (compact value) = .ok value := by
  have hspells : ∀ n ∈ numbers value, n.Spells n.spelling := by
    intro n hn
    obtain ⟨word, rfl⟩ := h n hn
    exact spells_ofNat word.toNat
  have hreadable : (numbers value).all Number.isReadable = true := by
    rw [List.all_eq_true]
    intro n hn
    obtain ⟨word, rfl⟩ := h n hn
    exact isReadable_of_natural? (natural?_ofNat _) word.toNat_lt
  rw [read_of_isText (isText_compact hspells), if_pos hreadable]

end Json

theorem words_index (index : IndexDecl) : Words index.toJson := by
  simp only [IndexDecl.toJson, words_object, List.forall_mem_append, List.forall_mem_singleton,
    forall_mem_optionMember, words_text, words_bool, implies_true, and_self]

theorem words_field (field : FieldDecl) : Words field.toJson := by
  simp only [FieldDecl.toJson, words_object, List.forall_mem_append, List.forall_mem_cons,
    List.not_mem_nil, IsEmpty.forall_iff, forall_mem_optionMember, words_text, words_bool,
    words_word, words_index, implies_true, and_self]

theorem words_table (table : TableDecl) : Words table.toJson := by
  simp only [TableDecl.toJson, words_object, List.forall_mem_append, List.forall_mem_cons,
    List.not_mem_nil, IsEmpty.forall_iff, forall_mem_optionMember, words_text, words_list,
    List.forall_mem_map, words_field, implies_true, and_self]

theorem words_document (document : Document) : Words document.toJson := by
  simp only [Document.toJson, words_object, List.forall_mem_singleton, words_list,
    List.forall_mem_map, words_table, implies_true]

/-- Every document is read again from its compact text. -/
theorem Document.read_compact_toJson (document : Document) :
    Document.read (compact document.toJson) = .ok document := by
  rw [Document.read, read_compact (words_document document)]
  exact Document.ofJson_toJson document

end SchemaPlan
