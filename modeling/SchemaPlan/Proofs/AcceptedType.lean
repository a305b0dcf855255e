import SchemaPlan.Proofs.RequestedSize

/-!
# Types that accept the spellings of their fields

The type of a field is found by looking for an entry with its spelling, but whether a stored type
accepts a spelling is asked of the entries with the base of the stored type. The two answers agree
as long as the size of the field leaves the base alone and the entry does not store a list.

* `Registry.equivalentCompact_iff_accepts`: the spellings that a stored type accepts.
* `MySql.KeepsSpelling`, `Spanner.KeepsSpelling`: an entry accepts its spellings at the size that a
  field asks for.
* `equivalent_sized_iff`: a type accepts a spelling if its innermost element type does.
* `equivalent_typeOf_iff`: the type of a field accepts its spelling just if it keeps it.
-/
namespace SchemaPlan

open Text Ddl

/-! ## Accepted spellings -/

namespace Registry

/-- A type accepts a spelling because an entry with its base has it, or, if it is a list type,
because its element type accepts the element of the spelling. -/
inductive Accepts (registry : Registry) : (spelling ddl : List Char) → Prop
  | type {spelling ddl} (harray : registry.arrayElement? ddl = none)
    (hlists : registry.Lists spelling ddl) : Accepts registry spelling ddl
  | list {spelling ddl stored element} (harray : registry.arrayElement? ddl = some stored)
    (helement : listElement? (stripOption spelling).1 = some element)
    (haccepts : Accepts registry (stripOption element).1 (normalizeChars stored)) :
    Accepts registry spelling ddl

theorem equivalentCompact_iff_accepts (registry : Registry) (spelling ddl : List Char) :
    registry.equivalentCompact spelling ddl = true ↔
      registry.Accepts spelling (normalizeChars ddl) := by
  rw [← equivalentCompact_normalize]
  have hnormal : normalizeChars (normalizeChars ddl) = normalizeChars ddl := normalizeChars_idem ddl
  -- The induction follows the lists that the spelling is made of.
  induction hlength : spelling.length using Nat.strongRecOn generalizing spelling ddl with
  | ind n ih =>
    cases harray : registry.arrayElement? (normalizeChars ddl) with
    | none =>
      rw [equivalentCompact_iff_lists hnormal harray]
      refine ⟨.type harray, fun h => ?_⟩
      cases h with
      | type _ hlists => exact hlists
      | list hother => cases harray.symm.trans hother
    | some stored =>
      rw [equivalentCompact_list_iff hnormal harray]
      have hinner : ∀ element, listElement? (stripOption spelling).1 = some element →
          (registry.equivalentCompact (stripOption element).1 stored = true ↔
            registry.Accepts (stripOption element).1 (normalizeChars stored)) := by
        intro element helement
        have hshorter : (stripOption element).1.length < n :=
          hlength ▸ element_shorter helement
        rw [← equivalentCompact_normalize]
        exact ih _ hshorter _ stored (normalizeChars_idem stored) rfl
      constructor
      · rintro ⟨element, helement, haccepts⟩
        exact .list harray helement ((hinner element helement).1 haccepts)
      · intro h
        cases h with
        | type hother => cases harray.symm.trans hother
        | list hother helement haccepts =>
          obtain rfl := Option.some.inj (harray.symm.trans hother)
          exact ⟨_, helement, (hinner _ helement).2 haccepts⟩

end Registry

/-! ## MySQL -/

namespace MySql

/-- A field asks for a size that its registered type does not have, or for the precision of a
temporal type that is registered with an argument list. -/
inductive Outgrown (ddl : String) (field : FieldDecl) : Prop
  | text {size : UInt64} (hbase : baseType ddl = "VARCHAR") (h : field.size = some size)
    (hlong : 16383 < size)
  | bytes {size : UInt64} (hbase : baseType ddl = "VARBINARY") (h : field.size = some size)
    (hlong : 65532 < size)
  | temporal (h : Overloaded ddl field)

theorem typeForLength_short {name medium long : String} {limit length : UInt64}
    (h : ¬limit < length) :
    typeForLength name limit medium long length = withArgument name length :=
  if_pos (UInt64.not_lt.1 h)

theorem baseTypeChars_sizedType {ddl : String} {field : FieldDecl} (hddl : Normal ddl.toList)
    (h : ¬Outgrown ddl field) :
    baseTypeChars (sizedType ddl field).toList = baseTypeChars ddl.toList := by
  by_cases hresized : Resized ddl field
  case neg => rw [sizedType_own hresized]
  cases hresized with
  | text hbase hsize =>
    rw [sizedType_text hbase hsize, typeForLength_short fun hlong => h (.text hbase hsize hlong),
      toList_withArgument, baseTypeChars_arguments (by decide) (inner_decimal _),
      baseTypeChars_of_baseType hbase]
  | bytes hbase hsize =>
    rw [sizedType_bytes hbase hsize, typeForLength_short fun hlong => h (.bytes hbase hsize hlong),
      toList_withArgument, baseTypeChars_arguments (by decide) (inner_decimal _),
      baseTypeChars_of_baseType hbase]
  | decimal hbase hprecision =>
    rw [sizedType_decimal hbase hprecision, toList_decimalType,
      baseTypeChars_arguments (by decide) (inner_decimalArguments _ _),
      baseTypeChars_of_baseType hbase]
  | temporal hbase hprecision hpositive =>
    have hlisted : ¬(argumentList? ddl.toList).isSome := fun hlisted =>
      h (.temporal ⟨hbase, ⟨_, hprecision, hpositive⟩, hlisted⟩)
    rw [sizedType_temporal hbase hprecision hpositive, toList_withArgument,
      baseTypeChars_withArguments hddl rfl (inner_temporal hbase) (inner_decimal _), if_neg hlisted]

/-- An entry of a dialect accepts its spellings at the size that a field asks for: what the field
outgrows has to be listed again with the base that it gets. -/
def KeepsSpelling (dialect : MySql) (field : FieldDecl) (spelling : List Char)
    (entry : TypeEntry) : Prop :=
  Outgrown entry.ddlType field →
    dialect.types.Lists spelling (sizedType entry.ddlType field).toList

variable {dialect : MySql} {field : FieldDecl} {spelling : List Char} {entry : TypeEntry}

theorem equivalentCompact_sizedType_iff (hentry : entry ∈ dialect.types.entries)
    (hnormal : Normal entry.ddlType.toList)
    (haccepts : entry.accepts (String.ofList spelling) = true) :
    dialect.types.equivalentCompact spelling (sizedType entry.ddlType field).toList = true ↔
      dialect.KeepsSpelling field spelling entry := by
  rw [Registry.equivalentCompact_iff_lists (normal_sizedType hnormal field) rfl]
  refine ⟨fun h _ => h, fun h => ?_⟩
  by_cases houtgrown : Outgrown entry.ddlType field
  · exact h houtgrown
  · exact ⟨entry, hentry, (baseTypeChars_sizedType hnormal houtgrown).symm, haccepts⟩

end MySql

/-! ## Spanner -/

namespace Spanner

theorem typeOf_canonical {dialect : Spanner} {field : FieldDecl} (hown : field.ddlType = none)
    {ddl : String}
    (hresolve : dialect.types.resolve? field.type field.isNullable = some (.canonical ddl)) :
    dialect.typeOf field = sized field.size ddl := by
  unfold typeOf
  rw [hown, hresolve]
  rfl

/-- An entry of a dialect accepts its spellings at the size that a field asks for: a list type only
accepts the lists whose elements are accepted by its element type. -/
def KeepsSpelling (dialect : Spanner) (field : FieldDecl) (spelling : List Char)
    (entry : TypeEntry) : Prop :=
  ∀ stored, arrayForm.element? entry.ddlType.toList = some stored →
    ∃ element, listElement? (stripOption spelling).1 = some element ∧
      dialect.types.Accepts (stripOption element).1
        (normalizeChars (sized field.size (String.ofList stored)).toList)

theorem equivalentCompact_sized_iff {dialect : Spanner} {field : FieldDecl} {spelling : List Char}
    {entry : TypeEntry} (hentry : entry ∈ dialect.types.entries)
    (hnormal : Normal entry.ddlType.toList)
    (haccepts : entry.accepts (String.ofList spelling) = true) :
    dialect.types.equivalentCompact spelling (sized field.size entry.ddlType).toList = true ↔
      dialect.KeepsSpelling field spelling entry := by
  have hsized := normal_sized hnormal field.size
  cases helement : arrayForm.element? entry.ddlType.toList with
  | none =>
    obtain ⟨hscalar, hbase⟩ := sized_scalar helement field.size
    refine iff_of_true ?_ fun stored hstored => ?_
    · have harray : dialect.types.arrayElement? (sized field.size entry.ddlType).toList = none :=
        hscalar
      exact (Registry.equivalentCompact_iff_lists hsized harray).2
        ⟨entry, hentry, hbase.symm, haccepts⟩
    · rw [helement] at hstored
      cases hstored
  | some stored =>
    have hddl : entry.ddlType = arrayForm.wrap (String.ofList stored) := by
      rw [← String.toList_inj, ArrayForm.toList_wrap, String.toList_ofList]
      exact ArrayForm.eq_of_element? helement
    unfold KeepsSpelling
    rw [helement]
    rw [hddl, sized_wrap] at hsized ⊢
    have harray : dialect.types.arrayElement?
        (arrayForm.wrap (sized field.size (String.ofList stored))).toList =
          some (sized field.size (String.ofList stored)).toList :=
      ArrayForm.element?_wrap arrayForm _
    rw [Registry.equivalentCompact_list_iff hsized harray]
    simp only [Registry.equivalentCompact_iff_accepts]
    exact ⟨fun h other hother => Option.some.inj hother ▸ h, fun h => h stored rfl⟩

variable {dialect : Spanner} (hmade : ∀ entry ∈ dialect.registered, entry.Made)
include hmade

/-- A type accepts a spelling at every size if its innermost element type accepts what the spelling
is made of. -/
theorem equivalent_sized_iff (size : Option UInt64) {spelling inner : List Char} {nullable : Bool}
    {ddl : String} {entry : TypeEntry}
    (h : dialect.types.Found spelling nullable ddl inner entry) :
    Normal ddl.toList ∧
    (dialect.types.equivalentCompact spelling (sized size ddl).toList = true ↔
      dialect.types.equivalentCompact inner (sized size entry.ddlType).toList = true) := by
  induction h with
  | entry hlookup =>
    exact ⟨@normal_entry (.spanner dialect) hmade _ (Registry.lookup?_mem hlookup).1, Iff.rfl⟩
  | @list spelling nullable form element ddl inner entry hlookup hform helement hinner ih =>
    obtain rfl : arrayForm = form := Option.some.inj hform
    have hnormal := normal_sized (normal_wrap ih.1) size
    refine ⟨normal_wrap ih.1, ?_⟩
    rw [sized_wrap] at hnormal ⊢
    have hstored : dialect.types.arrayElement? (arrayForm.wrap (sized size ddl)).toList =
        some (sized size ddl).toList := ArrayForm.element?_wrap arrayForm _
    rw [Registry.equivalentCompact_list_iff hnormal hstored, helement, ← ih.2]
    simp

end Spanner

/-! ## Both dialects -/

namespace Dialect

/-- An entry of a dialect accepts its spellings at the size that a field asks for. -/
def KeepsSpelling : Dialect → FieldDecl → List Char → TypeEntry → Prop
  | .mysql dialect => dialect.KeepsSpelling
  | .spanner dialect => dialect.KeepsSpelling

/-- The type of a field whose spelling is found in an entry accepts the spelling just if the entry
does at the size that the field asks for. If it does not, a column of this very type is taken for a
changed one. -/
theorem equivalent_typeOf_iff {dialect : Dialect}
    (hmade : ∀ entry ∈ dialect.types.registered, entry.Made) {field : FieldDecl}
    (hown : field.ddlType = none) {ddl : String}
    (hresolve : dialect.types.resolve? field.type field.isNullable = some (.canonical ddl)) :
    ∃ inner entry,
      dialect.types.Found (withoutBlanks field.type.toList) field.isNullable ddl inner entry ∧
      (dialect.types.equivalent field.type (dialect.typeOf field) = true ↔
        dialect.KeepsSpelling field inner entry) ∧
      (¬dialect.KeepsSpelling field inner entry →
        ∀ unique column, column.dataType = dialect.typeOf field →
          dialect.columnChanged field unique column = true) := by
  obtain ⟨inner, entry, hfound⟩ := Registry.exists_found hresolve
  obtain ⟨hentry, haccepts⟩ := hfound.entry_mem
  have hnormal := normal_entry hmade entry hentry
  have hiff : dialect.types.equivalent field.type (dialect.typeOf field) = true ↔
      dialect.KeepsSpelling field inner entry := by
    cases dialect with
    | mysql d =>
      obtain ⟨rfl, rfl⟩ := MySql.found_entry hfound
      have htype : (mysql d).typeOf field = MySql.sizedType entry.ddlType field :=
        MySql.typeOf_canonical hown hresolve
      rw [htype]
      exact MySql.equivalentCompact_sizedType_iff hentry hnormal haccepts
    | spanner d =>
      have htype : (spanner d).typeOf field = Spanner.sized field.size ddl :=
        Spanner.typeOf_canonical hown hresolve
      rw [htype]
      exact (Spanner.equivalent_sized_iff hmade field.size hfound).2.trans
        (Spanner.equivalentCompact_sized_iff hentry hnormal haccepts)
  refine ⟨inner, entry, hfound, hiff, fun hkeeps unique column hcolumn => ?_⟩
  have hrejected := Bool.eq_false_iff.2 ((not_congr hiff).2 hkeeps)
  unfold columnChanged mismatched
  rw [hown, hresolve, hcolumn, hrejected]
  rfl

/-- A registered text that is as long as its type may be. -/
theorem equivalent_typeOf_name :
    let dialect : Dialect := .mysql { registered := [.ofSpellings "varchar(40)" ["Name"]] }
    let field : FieldDecl := { name := "name", type := "Name", size := some 16383 }
    dialect.types.equivalent field.type (dialect.typeOf field) = true := by
  intro dialect field
  have hresolve : dialect.types.resolve? field.type field.isNullable =
      some (.canonical "VARCHAR(40)") := by decide +kernel
  obtain ⟨inner, entry, hfound, hiff, -⟩ :=
    equivalent_typeOf_iff (List.forall_mem_singleton.2 (.ofSpellings _ _)) rfl hresolve
  have hbase : baseType entry.ddlType = "VARCHAR" := by
    rw [← (MySql.found_entry hfound).1]
    decide +kernel
  refine hiff.2 fun houtgrown => absurd houtgrown ?_
  rintro (⟨-, hsize, hlong⟩ | ⟨hother, -⟩ | htemporal)
  · obtain rfl := Option.some.inj hsize
    exact absurd hlong (by decide)
  · rw [hbase] at hother
    exact absurd hother (by decide)
  · have hmem := htemporal.temporal
    rw [hbase] at hmem
    exact absurd hmem (by decide)

/-- A registered text that is longer than its type may be, and a list that is registered under a
name of its own. -/
theorem generated_type_rejected :
    let texts : Dialect := .mysql { registered := [.ofSpellings "varchar(40)" ["Name"]] }
    let name : FieldDecl := { name := "name", type := "Name", size := some 20000 }
    let lists : Dialect := .spanner { registered := [.ofSpellings "array<int64>" ["Ints"]] }
    let ids : FieldDecl := { name := "ids", type := "Ints" }
    (texts.types.resolve? name.type name.isNullable = some (.canonical "VARCHAR(40)") ∧
        texts.typeOf name = "MEDIUMTEXT" ∧
        texts.types.equivalent name.type (texts.typeOf name) = false) ∧
      lists.types.resolve? ids.type ids.isNullable = some (.canonical "ARRAY<INT64>") ∧
        lists.typeOf ids = "ARRAY<INT64>" ∧
        lists.types.equivalent ids.type (lists.typeOf ids) = false := by
  decide +kernel

end Dialect

end SchemaPlan
