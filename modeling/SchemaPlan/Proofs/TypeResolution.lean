import SchemaPlan.Dialect
import SchemaPlan.Proofs.ColumnType
import SchemaPlan.Proofs.Quoting

/-!
# Types and the spellings that they store

A spelling that resolves to a type of the dialect is accepted by the type that its field gets,
whatever size the field asks for. The other way round, the spelling of a stored type is never an
optional one, unless the type accepts null.

* `Registry.resolve_cases`: the three ways in which a spelling resolves.
* `Registry.Found`: the entry that a spelling is found in, through the lists that it is made of.
* `MySql.equivalent_typeOf`, `Spanner.equivalent_typeOf`: the type of a field accepts its spelling.
-/
namespace SchemaPlan

open Text Ddl

/-! ## Resolved spellings -/

namespace Registry

variable {registry : Registry}

theorem element_shorter {spelling element : List Char}
    (h : listElement? (stripOption spelling).1 = some element) :
    (stripOption element).1.length < spelling.length := by
  have h1 := stripOption_length element
  have h2 := genericArgument?_length h
  have h3 := stripOption_length spelling
  omega

theorem entries_eq_builtins (h : registry.registered = []) :
    registry.entries = registry.builtins := by
  rw [entries, h, List.append_nil]

theorem lookup?_mem {spelling : String} {nullable : Bool} {entry : TypeEntry}
    (h : registry.lookup? spelling nullable = some entry) :
    entry ∈ registry.entries ∧ entry.accepts spelling = true := by
  unfold lookup? at h
  have hfound : ∃ which, registry.entries.find?
      (fun entry => (entry.spellingsFor which).contains spelling) = some entry := by
    rcases Option.or_eq_some_iff.1 h with h | ⟨-, h⟩
    · exact ⟨nullable, h⟩
    · exact ⟨!nullable, h⟩
  obtain ⟨which, hfind⟩ := hfound
  have hcontains := List.find?_some hfind
  refine ⟨List.mem_of_find?_eq_some hfind, ?_⟩
  unfold TypeEntry.spellingsFor at hcontains
  cases which <;> simp_all [TypeEntry.accepts]

/-- A spelling resolves because an entry has it, as a list through its element, or, if it has no
brackets, as a name. -/
theorem resolve_cases {spelling : List Char} {nullable : Bool} {resolution : Resolution}
    (h : registry.resolveCompact? spelling nullable = some resolution) :
    (∃ entry, registry.lookup? (String.ofList spelling) nullable = some entry ∧
        resolution = .canonical entry.ddlType) ∨
      (∃ form element inner, registry.lookup? (String.ofList spelling) nullable = none ∧
        registry.arrays = some form ∧ listElement? (stripOption spelling).1 = some element ∧
        registry.resolveCompact? (stripOption element).1 (stripOption element).2 = some inner ∧
        resolution = inner.map form.wrap) ∨
      '(' ∉ (stripOption spelling).1 ∧ resolution =
        .named (String.ofList (upperText (lastSegment (stripOption spelling).1))) := by
  rw [resolveCompact?] at h
  split at h
  · rename_i entry hlookup
    exact .inl ⟨entry, hlookup, (Option.some.inj h).symm⟩
  · rename_i hlookup
    split at h
    · rename_i element helement
      obtain ⟨form, hform, h⟩ := Option.bind_eq_some_iff.1 h
      obtain ⟨inner, hinner, hmap⟩ := Option.map_eq_some_iff.1 h
      exact .inr (.inl ⟨form, element, inner, hlookup, hform, helement, hinner, hmap.symm⟩)
    · dsimp only at h
      split at h
      · cases h
      · rename_i hmarks
        simp only [Bool.or_eq_true, List.any_eq_true, decide_eq_true_eq, not_or, not_exists,
          not_and] at hmarks
        exact .inr (.inr ⟨fun hmem => (hmarks.2 '(' hmem).1.2 rfl, (Option.some.inj h).symm⟩)

/-- A spelling resolves to a type because an entry has it, or as a list because an entry has what
the list is made of. -/
inductive Found (registry : Registry) :
    (spelling : List Char) → (nullable : Bool) → (ddl : String) → (inner : List Char) →
      (entry : TypeEntry) → Prop
  | entry {spelling nullable entry}
    (hlookup : registry.lookup? (String.ofList spelling) nullable = some entry) :
    Found registry spelling nullable entry.ddlType spelling entry
  | list {spelling nullable form element ddl inner entry}
    (hlookup : registry.lookup? (String.ofList spelling) nullable = none)
    (hform : registry.arrays = some form)
    (helement : listElement? (stripOption spelling).1 = some element)
    (hinner : Found registry (stripOption element).1 (stripOption element).2 ddl inner entry) :
    Found registry spelling nullable (form.wrap ddl) inner entry

theorem Found.entry_mem {spelling inner : List Char} {nullable : Bool} {ddl : String}
    {entry : TypeEntry} (h : registry.Found spelling nullable ddl inner entry) :
    entry ∈ registry.entries ∧ entry.accepts (String.ofList inner) = true := by
  induction h with
  | entry hlookup => exact lookup?_mem hlookup
  | list _ _ _ _ ih => exact ih

/-- A spelling that resolves to a type is found in an entry. -/
theorem exists_found {spelling : List Char} {nullable : Bool} {ddl : String}
    (h : registry.resolveCompact? spelling nullable = some (.canonical ddl)) :
    ∃ inner entry, registry.Found spelling nullable ddl inner entry := by
  -- The induction follows the lists that the spelling is made of.
  induction hlength : spelling.length using Nat.strongRecOn generalizing spelling nullable ddl with
  | ind n ih =>
    rcases resolve_cases h with ⟨entry, hlookup, heq⟩ |
      ⟨form, element, resolution, hlookup, hform, helement, hresolution, heq⟩ | ⟨-, heq⟩
    · obtain rfl := Resolution.canonical.inj heq
      exact ⟨spelling, entry, .entry hlookup⟩
    · have hshorter : (stripOption element).1.length < n :=
          hlength ▸ element_shorter helement
      cases resolution with
      | named _ => cases heq
      | canonical stored =>
        obtain rfl := Resolution.canonical.inj heq
        obtain ⟨inner, entry, hinner⟩ := ih _ hshorter hresolution rfl
        exact ⟨inner, entry, .list hlookup hform helement hinner⟩
    · cases heq

/-! ## Accepted spellings -/

/-- Some entry has a spelling and the base of a type. -/
def Lists (registry : Registry) (spelling ddl : List Char) : Prop :=
  ∃ entry ∈ registry.entries, baseTypeChars entry.ddlType.toList = baseTypeChars ddl ∧
    entry.accepts (String.ofList spelling) = true

/-- Whether a stored type accepts a spelling is seen from its normal form. -/
theorem equivalentCompact_normalize (registry : Registry) (spelling ddl : List Char) :
    registry.equivalentCompact spelling (normalizeChars ddl) =
      registry.equivalentCompact spelling ddl := by
  have hidem : normalizeChars (normalizeChars ddl) = normalizeChars ddl := normalizeChars_idem ddl
  rw [equivalentCompact, equivalentCompact.eq_def _ _ ddl, hidem]

/-- A list type accepts the lists whose elements are accepted by its element type. -/
theorem equivalentCompact_list_iff {spelling ddl stored : List Char}
    (hnormal : normalizeChars ddl = ddl) (harray : registry.arrayElement? ddl = some stored) :
    registry.equivalentCompact spelling ddl = true ↔
      ∃ element, listElement? (stripOption spelling).1 = some element ∧
        registry.equivalentCompact (stripOption element).1 stored = true := by
  rw [equivalentCompact]
  dsimp only
  rw [hnormal]
  split
  · rename_i found hfound
    obtain rfl := Option.some.inj (harray.symm.trans hfound)
    split
    · rename_i element helement
      simp [helement]
    · rename_i hnone
      simp [hnone]
  · rename_i hfound
    rw [harray] at hfound
    cases hfound

theorem equivalentCompact_iff_lists {spelling ddl : List Char} (hnormal : normalizeChars ddl = ddl)
    (harray : registry.arrayElement? ddl = none) :
    registry.equivalentCompact spelling ddl = true ↔ registry.Lists spelling ddl := by
  rw [equivalentCompact]
  dsimp only
  rw [hnormal]
  split
  · rename_i hfound
    rw [harray] at hfound
    cases hfound
  · rw [List.any_eq_true]
    refine exists_congr fun entry => and_congr_right fun _ => ?_
    simp only [Bool.and_eq_true, Bool.or_eq_true, decide_eq_true_eq]
    exact and_congr_left fun _ => or_iff_right_of_imp fun hsame => congrArg _ hsame

end Registry

/-! ## Types that accept what an entry stores -/

instance (cs : List Char) : Decidable (Normal cs) :=
  inferInstanceAs (Decidable (normalizeChars cs = cs))

/-- A type in normal form that may hold what an entry stores. -/
structure Holds (entries : List TypeEntry) (entry : TypeEntry) (ddl : List Char) : Prop where
  normal : Normal ddl
  holder : ∃ other ∈ entries, baseTypeChars other.ddlType.toList = baseTypeChars ddl ∧
    (∀ spelling ∈ entry.spellings, spelling ∈ other.spellings) ∧
    ∀ spelling ∈ entry.nullableSpellings, spelling ∈ other.nullableSpellings

instance (entries : List TypeEntry) (entry : TypeEntry) (ddl : List Char) :
    Decidable (Holds entries entry ddl) :=
  decidable_of_iff (Normal ddl ∧ ∃ other ∈ entries,
      baseTypeChars other.ddlType.toList = baseTypeChars ddl ∧
      (∀ spelling ∈ entry.spellings, spelling ∈ other.spellings) ∧
      ∀ spelling ∈ entry.nullableSpellings, spelling ∈ other.nullableSpellings)
    ⟨fun ⟨h₁, h₂⟩ => ⟨h₁, h₂⟩, fun ⟨h₁, h₂⟩ => ⟨h₁, h₂⟩⟩

theorem baseTypeChars_of_baseType {ddl name : String} (h : baseType ddl = name) :
    baseTypeChars ddl.toList = name.toList := by
  rw [← h, baseType, String.toList_ofList]

theorem holds_arguments {entries : List TypeEntry} {entry : TypeEntry} (hentry : entry ∈ entries)
    {name arguments : List Char} (hbase : baseTypeChars entry.ddlType.toList = name)
    (hname : ∀ c ∈ name, Inner c) (harguments : ∀ c ∈ arguments, Inner c) :
    Holds entries entry (withArguments name arguments) :=
  ⟨normal_of_plain (plain_arguments hname harguments), entry, hentry,
    hbase.trans (baseTypeChars_arguments hname harguments).symm, fun _ h => h, fun _ h => h⟩

theorem Registry.equivalent_of_holds {registry : Registry} {entry : TypeEntry} {ddl : List Char}
    {spelling : List Char} (hholds : Holds registry.entries entry ddl)
    (harray : registry.arrayElement? ddl = none)
    (haccepts : entry.accepts (String.ofList spelling) = true) :
    registry.equivalentCompact spelling ddl = true := by
  obtain ⟨hnormal, other, hother, hbase, hspellings, hnullable⟩ := hholds
  refine (equivalentCompact_iff_lists hnormal harray).2 ⟨other, hother, hbase, ?_⟩
  simp only [TypeEntry.accepts, Bool.or_eq_true, List.contains_eq_mem,
    decide_eq_true_eq] at haccepts ⊢
  exact haccepts.imp (hspellings _) (hnullable _)

/-! ## MySQL -/

namespace MySql

theorem toList_withArgument (name : String) (argument : UInt64) :
    (withArgument name argument).toList =
      withArguments name.toList (Decimal.decimal argument.toNat).toList := by
  simp [withArgument, withArguments]

theorem toList_decimalType (precision scale : Nat) :
    ("DECIMAL(" ++ Decimal.decimal precision ++ "," ++ Decimal.decimal scale ++ ")").toList =
      withArguments "DECIMAL".toList
        ((Decimal.decimal precision).toList ++ ',' :: (Decimal.decimal scale).toList) := by
  simp [withArguments]

theorem inner_decimalArguments (precision scale : Nat) :
    ∀ c ∈ (Decimal.decimal precision).toList ++ ',' :: (Decimal.decimal scale).toList,
      Inner c := by
  simp only [List.forall_mem_append, List.forall_mem_cons]
  exact ⟨inner_decimal _, by decide, inner_decimal _⟩

variable {entry : TypeEntry}

theorem holds_builtin (h : entry ∈ builtinTypes) :
    Holds builtinTypes entry entry.ddlType.toList := by
  have hall : ∀ entry ∈ builtinTypes, Normal entry.ddlType.toList := by decide +kernel
  exact ⟨hall entry h, entry, h, rfl, fun _ h => h, fun _ h => h⟩

/-- The types for longer texts and bytes hold what the sized ones do. -/
theorem holds_long (h : entry ∈ builtinTypes) :
    (baseType entry.ddlType = "VARCHAR" →
      ∀ long ∈ ["MEDIUMTEXT", "LONGTEXT"], Holds builtinTypes entry long.toList) ∧
    (baseType entry.ddlType = "VARBINARY" →
      ∀ long ∈ ["MEDIUMBLOB", "LONGBLOB"], Holds builtinTypes entry long.toList) := by
  revert entry
  decide +kernel

theorem name_of_moment (h : entry ∈ builtinTypes)
    (hbase : baseType entry.ddlType ∈ ["DATETIME", "TIMESTAMP", "TIME"]) :
    baseTypeChars entry.ddlType.toList = entry.ddlType.toList ∧
      ∀ c ∈ entry.ddlType.toList, Inner c := by
  revert entry
  decide +kernel

theorem holds_typeForLength (h : entry ∈ builtinTypes) {name medium long : String}
    (hbase : baseType entry.ddlType = name) (hname : ∀ c ∈ name.toList, Inner c)
    (hlong : ∀ ddl ∈ [medium, long], Holds builtinTypes entry ddl.toList) (limit length : UInt64) :
    Holds builtinTypes entry (typeForLength name limit medium long length).toList := by
  unfold typeForLength
  split
  · rw [toList_withArgument]
    exact holds_arguments h (baseTypeChars_of_baseType hbase) hname (inner_decimal _)
  · split
    · exact hlong medium (by simp)
    · exact hlong long (by simp)

/-- Whatever size a field asks for, its type holds what the entry does. -/
theorem holds_sizedType (h : entry ∈ builtinTypes) (field : FieldDecl) :
    Holds builtinTypes entry (sizedType entry.ddlType field).toList := by
  have hself := holds_builtin h
  unfold sizedType
  dsimp only
  split
  · rename_i hbase
    cases field.size with
    | none => exact hself
    | some size =>
      exact holds_typeForLength h hbase (by decide) ((holds_long h).1 hbase) 16383 size
  split
  · rename_i hbase
    cases field.size with
    | none => exact hself
    | some size =>
      exact holds_typeForLength h hbase (by decide) ((holds_long h).2 hbase) 65532 size
  split
  · rename_i hbase
    split
    · rw [toList_decimalType]
      exact holds_arguments h (baseTypeChars_of_baseType hbase) (by decide)
        (inner_decimalArguments _ _)
    · exact hself
  split
  · rename_i hbase
    split
    · split
      · rw [toList_withArgument]
        obtain ⟨hname, hinner⟩ := name_of_moment h (by simpa [or_assoc] using hbase)
        exact holds_arguments h hname hinner (inner_decimal _)
      · exact hself
    · exact hself
  · exact hself

variable {dialect : MySql}

theorem found_entry {spelling inner : List Char} {nullable : Bool} {ddl : String}
    (h : dialect.types.Found spelling nullable ddl inner entry) :
    ddl = entry.ddlType ∧ inner = spelling := by
  cases h with
  | entry => exact ⟨rfl, rfl⟩
  | list _ hform => cases hform

theorem canonical_entry {spelling : List Char} {nullable : Bool} {ddl : String}
    (h : dialect.types.resolveCompact? spelling nullable = some (.canonical ddl)) :
    ∃ entry ∈ dialect.types.entries, entry.accepts (String.ofList spelling) = true ∧
      ddl = entry.ddlType := by
  obtain ⟨inner, entry, hfound⟩ := Registry.exists_found h
  obtain ⟨rfl, rfl⟩ := found_entry hfound
  exact ⟨entry, hfound.entry_mem.1, hfound.entry_mem.2, rfl⟩

/-- The type of a field accepts the spelling that it was found by. -/
theorem equivalent_typeOf (h : dialect.registered = []) {field : FieldDecl}
    (hddl : field.ddlType = none) {ddl : String}
    (hresolve : dialect.types.resolve? field.type field.isNullable = some (.canonical ddl)) :
    dialect.types.equivalent field.type (dialect.typeOf field) = true := by
  obtain ⟨entry, hentry, haccepts, rfl⟩ := canonical_entry hresolve
  have hentries : dialect.types.entries = builtinTypes := Registry.entries_eq_builtins h
  have hholds := holds_sizedType (hentries ▸ hentry) field
  rw [← hentries] at hholds
  unfold typeOf
  rw [hddl, hresolve]
  exact Registry.equivalent_of_holds hholds rfl haccepts

end MySql

/-! ## Spanner -/

theorem ArrayForm.toList_wrap (form : ArrayForm) (element : String) :
    (form.wrap element).toList = form.before.toList ++ element.toList ++ form.after.toList := by
  rw [wrap, String.toList_append, String.toList_append]

theorem ArrayForm.element?_wrap (form : ArrayForm) (element : String) :
    form.element? (form.wrap element).toList = some element.toList := by
  rw [element?, toList_wrap, List.append_assoc, afterWord?_append, Option.bind_some,
    beforeWord?_append]

namespace Spanner

/-- A type with the length that a field asks for, if it does. -/
def sized (size : Option UInt64) (ddl : String) : String :=
  (size.map fun size => sizedType size ddl.toList).getD ddl

theorem sized_wrap (size : Option UInt64) (element : String) :
    sized size (arrayForm.wrap element) = arrayForm.wrap (sized size element) := by
  cases size with
  | none => rfl
  | some size =>
    rw [sized, Option.map_some, Option.getD_some, sizedType]
    split
    · rename_i inner helement
      rw [ArrayForm.element?_wrap] at helement
      obtain rfl := Option.some.inj helement
      rfl
    · rename_i helement
      rw [ArrayForm.element?_wrap] at helement
      cases helement

theorem plain_wrap {element : String} (h : ∀ c ∈ element.toList, Plain c) :
    ∀ c ∈ (arrayForm.wrap element).toList, Plain c := by
  simp only [ArrayForm.toList_wrap, List.forall_mem_append]
  exact ⟨⟨by decide, h⟩, by decide⟩

/-- A length changes a type into a plain one or not at all. -/
theorem sizedType_cases (size : UInt64) (ddl : List Char) :
    sizedType size ddl = String.ofList ddl ∨ ∀ c ∈ (sizedType size ddl).toList, Plain c := by
  induction hlength : ddl.length using Nat.strongRecOn generalizing ddl with
  | ind n ih =>
    rw [sizedType]
    split
    · rename_i element helement
      have htext := ArrayForm.eq_of_element? helement
      have hshorter : element.length < n := by
        have hbefore : 0 < arrayForm.before.toList.length := by decide
        rw [← hlength, htext, List.length_append, List.length_append]
        omega
      refine (ih _ hshorter element rfl).imp (fun hsame => ?_) plain_wrap
      rw [hsame, htext, ← String.toList_inj, ArrayForm.toList_wrap, String.toList_ofList,
        String.toList_ofList]
    · have hsized : ∀ start : String, (∀ c ∈ start.toList, Plain c) →
          ∀ c ∈ (start ++ Decimal.decimal size.toNat ++ ")").toList, Plain c := by
        intro start hstart
        simp only [String.toList_append, List.forall_mem_append]
        exact ⟨⟨hstart, fun c hc => (inner_decimal _ c hc).toPlain⟩, by decide⟩
      dsimp only
      split
      · exact .inr (hsized "STRING(" (by decide))
      · split
        · exact .inr (hsized "BYTES(" (by decide))
        · exact .inl rfl

theorem plain_sized {ddl : String} (h : ∀ c ∈ ddl.toList, Plain c) (size : Option UInt64) :
    ∀ c ∈ (sized size ddl).toList, Plain c := by
  cases size with
  | none => exact h
  | some size =>
    rw [sized, Option.map_some, Option.getD_some]
    rcases sizedType_cases size ddl.toList with hsame | hplain
    · rwa [hsame, String.ofList_toList]
    · exact hplain

theorem named_length {name start : String} (hname : ∀ c ∈ name.toList, Inner c)
    (helement : ∀ arguments, arrayForm.element? (withArguments name.toList arguments) = none)
    (hstart : start = name ++ "(") (size : UInt64) :
    arrayForm.element? (start ++ Decimal.decimal size.toNat ++ ")").toList = none ∧
      baseTypeChars (start ++ Decimal.decimal size.toNat ++ ")").toList = name.toList := by
  have htext : (start ++ Decimal.decimal size.toNat ++ ")").toList =
      withArguments name.toList (Decimal.decimal size.toNat).toList := by
    simp [hstart, withArguments]
  rw [htext]
  exact ⟨helement _, baseTypeChars_arguments hname (inner_decimal _)⟩

/-- A type that stores no list keeps its base at every size. -/
theorem sized_scalar {ddl : String} (h : arrayForm.element? ddl.toList = none)
    (size : Option UInt64) : arrayForm.element? (sized size ddl).toList = none ∧
      baseTypeChars (sized size ddl).toList = baseTypeChars ddl.toList := by
  cases size with
  | none => exact ⟨h, rfl⟩
  | some size =>
    rw [sized, Option.map_some, Option.getD_some, sizedType]
    split
    · rename_i helement
      rw [h] at helement
      cases helement
    · rw [String.ofList_toList]
      dsimp only
      split
      · rename_i hcond
        rw [Bool.and_eq_true, decide_eq_true_eq] at hcond
        rw [baseTypeChars_of_baseType hcond.1]
        exact @named_length "STRING" "STRING(" (by decide) (fun _ => rfl) rfl size
      · split
        · rename_i hcond
          rw [Bool.and_eq_true, decide_eq_true_eq] at hcond
          rw [baseTypeChars_of_baseType hcond.1]
          exact @named_length "BYTES" "BYTES(" (by decide) (fun _ => rfl) rfl size
        · exact ⟨h, rfl⟩

variable {entry : TypeEntry}

/-- A type of an entry: it holds what the entry does, the walk copies it, and it is no list. -/
structure Scalar (entry : TypeEntry) (ddl : List Char) : Prop where
  holds : Holds builtinTypes entry ddl
  plain : ∀ c ∈ ddl, Plain c
  no_element : arrayForm.element? ddl = none

theorem scalar_builtin (h : entry ∈ builtinTypes) : Scalar entry entry.ddlType.toList := by
  have hall : ∀ entry ∈ builtinTypes, Normal entry.ddlType.toList ∧
      (∀ c ∈ entry.ddlType.toList, Plain c) ∧ arrayForm.element? entry.ddlType.toList = none := by
    decide +kernel
  obtain ⟨hnormal, hplain, helement⟩ := hall entry h
  exact ⟨⟨hnormal, entry, h, rfl, fun _ h => h, fun _ h => h⟩, hplain, helement⟩

theorem scalar_sized (h : entry ∈ builtinTypes) (size : Option UInt64) :
    Scalar entry (sized size entry.ddlType).toList := by
  have hself := scalar_builtin h
  have hplain := plain_sized hself.plain size
  obtain ⟨helement, hbase⟩ := sized_scalar hself.no_element size
  exact ⟨⟨normal_of_plain hplain, entry, h, hbase.symm, fun _ h => h, fun _ h => h⟩, hplain,
    helement⟩

variable {dialect : Spanner}

theorem equivalent_wrap {spelling element : List Char} {ddl : String}
    (hplain : ∀ c ∈ ddl.toList, Plain c)
    (helement : listElement? (stripOption spelling).1 = some element)
    (hequivalent : dialect.types.equivalentCompact (stripOption element).1 ddl.toList = true) :
    dialect.types.equivalentCompact spelling (arrayForm.wrap ddl).toList = true := by
  have hstored : dialect.types.arrayElement? (arrayForm.wrap ddl).toList = some ddl.toList :=
    ArrayForm.element?_wrap arrayForm ddl
  exact (Registry.equivalentCompact_list_iff (normal_of_plain (plain_wrap hplain)) hstored).2
    ⟨element, helement, hequivalent⟩

/-- A type that a spelling resolves to accepts it at every size. -/
theorem equivalent_sized (h : dialect.registered = []) (size : Option UInt64) {spelling : List Char}
    {nullable : Bool} {ddl : String}
    (hresolve : dialect.types.resolveCompact? spelling nullable = some (.canonical ddl)) :
    (∀ c ∈ (sized size ddl).toList, Plain c) ∧
      dialect.types.equivalentCompact spelling (sized size ddl).toList = true := by
  obtain ⟨inner, entry, hfound⟩ := Registry.exists_found hresolve
  clear hresolve
  have hentries : dialect.types.entries = builtinTypes := Registry.entries_eq_builtins h
  induction hfound with
  | entry hlookup =>
    obtain ⟨hentry, haccepts⟩ := Registry.lookup?_mem hlookup
    have hscalar := scalar_sized (hentries ▸ hentry) size
    refine ⟨hscalar.plain, Registry.equivalent_of_holds ?_ hscalar.no_element haccepts⟩
    rw [hentries]
    exact hscalar.holds
  | list hlookup hform helement hinner ih =>
    obtain rfl := Option.some.inj hform
    obtain ⟨hplain, hequivalent⟩ := ih
    rw [sized_wrap]
    exact ⟨plain_wrap hplain, equivalent_wrap hplain helement hequivalent⟩

/-- The type of a field accepts the spelling that it was found by. -/
theorem equivalent_typeOf (h : dialect.registered = []) {field : FieldDecl}
    (hddl : field.ddlType = none) {ddl : String}
    (hresolve : dialect.types.resolve? field.type field.isNullable = some (.canonical ddl)) :
    dialect.types.equivalent field.type (dialect.typeOf field) = true := by
  unfold typeOf
  rw [hddl, hresolve]
  exact (equivalent_sized h field.size hresolve).2

end Spanner

/-! ## Spellings of stored types -/

def Required (spelling : List Char) : Prop :=
  (stripOption (withoutBlanks spelling)).2 = false

instance (spelling : List Char) : Decidable (Required spelling) :=
  inferInstanceAs (Decidable (_ = false))

/-- An optional spelling starts with `Option<`, or with a path that ends so. -/
theorem optional_cases {spelling : List Char} (h : (stripOption spelling).2 = true) :
    ∃ head rest, spelling = head ++ '<' :: rest ∧
      (head = "Option".toList ∨ "::Option".toList <:+ head) := by
  unfold stripOption at h
  split at h
  · rename_i inner hinner
    obtain ⟨⟨head, rest⟩, hcut, hinner⟩ := Option.bind_eq_some_iff.1 hinner
    dsimp only at hinner
    split at hinner
    · rename_i hhead
      rw [Bool.or_eq_true, decide_eq_true_eq, List.isSuffixOf_iff_suffix] at hhead
      exact ⟨head, rest, eq_of_cutAt hcut, hhead⟩
    · cases hinner
  · cases h

theorem required_list (element : String) : Required ("Vec<" ++ element ++ ">").toList := by
  have htext : withoutBlanks ("Vec<" ++ element ++ ">").toList =
      "Vec".toList ++ '<' :: withoutBlanks (element.toList ++ ['>']) := by
    rw [String.toList_append, String.toList_append, List.append_assoc, withoutBlanks,
      List.filter_append]
    rfl
  have hnone : genericArgument? "Option".toList
      ("Vec".toList ++ '<' :: withoutBlanks (element.toList ++ ['>'])) = none := by
    rw [genericArgument?, cutAt_append (by decide)]
    rfl
  rw [Required, htext, stripOption, hnone]

def pathSeparator : List Char := "::".toList

/-- A type in normal form is no optional spelling, unless it has a path in quotes. -/
theorem required_of_normal {ddl : List Char} (hnormal : Normal ddl)
    (hpath : occursIn pathSeparator (withoutBlanks ddl) = false) : Required ddl := by
  refine Bool.eq_false_iff.2 fun htrue => ?_
  obtain ⟨head, rest, htext, hhead⟩ := optional_cases htrue
  rcases hhead with rfl | hhead
  · have hmem : 'p' ∈ (withoutBlanks ddl).takeWhile (· != '\'') := by
      rw [htext]
      simp
    rw [← (normal_iff.1 hnormal).2] at hmem
    exact absurd (upper_of_mem_takeWhile hmem) (by decide)
  · have hinfix : pathSeparator <:+: withoutBlanks ddl := by
      have hseparator : pathSeparator <:+: "::Option".toList := ⟨[], "Option".toList, rfl⟩
      rw [htext]
      exact (hseparator.trans hhead.isInfix).trans (List.infix_append' [] head _)
    rw [occursIn_iff.2 hinfix] at hpath
    cases hpath

theorem Registry.canonicalFrom_cases {registry : Registry} {ddl : List Char} {nullable : Bool}
    {spelling : String} (h : registry.canonicalFrom? ddl nullable = some spelling) :
    (∃ stored inner, registry.arrayElement? ddl = some stored ∧
        (upperText (normalizeChars stored)).length < (upperText ddl).length ∧
        registry.canonicalFrom? (normalizeChars stored) false = some inner ∧
        spelling = if nullable then "Option<" ++ ("Vec<" ++ inner ++ ">") ++ ">"
          else "Vec<" ++ inner ++ ">") ∨
      registry.arrayElement? ddl = none ∧
        ∃ entry ∈ registry.entries, baseTypeChars entry.ddlType.toList = baseTypeChars ddl ∧
          spelling ∈ entry.spellingsFor nullable := by
  rw [canonicalFrom?] at h
  split at h
  · rename_i stored hstored
    split at h
    · rename_i hshorter
      obtain ⟨inner, hinner, hspelling⟩ := Option.map_eq_some_iff.1 h
      exact .inl ⟨stored, inner, hstored, hshorter, hinner, hspelling.symm⟩
    · cases h
  · rename_i hnone
    obtain ⟨entry, hentry, hhead⟩ := Option.bind_eq_some_iff.1 h
    refine .inr ⟨hnone, entry, ?_, ?_, List.mem_of_head? hhead⟩
    · rcases Option.or_eq_some_iff.1 hentry with hfound | ⟨-, hfound⟩
      · exact List.mem_of_find?_eq_some hfound
      · exact List.mem_of_find?_eq_some hfound
    · rcases Option.or_eq_some_iff.1 hentry with hfound | ⟨-, hfound⟩
      · exact congrArg baseTypeChars (by simpa using List.find?_some hfound)
      · simpa using List.find?_some hfound

theorem Registry.canonicalSource_cases {registry : Registry} {ddl spelling : String}
    (h : registry.canonicalSource? ddl false = some spelling) :
    (∃ element, spelling = "Vec<" ++ element ++ ">") ∨
      ∃ entry ∈ registry.entries, spelling ∈ entry.spellings := by
  rcases canonicalFrom_cases h with ⟨_, element, -, -, -, rfl⟩ | ⟨-, entry, hentry, -, hspelling⟩
  · exact .inl ⟨element, rfl⟩
  · exact .inr ⟨entry, hentry, hspelling⟩

theorem required_builtin (dialect : Dialect) (h : dialect.types.registered = []) :
    ∀ entry ∈ dialect.types.entries, ∀ spelling ∈ entry.spellings, Required spelling.toList := by
  have hmysql : ∀ entry ∈ MySql.builtinTypes, ∀ spelling ∈ entry.spellings,
      Required spelling.toList := by
    decide +kernel
  have hspanner : ∀ entry ∈ Spanner.builtinTypes, ∀ spelling ∈ entry.spellings,
      Required spelling.toList := by
    decide +kernel
  rw [Registry.entries_eq_builtins h]
  cases dialect with
  | mysql d => exact hmysql
  | spanner d => exact hspanner

/-- The source type of a live column that does not accept null is not optional. -/
theorem required_canonicalSource {dialect : Dialect} (h : dialect.types.registered = [])
    {ddl : String} (hddl : Required ddl.toList) :
    Required ((dialect.types.canonicalSource? ddl false).getD ddl).toList := by
  cases hsource : dialect.types.canonicalSource? ddl false with
  | none => exact hddl
  | some spelling =>
    rcases Registry.canonicalSource_cases hsource with ⟨element, rfl⟩ | ⟨entry, hentry, hmem⟩
    · exact required_list element
    · exact required_builtin dialect h entry hentry spelling hmem

end SchemaPlan
