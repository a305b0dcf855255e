import Mathlib.Data.List.Basic
import SchemaPlan.Proofs.GenericSpelling

/-!
# Generic spellings behind a path

`Option<T>` and `Vec<T>` may be written with a path in front of the name. Whether a field accepts
null does not depend on the path, and neither does the type of a spelling that is worked out from
its argument. A spelling that an entry has is another matter: the entry is found by the whole
spelling, and with a path in front there is none.

* `resolveCompact?_congr`: spellings that no entry has resolve alike if their arguments do.
* `resolveCompact_qualified_iff`: a path changes what a spelling resolves to exactly if an entry has
  the spelling.
* `Qualified.isNullable`: a path does not change whether a field accepts null.
-/
namespace SchemaPlan

open Text Ddl

/-! ## Spellings that no entry has -/

namespace Registry

variable {registry : Registry}

def HasSpelling (registry : Registry) (spelling : List Char) : Prop :=
  ∃ entry ∈ registry.entries, entry.accepts (String.ofList spelling) = true

instance (registry : Registry) (spelling : List Char) :
    Decidable (registry.HasSpelling spelling) :=
  inferInstanceAs (Decidable (∃ entry ∈ registry.entries, _))

theorem lookup?_eq_none_iff {spelling : List Char} {nullable : Bool} :
    registry.lookup? (String.ofList spelling) nullable = none ↔
      ¬registry.HasSpelling spelling := by
  simp only [lookup?, HasSpelling, Option.or_eq_none_iff, List.find?_eq_none,
    TypeEntry.accepts, Bool.or_eq_true, not_exists, not_and, not_or]
  cases nullable
  · exact ⟨fun h entry hentry => ⟨h.1 entry hentry, h.2 entry hentry⟩,
      fun h => ⟨fun entry hentry => (h entry hentry).1, fun entry hentry => (h entry hentry).2⟩⟩
  · exact ⟨fun h entry hentry => ⟨h.2 entry hentry, h.1 entry hentry⟩,
      fun h => ⟨fun entry hentry => (h entry hentry).2, fun entry hentry => (h entry hentry).1⟩⟩

theorem resolveCompact?_eq {spelling : List Char} (h : ¬registry.HasSpelling spelling)
    (nullable : Bool) :
    registry.resolveCompact? spelling nullable =
      match listElement? (stripOption spelling).1 with
      | some element =>
        registry.arrays.bind fun form =>
          (registry.resolveCompact? (stripOption element).1 (stripOption element).2).map
            (·.map form.wrap)
      | none =>
        let inner := (stripOption spelling).1
        if inner.isEmpty ||
            inner.any (fun c => c = '<' || c = '>' || c = '[' || c = '(' || c = '&') then
          none
        else some (.named (String.ofList (upperText (lastSegment inner)))) := by
  rw [resolveCompact?, lookup?_eq_none_iff.2 h]
  dsimp only
  split <;> rename_i helement <;> rw [helement]

/-- Spellings that no entry has resolve alike if they have the same element, or, being no lists, the
same argument. -/
theorem resolveCompact?_congr {a b : List Char} (ha : ¬registry.HasSpelling a)
    (hb : ¬registry.HasSpelling b)
    (helement : listElement? (stripOption a).1 = listElement? (stripOption b).1)
    (hinner : listElement? (stripOption b).1 = none → (stripOption a).1 = (stripOption b).1)
    (n m : Bool) : registry.resolveCompact? a n = registry.resolveCompact? b m := by
  rw [resolveCompact?_eq ha, resolveCompact?_eq hb, helement]
  cases h : listElement? (stripOption b).1 with
  | some element => rfl
  | none => rw [hinner h]

end Registry

/-! ## Paths -/

/-- A segment of a path: not empty, and none of the characters that end one. -/
structure Identifier (segment : String) : Prop where
  ne : segment ≠ ""
  inside : ∀ c ∈ segment.toList, isBlank c = false ∧ c ∉ [':', '<', '>', '\'']

/-- A path: its segments, each with a separator behind it. -/
def pathOf (segments : List String) : String :=
  String.join (segments.map (· ++ "::"))

/-- The characters of a path: it ends with a separator, and no other part of a spelling ends in
it. -/
structure PathPrefix (path : List Char) : Prop where
  separated : pathSeparator <:+ path
  inside : ∀ c ∈ path, isBlank c = false ∧ c ≠ '<' ∧ c ≠ '\''

theorem toList_pathOf (segments : List String) :
    (pathOf segments).toList = segments.flatMap fun segment => segment.toList ++ pathSeparator := by
  rw [pathOf, String.toList_join, List.flatMap_map]
  exact congrArg (segments.flatMap ·) (funext fun _ => String.toList_append)

theorem pathPrefix_pathOf {segments : List String} (hne : segments ≠ [])
    (h : ∀ segment ∈ segments, Identifier segment) : PathPrefix (pathOf segments).toList := by
  rw [toList_pathOf]
  constructor
  · obtain ⟨init, last, rfl⟩ := List.eq_nil_or_concat segments |>.resolve_left hne
    simp only [List.concat_eq_append, List.flatMap_append, List.flatMap_singleton,
      ← List.append_assoc]
    exact List.suffix_append _ _
  · intro c hc
    obtain ⟨segment, hsegment, hc⟩ := List.mem_flatMap.1 hc
    rcases List.mem_append.1 hc with hc | hc
    · obtain ⟨hblank, hmark⟩ := (h segment hsegment).inside c hc
      simp only [List.mem_cons, List.not_mem_nil, or_false, not_or] at hmark
      exact ⟨hblank, hmark.2.1, hmark.2.2.2⟩
    · have hall : ∀ c ∈ pathSeparator, isBlank c = false ∧ c ≠ '<' ∧ c ≠ '\'' := by decide
      exact hall c hc

/-! ## Generic spellings with and without a path -/

/-- The names of generic spellings that are taken apart. -/
def genericNames : List (List Char) :=
  ["Option".toList, "Vec".toList]

theorem angle_not_mem_name {name : List Char} (h : name ∈ genericNames) : '<' ∉ name := by
  revert name
  decide

theorem ne_nil_of_generic {name : List Char} (h : name ∈ genericNames) : name ≠ [] := by
  revert name
  decide

theorem inside_name {name : List Char} (h : name ∈ genericNames) :
    ∀ c ∈ name, isBlank c = false ∧ c ≠ '\'' := by
  revert name
  decide

section
variable {path name : List Char} (hpath : PathPrefix path) (hname : name ∈ genericNames)
include hpath hname

theorem inside_qualified : ∀ c ∈ path ++ name, isBlank c = false ∧ c ≠ '\'' :=
  List.forall_mem_append.2
    ⟨fun c hc => ⟨(hpath.inside c hc).1, (hpath.inside c hc).2.2⟩, inside_name hname⟩

theorem angle_not_mem_qualified : '<' ∉ path ++ name := by
  rw [List.mem_append, not_or]
  exact ⟨fun hmem => (hpath.inside _ hmem).2.1 rfl, angle_not_mem_name hname⟩

theorem names_qualified_iff (other : List Char) (hother : other ∈ genericNames) :
    Names (path ++ name) other ↔ Names name other := by
  -- Different names end in different letters, and a path in front does not change the last one.
  have hends : ∀ name ∈ genericNames, ∀ other ∈ genericNames,
      name.getLast? = other.getLast? ↔ name = other := by decide
  have hnamed : ∀ name ∈ genericNames, ∀ other ∈ genericNames, Names name other ↔ name = other := by
    decide
  rw [hnamed name hname other hother]
  constructor
  · intro h
    rw [← hends name hname other hother,
      ← List.getLast?_append_of_ne_nil path (ne_nil_of_generic hname)]
    rcases h with heq | ⟨front, hfront⟩
    · rw [heq]
    · rw [← hfront, List.getLast?_append_of_ne_nil _ (List.cons_ne_nil _ _)]
      exact List.getLast?_append_of_ne_nil pathSeparator (ne_nil_of_generic hother)
  · rintro rfl
    obtain ⟨front, hfront⟩ := hpath.separated
    exact .inr ⟨front, by rw [← hfront, List.append_assoc]; rfl⟩

/-- A path changes neither whether a spelling is optional, nor its element, nor, if it has none, its
argument. -/
theorem stripOption_qualified (inner : List Char) :
    (stripOption (genericSpelling (path ++ name) inner)).2 =
        (stripOption (genericSpelling name inner)).2 ∧
      listElement? (stripOption (genericSpelling (path ++ name) inner)).1 =
        listElement? (stripOption (genericSpelling name inner)).1 ∧
      (listElement? (stripOption (genericSpelling name inner)).1 = none →
        (stripOption (genericSpelling (path ++ name) inner)).1 =
          (stripOption (genericSpelling name inner)).1) := by
  have hangle := angle_not_mem_name hname
  have hangle' := angle_not_mem_qualified hpath hname
  have hoption := names_qualified_iff hpath hname "Option".toList (by decide)
  have hlist := names_qualified_iff hpath hname "Vec".toList (by decide)
  by_cases h : Names name "Option".toList
  · rw [stripOption_generic hangle h, stripOption_generic hangle' (hoption.2 h)]
    exact ⟨rfl, rfl, fun _ => rfl⟩
  · have hnamed : ∀ name ∈ genericNames,
        ¬Names name "Option".toList → Names name "Vec".toList := by decide
    have hvec := hnamed name hname h
    rw [stripOption_of_not_names hangle h, stripOption_of_not_names hangle' (mt hoption.1 h),
      listElement?_generic hangle hvec, listElement?_generic hangle' (hlist.2 hvec)]
    exact ⟨rfl, rfl, fun hnone => by cases hnone⟩

end

/-! ## What qualified spellings resolve to -/

/-- A built-in type: it is no list, its optional spellings are those of the others, and no spelling
has a path in front of one of the names. -/
structure Builtin (entry : TypeEntry) : Prop where
  scalar : '<' ∉ entry.ddlType.toList
  optional : entry.nullableSpellings = entry.spellings.map fun s => "Option<" ++ s ++ ">"
  required : ∀ spelling ∈ entry.spellings, Required spelling.toList
  unqualified : ∀ spelling ∈ entry.spellings, ∀ parts ∈ cutAt '<' spelling.toList,
    ∀ name ∈ genericNames, ¬pathSeparator ++ name <:+ parts.1

theorem builtin_of_mem {entry : TypeEntry}
    (h : entry ∈ MySql.builtinTypes ++ Spanner.builtinTypes) : Builtin entry := by
  have hscalar : ∀ entry ∈ MySql.builtinTypes ++ Spanner.builtinTypes,
      '<' ∉ entry.ddlType.toList := by
    decide +kernel
  have hoptional : ∀ entry ∈ MySql.builtinTypes ++ Spanner.builtinTypes,
      entry.nullableSpellings = entry.spellings.map fun s => "Option<" ++ s ++ ">" := by
    simp [MySql.builtinTypes, Spanner.builtinTypes, TypeEntry.ofSpellings]
  have hrequired : ∀ entry ∈ MySql.builtinTypes ++ Spanner.builtinTypes,
      ∀ spelling ∈ entry.spellings, Required spelling.toList :=
    List.forall_mem_append.2
      ⟨required_builtin (.mysql {}) rfl, required_builtin (.spanner {}) rfl⟩
  have hunqualified : ∀ entry ∈ MySql.builtinTypes ++ Spanner.builtinTypes,
      ∀ spelling ∈ entry.spellings, ∀ parts ∈ cutAt '<' spelling.toList,
        ∀ name ∈ genericNames, ¬pathSeparator ++ name <:+ parts.1 := by
    decide +kernel
  exact ⟨hscalar entry h, hoptional entry h, hrequired entry h, hunqualified entry h⟩

namespace Builtin

variable {entry : TypeEntry} (h : Builtin entry)
include h

theorem inner_mem {inner : List Char} (hinner : Compact inner)
    (haccepts : entry.accepts (String.ofList (genericSpelling "Option".toList inner)) = true) :
    String.ofList inner ∈ entry.spellings := by
  rw [TypeEntry.accepts, Bool.or_eq_true, List.contains_iff_mem, List.contains_iff_mem,
    h.optional, List.mem_map] at haccepts
  rcases haccepts with hmem | ⟨spelling, hmem, hspelling⟩
  · have hrequired := h.required _ hmem
    have hcompact : Compact (genericSpelling "Option".toList inner) := .generic rfl hinner
    rw [Required, String.toList_ofList, hcompact, stripOption_generic (by decide) (.inl rfl)]
      at hrequired
    cases hrequired
  · have hchars : genericSpelling "Option".toList spelling.toList =
        genericSpelling "Option".toList inner := by
      rw [← toList_optional, hspelling, String.toList_ofList]
    obtain ⟨-, hsame⟩ := (genericSpelling_inj (by decide) (by decide)).1 hchars
    rwa [← hsame, String.ofList_toList]

theorem not_accepts_qualified {path name : List Char} (hpath : PathPrefix path)
    (hname : name ∈ genericNames) (inner : List Char) :
    ¬entry.accepts (String.ofList (genericSpelling (path ++ name) inner)) = true := by
  have hangle := angle_not_mem_qualified hpath hname
  have hcut : cutAt '<' (genericSpelling (path ++ name) inner) =
      some (path ++ name, inner ++ ['>']) :=
    cutAt_append hangle _
  obtain ⟨front, hfront⟩ := hpath.separated
  rw [TypeEntry.accepts, Bool.or_eq_true, List.contains_iff_mem, List.contains_iff_mem,
    h.optional, List.mem_map]
  rintro (hmem | ⟨spelling, -, hspelling⟩)
  · refine h.unqualified _ hmem (path ++ name, inner ++ ['>']) ?_ name hname ⟨front, ?_⟩
    · rw [String.toList_ofList, hcut]
      rfl
    · rw [← hfront, List.append_assoc]
  · have hchars : genericSpelling "Option".toList spelling.toList =
        genericSpelling (path ++ name) inner := by
      rw [← toList_optional, hspelling, String.toList_ofList]
    obtain ⟨hhead, -⟩ := (genericSpelling_inj (by decide) hangle).1 hchars
    have hcolon : ':' ∈ path ++ name := by simp [← hfront, pathSeparator]
    rw [← hhead] at hcolon
    revert hcolon
    decide

end Builtin

/-- A spelling that an entry has resolves to the type of such an entry. -/
theorem Registry.exists_entry_of_hasSpelling {registry : Registry} {spelling : List Char}
    (h : registry.HasSpelling spelling) (nullable : Bool) :
    ∃ entry ∈ registry.entries, entry.accepts (String.ofList spelling) = true ∧
      registry.resolveCompact? spelling nullable = some (.canonical entry.ddlType) := by
  cases hlookup : registry.lookup? (String.ofList spelling) nullable with
  | none => exact absurd h (lookup?_eq_none_iff.1 hlookup)
  | some entry =>
    obtain ⟨hentry, haccepts⟩ := lookup?_mem hlookup
    refine ⟨entry, hentry, haccepts, ?_⟩
    rw [resolveCompact?, hlookup]

namespace Dialect

variable {dialect : Dialect}

theorem angle_mem_wrap {form : ArrayForm} (h : dialect.types.arrays = some form) (ddl : String) :
    '<' ∈ (form.wrap ddl).toList := by
  cases dialect with
  | mysql d => cases h
  | spanner d =>
    obtain rfl : Spanner.arrayForm = form := Option.some.inj h
    rw [ArrayForm.toList_wrap, List.append_assoc]
    exact List.mem_append_left _ (by decide)

variable (hbuiltin : dialect.types.registered = [])
include hbuiltin

theorem builtin_entry {entry : TypeEntry} (h : entry ∈ dialect.types.entries) : Builtin entry := by
  rw [Registry.entries_eq_builtins hbuiltin] at h
  cases dialect with
  | mysql d => exact builtin_of_mem (List.mem_append_left _ h)
  | spanner d => exact builtin_of_mem (List.mem_append_right _ h)

theorem resolveCompact_ne_of_unlisted {spelling : List Char}
    (h : ¬dialect.types.HasSpelling spelling) {entry : TypeEntry}
    (hentry : entry ∈ dialect.types.entries) (nullable : Bool) :
    dialect.types.resolveCompact? spelling nullable ≠ some (.canonical entry.ddlType) := by
  intro hresolve
  rcases Registry.resolve_cases hresolve with ⟨found, hlookup, -⟩ |
    ⟨form, element, inner, -, hform, -, -, hlist⟩ | ⟨-, hnamed⟩
  · rw [Registry.lookup?_eq_none_iff.2 h] at hlookup
    cases hlookup
  · cases inner with
    | named _ => cases hlist
    | canonical stored =>
      refine (builtin_entry hbuiltin hentry).scalar ?_
      rw [Resolution.canonical.inj hlist]
      exact angle_mem_wrap hform stored
  · cases hnamed

section
variable {path name : List Char} (hpath : PathPrefix path) (hname : name ∈ genericNames)
  (inner : List Char)
include hpath hname

theorem not_hasSpelling_qualified :
    ¬dialect.types.HasSpelling (genericSpelling (path ++ name) inner) := by
  rintro ⟨entry, hentry, haccepts⟩
  exact (builtin_entry hbuiltin hentry).not_accepts_qualified hpath hname inner haccepts

/-- A path changes what a spelling resolves to exactly if an entry has the spelling. -/
theorem resolveCompact_qualified_iff (nullable : Bool) :
    dialect.types.resolveCompact? (genericSpelling (path ++ name) inner) nullable =
        dialect.types.resolveCompact? (genericSpelling name inner) nullable ↔
      ¬dialect.types.HasSpelling (genericSpelling name inner) := by
  have hunlisted := not_hasSpelling_qualified hbuiltin hpath hname inner
  obtain ⟨-, helement, hinner⟩ := stripOption_qualified hpath hname inner
  constructor
  · intro hsame hlisted
    obtain ⟨entry, hentry, -, hresolve⟩ :=
      Registry.exists_entry_of_hasSpelling hlisted nullable
    exact resolveCompact_ne_of_unlisted hbuiltin hunlisted hentry nullable (hsame.trans hresolve)
  · intro h
    exact Registry.resolveCompact?_congr hunlisted h helement hinner _ _

end

end Dialect

/-! ## Fields -/

/-- The field with another spelling of its type. -/
def FieldDecl.spelledAs (field : FieldDecl) (type : String) : FieldDecl :=
  { field with type }

@[simp] theorem FieldDecl.spelledAs_type (field : FieldDecl) (type : String) :
    (field.spelledAs type).type = type := rfl

/-- A generic spelling and the same one behind a path. -/
structure Qualified (path name inner : List Char) (bare qualified : String) : Prop where
  prefixed : PathPrefix path
  generic : name ∈ genericNames
  bare_eq : bare.toList = genericSpelling name inner
  qualified_eq : qualified.toList = genericSpelling (path ++ name) inner

namespace Qualified

variable {path name inner : List Char} {bare qualified : String}
  (h : Qualified path name inner bare qualified)
include h

theorem withoutBlanks_bare :
    withoutBlanks bare.toList = genericSpelling name (withoutBlanks inner) := by
  have hcompact : ∀ name ∈ genericNames, Compact name := by decide
  rw [h.bare_eq, withoutBlanks_generic (hcompact name h.generic)]

theorem withoutBlanks_qualified :
    withoutBlanks qualified.toList = genericSpelling (path ++ name) (withoutBlanks inner) := by
  have hcompact : Compact (path ++ name) := List.filter_eq_self.2 fun c hc => by
    rw [(inside_qualified h.prefixed h.generic c hc).1]
    rfl
  rw [h.qualified_eq, withoutBlanks_generic hcompact]

theorem isNullable (field : FieldDecl) :
    (field.spelledAs qualified).isNullable = (field.spelledAs bare).isNullable := by
  have hsame := (stripOption_qualified h.prefixed h.generic (withoutBlanks inner)).1
  rw [FieldDecl.isNullable, FieldDecl.isNullable, FieldDecl.spelledAs_type,
    FieldDecl.spelledAs_type, h.withoutBlanks_bare, h.withoutBlanks_qualified, hsame]
  rfl

variable {dialect : Dialect} (hbuiltin : dialect.types.registered = [])
include hbuiltin

theorem not_hasSpelling : ¬dialect.types.HasSpelling (withoutBlanks qualified.toList) := by
  rw [h.withoutBlanks_qualified]
  exact Dialect.not_hasSpelling_qualified hbuiltin h.prefixed h.generic _

theorem resolve_iff (nullable : Bool) :
    dialect.types.resolve? qualified nullable = dialect.types.resolve? bare nullable ↔
      ¬dialect.types.HasSpelling (withoutBlanks bare.toList) := by
  rw [Registry.resolve?, Registry.resolve?, h.withoutBlanks_bare, h.withoutBlanks_qualified]
  exact Dialect.resolveCompact_qualified_iff hbuiltin h.prefixed h.generic _ nullable

end Qualified

/-- Spellings with a path of identifiers in front of `Option` or `Vec`. -/
theorem qualified_pathOf {segments : List String} (hne : segments ≠ [])
    (hsegments : ∀ segment ∈ segments, Identifier segment) {name : String}
    (hname : name ∈ ["Option", "Vec"]) (inner : String) :
    Qualified (pathOf segments).toList name.toList inner.toList (name ++ "<" ++ inner ++ ">")
      (pathOf segments ++ (name ++ "<" ++ inner ++ ">")) where
  prefixed := pathPrefix_pathOf hne hsegments
  generic := List.mem_map_of_mem hname
  bare_eq := toList_generic name inner
  qualified_eq := by
    rw [String.toList_append, toList_generic, genericSpelling, genericSpelling, List.append_assoc]

end SchemaPlan
