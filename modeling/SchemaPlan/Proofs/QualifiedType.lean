import SchemaPlan.Proofs.QualifiedSpelling
import SchemaPlan.Proofs.TypeBrackets

/-!
# The types of fields with a path in their spelling

A path in front of `Option<T>` or `Vec<T>` does not change whether a field accepts null. It does not
change the type either, if the type is worked out from the argument. The type of an entry is found
by the whole spelling, though: behind a path it is lost, and the field is stored under the name of
its argument, as another list, or as its own text. A few types go by the name of their spelling, so
that the loss does not show.

* `angle_mem_typeOf`: lists and spellings without a type keep an angle bracket.
* `echoes_builtin`: which types go by the name of their spelling.
* `typeOf_unlisted_iff`, `typeOf_listed_iff`: when a path leaves the type of a field as it is.
* `qualified_spelling_iff`: all that a path changes.
-/
namespace SchemaPlan

open Text Ddl

/-! ## Types with an angle bracket -/

/-- Without an entry of its own, a spelling with an angle bracket resolves only as a list. -/
theorem Registry.list_of_angle {registry : Registry} {spelling : List Char}
    (hunlisted : ¬registry.HasSpelling spelling) (hangle : '<' ∈ (stripOption spelling).1)
    {nullable : Bool} {resolution : Resolution}
    (h : registry.resolveCompact? spelling nullable = some resolution) :
    ∃ form inner, registry.arrays = some form ∧
      resolution = Resolution.map form.wrap inner := by
  rw [Registry.resolveCompact?_eq hunlisted] at h
  split at h
  · obtain ⟨form, hform, h⟩ := Option.bind_eq_some_iff.1 h
    obtain ⟨inner, -, rfl⟩ := Option.map_eq_some_iff.1 h
    exact ⟨form, inner, hform, rfl⟩
  · have hmarks : (stripOption spelling).1.any
        (fun c => c = '<' || c = '>' || c = '[' || c = '(' || c = '&') = true :=
      List.any_eq_true.2 ⟨'<', hangle, by decide⟩
    dsimp only at h
    rw [if_pos (by rw [hmarks, Bool.or_true])] at h
    cases h

namespace Dialect

variable {dialect : Dialect}

theorem angle_mem_sizedType_wrap {form : ArrayForm} (h : dialect.types.arrays = some form)
    (ddl : String) (field : FieldDecl) :
    '<' ∈ (dialect.sizedType (form.wrap ddl) field).toList := by
  cases dialect with
  | mysql d => cases h
  | spanner d =>
    obtain rfl : Spanner.arrayForm = form := Option.some.inj h
    rw [sizedType, Spanner.sized_wrap]
    exact angle_mem_wrap h _

theorem angle_mem_storedName_wrap {form : ArrayForm} (h : dialect.types.arrays = some form)
    (ddl : String) : '<' ∈ (dialect.storedName (form.wrap ddl)).toList := by
  cases dialect with
  | mysql d => cases h
  | spanner d => exact angle_mem_wrap h ddl

/-- Without an entry of its own, a spelling with an angle bracket in its argument gives a type with
one: as a list, or as its own text. -/
theorem angle_mem_typeOf {field : FieldDecl} (hown : field.ddlType = none)
    (hunlisted : ¬dialect.types.HasSpelling (withoutBlanks field.type.toList))
    (hangle : '<' ∈ (stripOption (withoutBlanks field.type.toList)).1) {head inner : List Char}
    (hhead : ∀ c ∈ head, isBlank c = false ∧ c ≠ '\'')
    (htext : field.type.toList = genericSpelling head inner) :
    '<' ∈ (dialect.typeOf field).toList := by
  rw [typeOf_of_none hown]
  split
  · rename_i ddl hresolve
    obtain ⟨form, element, hform, hlist⟩ := Registry.list_of_angle hunlisted hangle hresolve
    cases element with
    | named _ => cases hlist
    | canonical stored =>
      rw [Resolution.canonical.inj hlist]
      exact angle_mem_sizedType_wrap hform stored field
  · rename_i ddl hresolve
    obtain ⟨form, element, hform, hlist⟩ := Registry.list_of_angle hunlisted hangle hresolve
    cases element with
    | canonical _ => cases hlist
    | named stored =>
      rw [Resolution.named.inj hlist]
      exact angle_mem_storedName_wrap hform stored
  · rw [toList_normalizeType_generic hhead htext]
    simp

end Dialect

/-! ## Types that go by the name of their spelling -/

theorem MySql.sizedType_time_iff {field : FieldDecl} :
    sizedType "TIME" field = "TIME" ↔
      ∀ precision, field.precision = some precision → precision = 0 := by
  have hbase : baseType "TIME" = "TIME" := by decide +kernel
  constructor
  · intro h precision hprecision
    by_contra hne
    rw [sizedType_temporal (by rw [hbase]; decide) hprecision (UInt64.pos_iff_ne_zero.2 hne)] at h
    have hmark :=
      (@marks_withArguments "TIME".toList _ (by decide) (inner_decimal precision.toNat)).1
    rw [← toList_withArgument, h] at hmark
    revert hmark
    decide
  · intro h
    refine sizedType_own fun hresized => ?_
    cases hresized with
    | text hbase' => rw [hbase] at hbase'; revert hbase'; decide
    | bytes hbase' => rw [hbase] at hbase'; revert hbase'; decide
    | decimal hbase' => rw [hbase] at hbase'; revert hbase'; decide
    | temporal _ hprecision hpositive =>
      rw [h _ hprecision] at hpositive
      exact absurd hpositive (by decide)

namespace Dialect

variable {dialect : Dialect}

/-- The name of a spelling, in upper case. -/
def echo (spelling : String) : String :=
  String.ofList (upperText (lastSegment spelling.toList))

/-- Built-in spellings whose name, in upper case, is the type that stores them. -/
def selfNamed : Dialect → List String
  | .mysql _ => ["bool", "time::Date", "time::Time"]
  | .spanner _ => ["bool", "time::Date"]

/-- An optional field whose spelling is stored under its own name; a time has to be one without a
precision. -/
def SelfNamed (dialect : Dialect) (field : FieldDecl) : Prop :=
  ∃ name ∈ dialect.selfNamed, TypeEntry.compactSpelling field.type = "Option<" ++ name ++ ">" ∧
    (name = "time::Time" → ∀ precision, field.precision = some precision → precision = 0)

theorem angle_not_mem_selfNamed {name : String} (h : name ∈ dialect.selfNamed) :
    '<' ∉ name.toList := by
  have hall : ∀ name ∈ ["bool", "time::Date", "time::Time"], '<' ∉ name.toList := by decide
  cases dialect with
  | mysql d => exact hall name h
  | spanner d => exact hall name (List.subset_append_left _ ["time::Time"] h)

theorem selfNamed_iff {field : FieldDecl} {name inner : List Char} (hangle : '<' ∉ name)
    (hcompact : withoutBlanks field.type.toList = genericSpelling name inner) :
    dialect.SelfNamed field ↔ name = "Option".toList ∧ String.ofList inner ∈ dialect.selfNamed ∧
      (String.ofList inner = "time::Time" → ∀ precision, field.precision = some precision →
        precision = 0) := by
  have hspelling (known : String) :
      TypeEntry.compactSpelling field.type = "Option<" ++ known ++ ">" ↔
        name = "Option".toList ∧ String.ofList inner = known := by
    rw [TypeEntry.compactSpelling, hcompact, ← String.toList_inj, String.toList_ofList,
      toList_optional, genericSpelling_inj hangle (by decide)]
    exact and_congr_right fun _ =>
      ⟨fun h => by rw [h, String.ofList_toList], fun h => by rw [← h, String.toList_ofList]⟩
  constructor
  · rintro ⟨known, hknown, hsame, htime⟩
    obtain ⟨hname, rfl⟩ := (hspelling known).1 hsame
    exact ⟨hname, hknown, htime⟩
  · rintro ⟨hname, hknown, htime⟩
    exact ⟨_, hknown, (hspelling _).2 ⟨hname, rfl⟩, htime⟩

theorem resolveCompact_eq_named {spelling : List Char}
    (hunlisted : ¬dialect.types.HasSpelling spelling)
    (hmarks : ∀ c ∈ (stripOption spelling).1, c ∉ ['<', '>', '[', '(', '&'])
    (hne : (stripOption spelling).1 ≠ []) (nullable : Bool) :
    dialect.types.resolveCompact? spelling nullable =
      some (.named (echo (String.ofList (stripOption spelling).1))) := by
  have hlist : listElement? (stripOption spelling).1 = none := by
    rw [Option.eq_none_iff_forall_ne_some]
    intro element helement
    obtain ⟨parts, hcut, -⟩ := Option.bind_eq_some_iff.1 helement
    refine hmarks '<' ?_ List.mem_cons_self
    simp [eq_of_cutAt hcut]
  have hplain : ((stripOption spelling).1.isEmpty || (stripOption spelling).1.any
      (fun c => c = '<' || c = '>' || c = '[' || c = '(' || c = '&')) = false := by
    rw [Bool.or_eq_false_iff, List.isEmpty_eq_false_iff, List.any_eq_false]
    exact ⟨hne, fun c hc => by simpa [or_assoc] using hmarks c hc⟩
  rw [Registry.resolveCompact?_eq hunlisted, hlist]
  dsimp only
  rw [if_neg (by rw [hplain]; exact Bool.false_ne_true), echo, String.toList_ofList]

/-- What the name of a built-in spelling stands for. -/
structure Echoes (dialect : Dialect) (entry : TypeEntry) (spelling : String) : Prop where
  ne : spelling.toList ≠ []
  no_marks : ∀ c ∈ spelling.toList, c ∉ ['<', '>', '[', '(', '&']
  same : spelling ∈ dialect.selfNamed → dialect.storedName (echo spelling) = entry.ddlType
  other : spelling ∉ dialect.selfNamed → dialect.storedName (echo spelling) ≠ entry.ddlType ∧
    dialect.storedName (echo spelling) ∉ longTypes ∧
      '(' ∉ (dialect.storedName (echo spelling)).toList

theorem echoes_builtin (hbuiltin : dialect.types.registered = []) {entry : TypeEntry}
    (hentry : entry ∈ dialect.types.entries) {spelling : String}
    (hspelling : spelling ∈ entry.spellings) (hangle : '<' ∉ spelling.toList) :
    Echoes dialect entry spelling := by
  -- Built-in types do not depend on the server, so one dialect of each kind is checked.
  have hchecked : ∀ dialect ∈ [Dialect.mysql {}, .spanner {}], ∀ entry ∈ dialect.types.entries,
      ∀ spelling ∈ entry.spellings, '<' ∉ spelling.toList →
        spelling.toList ≠ [] ∧ (∀ c ∈ spelling.toList, c ∉ ['<', '>', '[', '(', '&']) ∧
        (spelling ∈ dialect.selfNamed → dialect.storedName (echo spelling) = entry.ddlType) ∧
        (spelling ∉ dialect.selfNamed → dialect.storedName (echo spelling) ≠ entry.ddlType ∧
          dialect.storedName (echo spelling) ∉ longTypes ∧
          '(' ∉ (dialect.storedName (echo spelling)).toList) := by
    decide +kernel
  rw [Registry.entries_eq_builtins hbuiltin] at hentry
  cases dialect with
  | mysql d =>
    obtain ⟨hne, hmarks, hsame, hother⟩ :=
      hchecked (.mysql {}) (by simp) entry (List.mem_append_left _ hentry) spelling hspelling hangle
    exact ⟨hne, hmarks, hsame, hother⟩
  | spanner d =>
    obtain ⟨hne, hmarks, hsame, hother⟩ :=
      hchecked (.spanner {}) (by simp) entry (List.mem_append_left _ hentry) spelling hspelling
        hangle
    exact ⟨hne, hmarks, hsame, hother⟩

/-- A type that goes by the name of its spelling keeps it, unless it is a time with a precision. -/
theorem sizedType_eq_self_iff (hbuiltin : dialect.types.registered = []) {entry : TypeEntry}
    (hentry : entry ∈ dialect.types.entries)
    {spelling : String} (hspelling : spelling ∈ entry.spellings)
    (hnamed : spelling ∈ dialect.selfNamed) (field : FieldDecl) :
    dialect.sizedType entry.ddlType field = entry.ddlType ↔
      (spelling = "time::Time" → ∀ precision, field.precision = some precision →
        precision = 0) := by
  rw [Registry.entries_eq_builtins hbuiltin] at hentry
  cases dialect with
  | mysql d =>
    have hchecked : ∀ entry ∈ MySql.builtinTypes, ∀ spelling ∈ entry.spellings,
        spelling ∈ selfNamed (.mysql {}) →
          spelling = "time::Time" ∧ entry.ddlType = "TIME" ∨
            spelling ≠ "time::Time" ∧ baseType entry.ddlType ∉ MySql.resizableTypes := by
      decide +kernel
    rw [sizedType]
    rcases hchecked entry hentry spelling hspelling hnamed with ⟨htime, hddl⟩ | ⟨hother, hbase⟩
    · rw [hddl, MySql.sizedType_time_iff]
      exact ⟨fun h _ => h, fun h => h htime⟩
    · exact iff_of_true (MySql.sizedType_own fun h => hbase h.mem_resizableTypes)
        fun htime => absurd htime hother
  | spanner d =>
    have hchecked : ∀ entry ∈ Spanner.builtinTypes, ∀ spelling ∈ entry.spellings,
        spelling ∈ selfNamed (.spanner {}) →
          spelling ≠ "time::Time" ∧ baseType entry.ddlType ∉ ["STRING", "BYTES"] := by
      decide +kernel
    obtain ⟨hother, hbase⟩ := hchecked entry hentry spelling hspelling hnamed
    have hscalar := (builtin_of_mem (List.mem_append_right MySql.builtinTypes hentry)).scalar
    rw [sizedType]
    exact iff_of_true ((Spanner.marks_sized hscalar field.size).resolve_right fun h => hbase h.1)
      fun htime => absurd htime hother

/-- The name of a built-in spelling is what a field of the type is stored in, exactly if the type
goes by this name and the field asks for no precision of a time. -/
theorem storedName_eq_sizedType_iff (hbuiltin : dialect.types.registered = []) {entry : TypeEntry}
    (hentry : entry ∈ dialect.types.entries) {spelling : String}
    (hspelling : spelling ∈ entry.spellings) (hangle : '<' ∉ spelling.toList) (field : FieldDecl) :
    dialect.storedName (echo spelling) = dialect.sizedType entry.ddlType field ↔
      spelling ∈ dialect.selfNamed ∧ (spelling = "time::Time" →
        ∀ precision, field.precision = some precision → precision = 0) := by
  have hechoes := echoes_builtin hbuiltin hentry hspelling hangle
  by_cases hself : spelling ∈ dialect.selfNamed
  · rw [hechoes.same hself, eq_comm, sizedType_eq_self_iff hbuiltin hentry hspelling hself]
    exact (and_iff_right hself).symm
  · obtain ⟨hne, hlong, hbracket⟩ := hechoes.other hself
    refine iff_of_false (fun hsame => ?_) fun h => hself h.1
    rcases sizedType_cases dialect (builtin_entry hbuiltin hentry).scalar field with
      hcase | hcase | ⟨hcase, -⟩
    · exact hne (hsame.trans hcase)
    · exact hlong (hsame ▸ hcase)
    · exact hbracket (hsame ▸ hcase)

end Dialect

/-! ## Fields with and without a path -/

namespace Qualified

variable {path name inner : List Char} {bare qualified : String}
  (h : Qualified path name inner bare qualified)
include h

theorem normalizeType_ne (dialect : Dialect) :
    dialect.normalizeType qualified ≠ dialect.normalizeType bare := by
  have hcolon : ':' ∈ upperText path := by
    obtain ⟨front, hfront⟩ := h.prefixed.separated
    exact List.mem_flatMap.2 ⟨':', by simp [← hfront, pathSeparator], by decide⟩
  intro hsame
  have htexts := congrArg String.toList hsame
  rw [Dialect.toList_normalizeType_generic (inside_qualified h.prefixed h.generic) h.qualified_eq,
    Dialect.toList_normalizeType_generic (inside_name h.generic) h.bare_eq,
    List.append_cancel_right_eq, upperText, List.flatMap_append] at htexts
  have hempty : upperText path = [] := List.append_left_eq_self.1 htexts
  rw [hempty] at hcolon
  cases hcolon

/-- What is looked up instead of the qualified spelling has an angle bracket, unless it is the
argument of an optional spelling and has none. -/
theorem angle_mem_argument (hangle : ¬(name = "Option".toList ∧ '<' ∉ withoutBlanks inner)) :
    '<' ∈ (stripOption (withoutBlanks qualified.toList)).1 := by
  have hhead := angle_not_mem_qualified h.prefixed h.generic
  have hnames := names_qualified_iff h.prefixed h.generic "Option".toList (by decide)
  have hoption : ∀ name ∈ genericNames, Names name "Option".toList ↔ name = "Option".toList := by
    decide
  rw [h.withoutBlanks_qualified]
  by_cases hname : name = "Option".toList
  · rw [stripOption_generic hhead (hnames.2 (.inl hname))]
    exact not_not.1 fun hmem => hangle ⟨hname, hmem⟩
  · rw [stripOption_of_not_names hhead fun hmem =>
      hname ((hoption name h.generic).1 (hnames.1 hmem))]
    exact List.mem_append_right _ List.mem_cons_self

variable {dialect : Dialect} (hbuiltin : dialect.types.registered = []) {field : FieldDecl}
  (hown : field.ddlType = none)
include hbuiltin hown

/-- Without an entry of its own, a spelling keeps its type behind a path exactly if it has one. -/
theorem typeOf_unlisted_iff
    (hunlisted : ¬dialect.types.HasSpelling (withoutBlanks bare.toList)) :
    dialect.typeOf (field.spelledAs qualified) = dialect.typeOf (field.spelledAs bare) ↔
      (dialect.types.resolve? bare (field.spelledAs bare).isNullable).isSome = true := by
  rw [@Dialect.typeOf_of_none dialect (field.spelledAs qualified) hown,
    @Dialect.typeOf_of_none dialect (field.spelledAs bare) hown, FieldDecl.spelledAs_type,
    FieldDecl.spelledAs_type, h.isNullable, (h.resolve_iff hbuiltin _).2 hunlisted]
  cases dialect.types.resolve? bare (field.spelledAs bare).isNullable with
  | none => exact iff_of_false (h.normalizeType_ne dialect) Bool.false_ne_true
  | some resolution =>
    refine iff_of_true ?_ rfl
    cases resolution with
    | named ddl => rfl
    | canonical ddl => cases dialect <;> rfl

theorem typeOf_optional {entry : TypeEntry} (hoption : name = "Option".toList)
    (hentry : entry ∈ dialect.types.entries)
    (hmem : String.ofList (withoutBlanks inner) ∈ entry.spellings)
    (hangle : '<' ∉ withoutBlanks inner) :
    dialect.typeOf (field.spelledAs qualified) =
      dialect.storedName (Dialect.echo (String.ofList (withoutBlanks inner))) := by
  subst hoption
  have hechoes := Dialect.echoes_builtin hbuiltin hentry hmem (by rwa [String.toList_ofList])
  have hstrip : (stripOption (withoutBlanks qualified.toList)).1 = withoutBlanks inner := by
    rw [h.withoutBlanks_qualified,
      stripOption_generic (angle_not_mem_qualified h.prefixed h.generic)
        ((names_qualified_iff h.prefixed h.generic _ (by decide)).2 (.inl rfl))]
  have hnamed := Dialect.resolveCompact_eq_named (h.not_hasSpelling hbuiltin)
    (by rw [hstrip]; simpa using hechoes.no_marks) (by rw [hstrip]; simpa using hechoes.ne)
    (field.spelledAs qualified).isNullable
  rw [@Dialect.typeOf_of_none dialect (field.spelledAs qualified) hown, Registry.resolve?,
    FieldDecl.spelledAs_type, hnamed, hstrip]

/-- A spelling that an entry has keeps its type behind a path exactly if it goes by its own name. -/
theorem typeOf_listed_iff (hlisted : dialect.types.HasSpelling (withoutBlanks bare.toList)) :
    dialect.typeOf (field.spelledAs qualified) = dialect.typeOf (field.spelledAs bare) ↔
      dialect.SelfNamed (field.spelledAs bare) := by
  have hself := @Dialect.selfNamed_iff dialect (field.spelledAs bare) name _
    (angle_not_mem_name h.generic) h.withoutBlanks_bare
  obtain ⟨entry, hentry, haccepts, hresolve⟩ :=
    Registry.exists_entry_of_hasSpelling hlisted (field.spelledAs bare).isNullable
  have hscalar := (Dialect.builtin_entry hbuiltin hentry).scalar
  have hstored : dialect.typeOf (field.spelledAs bare) =
      dialect.sizedType entry.ddlType (field.spelledAs bare) := by
    rw [@Dialect.typeOf_of_none dialect (field.spelledAs bare) hown, Registry.resolve?,
      FieldDecl.spelledAs_type, hresolve]
  -- What becomes of the qualified spelling depends on the argument that is looked up instead.
  by_cases hangle : name = "Option".toList ∧ '<' ∉ withoutBlanks inner
  case pos =>
    obtain ⟨hoption, hangle⟩ := hangle
    have hmem : String.ofList (withoutBlanks inner) ∈ entry.spellings := by
      rw [h.withoutBlanks_bare, hoption] at haccepts
      exact (Dialect.builtin_entry hbuiltin hentry).inner_mem (compact_withoutBlanks inner) haccepts
    rw [h.typeOf_optional hbuiltin hown hoption hentry hmem hangle, hstored, hself,
      Dialect.storedName_eq_sizedType_iff hbuiltin hentry hmem (by rwa [String.toList_ofList])]
    exact (and_iff_right hoption).symm
  case neg =>
    have hkept : '<' ∈ (dialect.typeOf (field.spelledAs qualified)).toList :=
      Dialect.angle_mem_typeOf hown (h.not_hasSpelling hbuiltin) (h.angle_mem_argument hangle)
        (inside_qualified h.prefixed h.generic) h.qualified_eq
    refine iff_of_false (fun hsame => ?_) (fun hnamed => ?_)
    · rw [hsame, hstored] at hkept
      exact Dialect.angle_not_mem_sizedType hscalar _ hkept
    · obtain ⟨hoption, hknown, -⟩ := hself.1 hnamed
      have hplain := Dialect.angle_not_mem_selfNamed hknown
      rw [String.toList_ofList] at hplain
      exact hangle ⟨hoption, hplain⟩

end Qualified

namespace Dialect

/-- A path in front of `Option<T>` or `Vec<T>` does not change whether a field accepts null. It
changes what the spelling resolves to exactly if an entry has the bare spelling. It leaves the type
of a field as it is exactly if the field spells its type out, if no entry has the bare spelling and
it has a type all the same, or if the type goes by the name of its spelling. -/
theorem qualified_spelling_iff {dialect : Dialect} (hbuiltin : dialect.types.registered = [])
    {segments : List String} (hne : segments ≠ [])
    (hsegments : ∀ segment ∈ segments, Identifier segment) {name : String}
    (hname : name ∈ ["Option", "Vec"]) (inner : String) :
    let bare := name ++ "<" ++ inner ++ ">"
    let qualified := pathOf segments ++ bare
    (∀ nullable,
      dialect.types.resolve? qualified nullable = dialect.types.resolve? bare nullable ↔
        ¬dialect.types.HasSpelling (withoutBlanks bare.toList)) ∧
      ∀ field : FieldDecl,
        (field.spelledAs qualified).isNullable = (field.spelledAs bare).isNullable ∧
          (dialect.typeOf (field.spelledAs qualified) = dialect.typeOf (field.spelledAs bare) ↔
            field.ddlType.isSome = true ∨
              ¬dialect.types.HasSpelling (withoutBlanks bare.toList) ∧
                (dialect.types.resolve? bare (field.spelledAs bare).isNullable).isSome = true ∨
              dialect.types.HasSpelling (withoutBlanks bare.toList) ∧
                dialect.SelfNamed (field.spelledAs bare)) := by
  intro bare qualified
  have h : Qualified _ _ _ bare qualified := qualified_pathOf hne hsegments hname inner
  refine ⟨h.resolve_iff hbuiltin, fun field => ⟨h.isNullable field, ?_⟩⟩
  cases hddl : field.ddlType with
  | some ddl =>
    rw [@typeOf_of_ddlType dialect (field.spelledAs qualified) ddl hddl,
      @typeOf_of_ddlType dialect (field.spelledAs bare) ddl hddl]
    exact iff_of_true rfl (.inl rfl)
  | none =>
    by_cases hlisted : dialect.types.HasSpelling (withoutBlanks bare.toList)
    · simp [h.typeOf_listed_iff hbuiltin hddl hlisted, hlisted]
    · simp [h.typeOf_unlisted_iff hbuiltin hddl hlisted, hlisted]

/-- A list of optional numbers resolves alike behind a path, an optional number does not, and an
optional truth value has the same type because it is looked up by its name. -/
theorem qualified_spelling_iff_numbers :
    let dialect : Dialect := .spanner {}
    let field : FieldDecl := { name := "n", type := "i64", nullable := true }
    dialect.types.resolve? (pathOf ["std", "vec"] ++ ("Vec" ++ "<" ++ "Option<i64>" ++ ">")) true =
        dialect.types.resolve? ("Vec" ++ "<" ++ "Option<i64>" ++ ">") true ∧
      dialect.types.resolve? (pathOf ["std", "option"] ++ ("Option" ++ "<" ++ "i64" ++ ">")) true ≠
        dialect.types.resolve? ("Option" ++ "<" ++ "i64" ++ ">") true ∧
      dialect.typeOf (field.spelledAs (pathOf ["std", "option"] ++
          ("Option" ++ "<" ++ "bool" ++ ">"))) =
        dialect.typeOf (field.spelledAs ("Option" ++ "<" ++ "bool" ++ ">")) := by
  intro dialect field
  have hsegments : ∀ segment ∈ ["std", "vec", "option"], Identifier segment := by
    simp only [List.forall_mem_cons]
    exact ⟨⟨by decide, by decide⟩, ⟨by decide, by decide⟩, ⟨by decide, by decide⟩, by simp⟩
  have hvec : ∀ segment ∈ ["std", "vec"], Identifier segment := fun segment hmem =>
    hsegments segment (List.subset_append_left _ ["option"] hmem)
  have hoption : ∀ segment ∈ ["std", "option"], Identifier segment := fun segment hmem =>
    hsegments segment (by revert segment; simp)
  have hlist := @qualified_spelling_iff dialect rfl _ (by decide) hvec "Vec" (by decide)
  have hoptional := @qualified_spelling_iff dialect rfl _ (by decide) hoption "Option" (by decide)
  refine ⟨((hlist "Option<i64>").1 true).2 (by decide +kernel),
    fun hsame => ((hoptional "i64").1 true).1 hsame (by decide +kernel),
    (((hoptional "bool").2 field).2).2 (.inr (.inr ⟨by decide +kernel, "bool", ?_, ?_, ?_⟩))⟩
  · decide
  · decide +kernel
  · exact fun htime => absurd htime (by decide)

/-- Behind a path, optional numbers are stored under the name of their argument, and bytes as a list
of numbers. -/
theorem qualified_spelling_stored_otherwise :
    let mysql : Dialect := .mysql {}
    let spanner : Dialect := .spanner {}
    let field : FieldDecl := { name := "a", type := "i64" }
    mysql.types.resolve? "Option<i64>" true = some (.canonical "BIGINT") ∧
      mysql.types.resolve? "std::option::Option<i64>" true = some (.named "I64") ∧
      mysql.typeOf (field.spelledAs "Option<i64>") = "BIGINT" ∧
      mysql.typeOf (field.spelledAs "std::option::Option<i64>") = "I64" ∧
      spanner.types.resolve? "Vec<u8>" false = some (.canonical "BYTES(MAX)") ∧
      spanner.types.resolve? "std::vec::Vec<u8>" false = some (.canonical "ARRAY<INT64>") := by
  decide +kernel

end Dialect

end SchemaPlan
