import SchemaPlan.Proofs.TypeResolution

/-!
# The types of fields are normal forms

Whatever a field declares, the type of its column is the normal form of a type text, so two fields
whose types have the same normal form have the same type. The entries that a dialect is given have
to be made from type texts; those that it brings are.

* `Registry.normal_resolveCompact`: what a spelling resolves to is a normal form.
* `Dialect.normalize_typeOf`: the type of a field is a normal form.
-/
namespace SchemaPlan

open Text Ddl

/-! ## Entries -/

/-- An entry that is made from the text of a type and the spellings that the type stores. -/
inductive TypeEntry.Made : TypeEntry → Prop
  | ofSpellings (ddl : String) (spellings : List String) : Made (.ofSpellings ddl spellings)
  | withNullable {entry : TypeEntry} (h : Made entry) (spellings : List String) :
    Made (entry.withNullable spellings)

theorem TypeEntry.Made.normal {entry : TypeEntry} (h : entry.Made) :
    Normal entry.ddlType.toList := by
  induction h with
  | ofSpellings ddl spellings => exact normal_toList.2 (Ddl.normalize_idem ddl)
  | withNullable _ spellings ih => exact ih

theorem normal_builtin (dialect : Dialect) :
    ∀ entry ∈ dialect.types.builtins, Normal entry.ddlType.toList := by
  cases dialect with
  | mysql d => exact fun entry hentry => (MySql.holds_builtin hentry).normal
  | spanner d => exact fun entry hentry => (Spanner.scalar_builtin hentry).holds.normal

theorem made_of_builtin {dialect : Dialect} (h : dialect.types.registered = []) :
    ∀ entry ∈ dialect.types.registered, entry.Made := by
  rw [h]
  exact fun _ hentry => nomatch hentry

theorem normal_entry {dialect : Dialect} (hmade : ∀ entry ∈ dialect.types.registered, entry.Made) :
    ∀ entry ∈ dialect.types.entries, Normal entry.ddlType.toList := by
  intro entry hentry
  rcases List.mem_append.1 hentry with hentry | hentry
  · exact normal_builtin dialect entry hentry
  · exact (hmade entry hentry).normal

/-! ## Spellings -/

theorem lastSegment_go_subset (path : List Char) : lastSegment.go path ⊆ path := by
  induction path with
  | nil => exact List.Subset.refl _
  | cons c rest ih =>
    rw [lastSegment.go.eq_def]
    split
    · exact List.nil_subset _
    · rename_i heq
      obtain ⟨rfl, rfl⟩ := List.cons.inj heq
      exact List.cons_subset_cons c ih
    · exact List.nil_subset _

theorem lastSegment_subset (path : List Char) : lastSegment path ⊆ path := fun _ hc =>
  List.mem_reverse.1 (lastSegment_go_subset _ (List.mem_reverse.1 hc))

theorem genericArgument?_subset {name spelling inner : List Char}
    (h : genericArgument? name spelling = some inner) : inner ⊆ spelling := by
  obtain ⟨⟨head, rest⟩, hcut, h⟩ := Option.bind_eq_some_iff.1 h
  dsimp only at h
  split at h
  · split at h
    · obtain rfl := Option.some.inj h
      rw [eq_of_cutAt hcut]
      exact fun c hc => List.mem_append_right _
        (List.mem_cons_of_mem _ (List.dropLast_subset rest hc))
    · cases h
  · cases h

theorem stripOption_subset (spelling : List Char) : (stripOption spelling).1 ⊆ spelling := by
  unfold stripOption
  split
  · rename_i inner hinner
    exact genericArgument?_subset hinner
  · exact List.Subset.refl _

namespace Registry

variable {registry : Registry}

/-- What a spelling without blanks resolves to is a normal form, if the types of the entries are and
a list of a normal form is one. -/
theorem normal_resolveCompact (hentries : ∀ entry ∈ registry.entries, Normal entry.ddlType.toList)
    (hlists : ∀ form, registry.arrays = some form → ∀ ddl : String, Normal ddl.toList →
      Normal (form.wrap ddl).toList)
    {spelling : List Char} (hblank : ∀ c ∈ spelling, isBlank c = false) {nullable : Bool}
    {resolution : Resolution}
    (h : registry.resolveCompact? spelling nullable = some resolution) :
    Normal resolution.ddl.toList := by
  -- The induction follows the lists that the spelling is made of.
  induction hlength : spelling.length using Nat.strongRecOn
    generalizing spelling nullable resolution with
  | ind n ih =>
    rcases resolve_cases h with ⟨entry, hlookup, rfl⟩ |
      ⟨form, element, inner, -, hform, helement, hinner, rfl⟩ | ⟨-, rfl⟩
    · exact hentries entry (lookup?_mem hlookup).1
    · have hshorter : (stripOption element).1.length < n :=
          hlength ▸ element_shorter helement
      have hsub : (stripOption element).1 ⊆ spelling := fun c hc =>
        stripOption_subset _ (genericArgument?_subset helement (stripOption_subset _ hc))
      have hnormal := ih _ hshorter (fun c hc => hblank c (hsub hc)) hinner rfl
      cases inner with
      | canonical ddl => exact hlists form hform ddl hnormal
      | named ddl => exact hlists form hform ddl hnormal
    · refine normal_of_final fun d hd => ?_
      rw [Resolution.ddl, String.toList_ofList] at hd
      exact final_of_mem_upperText
        (fun c hc => hblank c (stripOption_subset _ (lastSegment_subset _ hc))) hd

end Registry

theorem not_blank_of_mem_withoutBlanks {cs : List Char} :
    ∀ c ∈ withoutBlanks cs, isBlank c = false := fun c hc => by
  simpa using (List.mem_filter.1 hc).2

/-! ## MySQL -/

namespace MySql

theorem final_argument (n : Nat) :
    ∀ c ∈ '(' :: ((Decimal.decimal n).toList ++ [')']), Final c := by
  simp only [List.forall_mem_cons, List.forall_mem_append]
  exact ⟨⟨by decide, by decide⟩, fun c hc => (inner_decimal n c hc).final,
    ⟨by decide, by decide⟩, fun c hc => nomatch hc⟩

theorem normal_withArgument {name : String} (h : Normal name.toList) (argument : UInt64) :
    Normal (withArgument name argument).toList := by
  rw [toList_withArgument]
  exact h.append_final (final_argument _)

theorem normal_typeForLength {name medium long : String} (hname : Normal name.toList)
    (hmedium : Normal medium.toList) (hlong : Normal long.toList) (limit length : UInt64) :
    Normal (typeForLength name limit medium long length).toList := by
  unfold typeForLength
  split
  · exact normal_withArgument hname length
  · split
    · exact hmedium
    · exact hlong

theorem normal_decimalType (precision scale : Nat) :
    Normal ("DECIMAL(" ++ Decimal.decimal precision ++ "," ++ Decimal.decimal scale ++
      ")").toList := by
  rw [toList_decimalType]
  exact normal_of_plain (plain_arguments (by decide) (inner_decimalArguments _ _))

theorem normal_sizedType {ddl : String} (h : Normal ddl.toList) (field : FieldDecl) :
    Normal (sizedType ddl field).toList := by
  unfold sizedType
  dsimp only
  split
  · cases field.size with
    | none => exact h
    | some size =>
      exact normal_typeForLength (by decide +kernel) (by decide +kernel) (by decide +kernel)
        16383 size
  split
  · cases field.size with
    | none => exact h
    | some size =>
      exact normal_typeForLength (by decide +kernel) (by decide +kernel) (by decide +kernel)
        65532 size
  split
  · split
    · exact normal_decimalType _ _
    · exact h
  split
  · split
    · split
      · exact normal_withArgument h _
      · exact h
    · exact h
  · exact h

end MySql

/-! ## Spanner -/

namespace Spanner

theorem normal_wrap {ddl : String} (h : Normal ddl.toList) :
    Normal (arrayForm.wrap ddl).toList := by
  rw [ArrayForm.toList_wrap]
  have hgap : keepsGap arrayForm.before.toList.getLast? = keepsGap none := by
    funext next
    rfl
  have hafter : ∀ c ∈ arrayForm.after.toList, Plain c := by decide
  exact (h.behind_plain (by decide) hgap).append_final fun c hc => (hafter c hc).final

theorem normal_sized {ddl : String} (h : Normal ddl.toList) (size : Option UInt64) :
    Normal (sized size ddl).toList := by
  cases size with
  | none => exact h
  | some size =>
    rw [sized, Option.map_some, Option.getD_some]
    rcases sizedType_cases size ddl.toList with hsame | hplain
    · rwa [hsame, String.ofList_toList]
    · exact normal_of_plain hplain

end Spanner

/-! ## Both dialects -/

namespace Dialect

variable {dialect : Dialect} (hmade : ∀ entry ∈ dialect.types.registered, entry.Made)
include hmade

theorem normal_resolve {spelling : String} {nullable : Bool} {resolution : Resolution}
    (h : dialect.types.resolve? spelling nullable = some resolution) :
    Normal resolution.ddl.toList := by
  refine Registry.normal_resolveCompact (normal_entry hmade) (fun form hform ddl hddl => ?_)
    not_blank_of_mem_withoutBlanks h
  cases dialect with
  | mysql d => cases hform
  | spanner d =>
    obtain rfl : Spanner.arrayForm = form := Option.some.inj hform
    exact Spanner.normal_wrap hddl

theorem normalize_typeOf (field : FieldDecl) :
    normalize (dialect.typeOf field) = dialect.typeOf field := by
  have hresolve := @normal_resolve dialect hmade field.type field.isNullable
  cases dialect with
  | mysql d =>
    show normalize (d.typeOf field) = d.typeOf field
    unfold MySql.typeOf
    split
    · exact MySql.normalize_normalizeColumnType _
    · split
      · rename_i ddl hddl
        exact normal_toList.1 (MySql.normal_sizedType (hresolve hddl) field)
      · exact MySql.normalize_normalizeColumnType _
      · exact MySql.normalize_normalizeColumnType _
  | spanner d =>
    show normalize (d.typeOf field) = d.typeOf field
    unfold Spanner.typeOf
    split
    · exact Ddl.normalize_idem _
    · split
      · rename_i ddl hddl
        have hsized := normal_toList.1 (Spanner.normal_sized (hresolve hddl) field.size)
        rwa [Spanner.sized] at hsized
      · rename_i ddl hddl
        have hnamed := hresolve hddl
        rwa [Resolution.ddl, normal_toList] at hnamed
      · exact Ddl.normalize_idem _

end Dialect

end SchemaPlan
