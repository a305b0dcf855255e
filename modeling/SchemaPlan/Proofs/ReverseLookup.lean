import SchemaPlan.Proofs.FieldType
import SchemaPlan.Proofs.GenericSpelling

/-!
# Spellings found for stored types

A stored type is turned into a spelling by building up lists around the first spelling of an entry,
and asked about a spelling by taking lists off both. What the first walk builds the second one takes
off again, so a type accepts the spelling that it is given. An entry may not spell a required type
as an optional one: inside of a list it would lose what the first walk took it for.

* `ReadsBack`: what holds of the spelling of a type (`readsBack_canonicalFrom`).
* `equivalent_canonicalSource`: a stored type accepts its canonical spelling.
-/
namespace SchemaPlan

open Text Ddl

/-! ## Spellings of entries -/

theorem TypeEntry.Made.compact {entry : TypeEntry} (h : entry.Made) (nullable : Bool) :
    ∀ spelling ∈ entry.spellingsFor nullable, Compact spelling.toList := by
  have hcompact : ∀ spellings : List String, ∀ spelling ∈ spellings.map compactSpelling,
      Compact spelling.toList := by
    intro spellings spelling hmem
    obtain ⟨text, -, rfl⟩ := List.mem_map.1 hmem
    rw [compactSpelling, String.toList_ofList]
    exact compact_withoutBlanks _
  induction h with
  | ofSpellings ddl spellings =>
    cases nullable with
    | false => exact hcompact spellings
    | true =>
      intro spelling hmem
      obtain ⟨required, hrequired, rfl⟩ := List.mem_map.1 hmem
      rw [toList_optional]
      exact .generic rfl (hcompact spellings required hrequired)
  | withNullable _ spellings ih =>
    cases nullable with
    | false => exact ih
    | true => exact hcompact spellings

/-! ## The spelling of a stored type -/

namespace Registry

variable {registry : Registry}

/-- A spelling that a stored type accepts as it is written, and that is optional only if it was
asked for as one. -/
structure ReadsBack (registry : Registry) (ddl : List Char) (nullable : Bool)
    (spelling : List Char) : Prop where
  compact : Compact spelling
  required : nullable = false → (stripOption spelling).2 = false
  accepted : registry.equivalentCompact spelling ddl = true

theorem ReadsBack.list {ddl stored inner : List Char} (hnormal : Normal ddl)
    (hstored : registry.arrayElement? ddl = some stored)
    (h : registry.ReadsBack (normalizeChars stored) false inner) :
    registry.ReadsBack ddl false (genericSpelling "Vec".toList inner) ∧
      registry.ReadsBack ddl true
        (genericSpelling "Option".toList (genericSpelling "Vec".toList inner)) := by
  have hlist : stripOption (genericSpelling "Vec".toList inner) =
      (genericSpelling "Vec".toList inner, false) :=
    stripOption_of_not_names (by decide) (by decide)
  have hoptional : stripOption
      (genericSpelling "Option".toList (genericSpelling "Vec".toList inner)) =
        (genericSpelling "Vec".toList inner, true) :=
    stripOption_generic (by decide) (.inl rfl)
  have helement : listElement? (genericSpelling "Vec".toList inner) = some inner :=
    listElement?_generic (by decide) (.inl rfl)
  have haccepted : registry.equivalentCompact (stripOption inner).1 stored = true := by
    rw [fst_stripOption_of_required (h.required rfl), ← equivalentCompact_normalize]
    exact h.accepted
  have hcompact : Compact (genericSpelling "Vec".toList inner) := .generic rfl h.compact
  refine ⟨⟨hcompact, fun _ => congrArg Prod.snd hlist, ?_⟩,
    .generic rfl hcompact, fun hfalse => Bool.noConfusion hfalse, ?_⟩
  · refine (equivalentCompact_list_iff hnormal hstored).2 ⟨inner, ?_, haccepted⟩
    rw [hlist, helement]
  · refine (equivalentCompact_list_iff hnormal hstored).2 ⟨inner, ?_, haccepted⟩
    rw [hoptional, helement]

section
variable (hmade : ∀ entry ∈ registry.entries, entry.Made)
  (hrequired : ∀ entry ∈ registry.entries, ∀ spelling ∈ entry.spellings, Required spelling.toList)
include hmade hrequired

theorem readsBack_entry {ddl : List Char} (hnormal : Normal ddl)
    (harray : registry.arrayElement? ddl = none) {entry : TypeEntry}
    (hentry : entry ∈ registry.entries)
    (hbase : baseTypeChars entry.ddlType.toList = baseTypeChars ddl) {nullable : Bool}
    {spelling : String} (hspelling : spelling ∈ entry.spellingsFor nullable) :
    registry.ReadsBack ddl nullable spelling.toList := by
  have hcompact := (hmade entry hentry).compact nullable spelling hspelling
  refine ⟨hcompact, ?_, (equivalentCompact_iff_lists hnormal harray).2 ⟨entry, hentry, hbase, ?_⟩⟩
  · rintro rfl
    have hnone := hrequired entry hentry spelling hspelling
    rwa [Required, hcompact] at hnone
  · rw [String.ofList_toList]
    cases nullable with
    | false => simp [TypeEntry.accepts, show spelling ∈ entry.spellings from hspelling]
    | true => simp [TypeEntry.accepts, show spelling ∈ entry.nullableSpellings from hspelling]

theorem readsBack_canonicalFrom {ddl : List Char} (hnormal : Normal ddl) {nullable : Bool}
    {spelling : String} (h : registry.canonicalFrom? ddl nullable = some spelling) :
    registry.ReadsBack ddl nullable spelling.toList := by
  -- The induction follows the list types that the stored type is made of.
  induction hlength : (upperText ddl).length using Nat.strongRecOn
    generalizing ddl nullable spelling with
  | ind n ih =>
    rcases canonicalFrom_cases h with ⟨stored, inner, hstored, hshorter, hinner, rfl⟩ |
      ⟨harray, entry, hentry, hbase, hspelling⟩
    · have hback := ih _ (hlength ▸ hshorter) (normalizeChars_idem stored) hinner rfl
      obtain ⟨hlist, hoptional⟩ := hback.list hnormal hstored
      cases nullable with
      | false =>
        rw [if_neg Bool.false_ne_true, toList_list]
        exact hlist
      | true =>
        rw [if_pos rfl, toList_optional, toList_list]
        exact hoptional
    · exact readsBack_entry hmade hrequired hnormal harray hentry hbase hspelling

end

/-- A stored type accepts the canonical spelling that is found for it, however deep its lists are
nested. -/
theorem equivalent_canonicalSource (hmade : ∀ entry ∈ registry.entries, entry.Made)
    (hrequired : ∀ entry ∈ registry.entries, ∀ spelling ∈ entry.spellings,
      Required spelling.toList)
    {ddl spelling : String} {nullable : Bool}
    (h : registry.canonicalSource? ddl nullable = some spelling) :
    registry.equivalent spelling ddl = true := by
  obtain ⟨hcompact, -, haccepted⟩ :=
    readsBack_canonicalFrom hmade hrequired (normalizeChars_idem ddl.toList) h
  rw [equivalent, hcompact, ← equivalentCompact_normalize]
  exact haccepted

/-- Lists of lists of a registered type, of which the catalog reports another size. -/
theorem equivalent_canonicalSource_points :
    let registry : Registry :=
      ⟨[.ofSpellings "string(max)" ["String"]],
        [(TypeEntry.ofSpellings "point(3)" ["geo :: Point"]).withNullable ["MaybePoint"]],
        some Spanner.arrayForm⟩
    registry.canonicalSource? "array< array<point( 7)> >" true =
        some "Option<Vec<Vec<geo::Point>>>" ∧
      registry.equivalent "Option<Vec<Vec<geo::Point>>>" "array< array<point( 7)> >" = true := by
  intro registry
  have hsource : registry.canonicalSource? "array< array<point( 7)> >" true =
      some "Option<Vec<Vec<geo::Point>>>" := by decide +kernel
  refine ⟨hsource, equivalent_canonicalSource ?_ (by decide +kernel) hsource⟩
  exact List.forall_mem_cons.2 ⟨.ofSpellings _ _,
    List.forall_mem_singleton.2 (.withNullable (.ofSpellings _ _) _)⟩

end Registry

end SchemaPlan
