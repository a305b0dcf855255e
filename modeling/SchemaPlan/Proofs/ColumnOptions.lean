import SchemaPlan.Proofs.ColumnType
import SchemaPlan.Proofs.Computation
import SchemaPlan.Proofs.LowerCase
import SchemaPlan.Proofs.NameMap
import SchemaPlan.Proofs.Quoting
import SchemaPlan.Spanner.Options

/-!
# Spanner options, written and assigned

A reader of options takes names and values apart at the marks that a writer puts between them. What
it keeps has no such marks inside, so options that were read once are read back from their own text.
Assigning the changes between two sets of options turns the one into the other.

* `kept_of_read`: names and values that were read are free of marks and in normal form.
* `read_render`: options that were read are read back from an option list.
* `find?_changes`: a name is assigned exactly if the two sets differ there.
* `foldl_assign_changes`: the assignments turn one set of options into the other.
-/
namespace SchemaPlan.Spanner

open Text

/-! ## What is kept of an assignment -/

/-- A text that stays whole in an option list: no blanks around it, and no comma that would end
it. -/
structure Whole (cs : List Char) : Prop where
  trimmed : Trimmed cs
  ne : cs ≠ []
  no_comma : ',' ∉ cs

instance (cs : List Char) : Decidable (Whole cs) :=
  decidable_of_iff (Trimmed cs ∧ cs ≠ [] ∧ ',' ∉ cs)
    ⟨fun ⟨h₁, h₂, h₃⟩ => ⟨h₁, h₂, h₃⟩, fun ⟨h₁, h₂, h₃⟩ => ⟨h₁, h₂, h₃⟩⟩

theorem normalizeValue_cases (value : List Char) :
    normalizeValue value = lowerAscii value ∨ normalizeValue value = value := by
  dsimp only [normalizeValue]
  split
  · exact .inl rfl
  · exact .inr rfl

theorem normalizeValue_normalizeValue (value : List Char) :
    normalizeValue (normalizeValue value) = normalizeValue value := by
  rcases normalizeValue_cases value with h | h
  · rw [h]
    rcases normalizeValue_cases (lowerAscii value) with h' | h'
    · rw [h', lowerAscii_lowerAscii]
    · exact h'
  · rw [h, h]

namespace Whole

theorem trim {cs : List Char} (hne : trim cs ≠ []) (hcomma : ',' ∉ cs) : Whole (trim cs) where
  trimmed := trimmed_trim cs
  ne := hne
  no_comma := fun hmem => hcomma ((trim_sublist cs).subset hmem)

theorem lowerAscii {cs : List Char} (h : Whole cs) : Whole (lowerAscii cs) where
  trimmed := h.trimmed.lowerAscii
  ne := fun hnil => h.ne (List.map_eq_nil_iff.1 hnil)
  no_comma := fun hmem => h.no_comma (mem_of_mem_lowerAscii (by decide) hmem)

theorem normalizeValue {cs : List Char} (h : Whole cs) : Whole (normalizeValue cs) := by
  rcases normalizeValue_cases cs with hlower | hsame
  · rw [hlower]
    exact h.lowerAscii
  · rwa [hsame]

theorem append {a b : List Char} (ha : Whole a) (hb : Whole b) {middle : List Char}
    (hmiddle : ',' ∉ middle) : Whole (a ++ middle ++ b) where
  trimmed := ha.trimmed.append hb.trimmed ha.ne hb.ne middle
  ne := by simp [ha.ne]
  no_comma := by simp [ha.no_comma, hmiddle, hb.no_comma]

end Whole

/-- A name and a value as they are kept: in normal form, and such that a reader takes them apart. -/
structure Kept (name value : String) : Prop where
  name_whole : Whole name.toList
  name_lower : lowerAscii name.toList = name.toList
  name_no_sign : '=' ∉ name.toList
  value_whole : Whole value.toList
  value_normal : normalizeValue value.toList = value.toList

/-- A kept name may as well be removed. -/
theorem Kept.null {name value : String} (h : Kept name value) : Kept name "null" :=
  { h with value_whole := by decide, value_normal := by decide }

theorem kept_of_readAssignment {entry : List Char} (hentry : ',' ∉ entry) {name value : String}
    (h : readAssignment entry = .ok (name, value)) : Kept name value := by
  rw [readAssignment] at h
  cases hcut : cutAt '=' entry with
  | none => rw [hcut] at h; cases h
  | some parts =>
    obtain ⟨front, behind⟩ := parts
    rw [hcut] at h
    dsimp only [Option.map_some] at h
    split at h
    · cases h
    · rename_i hne
      obtain ⟨rfl, rfl⟩ := Prod.mk.inj (Except.ok.inj h)
      rw [Bool.or_eq_true, not_or, List.isEmpty_iff, List.isEmpty_iff] at hne
      have hparts : entry = front ++ '=' :: behind := eq_of_cutAt hcut
      have hfront : Whole (trim front) := .trim hne.1 fun hmem =>
        hentry (hparts ▸ List.mem_append_left _ hmem)
      have hbehind : Whole (trim behind) := .trim hne.2 fun hmem =>
        hentry (hparts ▸ List.mem_append_right _ (List.mem_cons_of_mem _ hmem))
      have hsign : '=' ∉ trim front := fun hmem =>
        not_mem_of_cutAt hcut ((trim_sublist _).subset hmem)
      constructor <;> rw [String.toList_ofList]
      case name_whole => exact hfront.lowerAscii
      case name_lower => exact lowerAscii_lowerAscii _
      case name_no_sign => exact fun hmem => hsign (mem_of_mem_lowerAscii (by decide) hmem)
      case value_whole => exact hbehind.normalizeValue
      case value_normal => exact normalizeValue_normalizeValue _

theorem kept_of_read {extra : String} {options : Options} (h : Options.read extra = .ok options)
    {name value : String} (hfind : options.find? name = some value) : Kept name value := by
  obtain ⟨body, -, h⟩ := bind_eq_ok_iff.1 h
  obtain ⟨assignments, hread, h⟩ := bind_eq_ok_iff.1 h
  obtain rfl := Except.ok.inj h
  obtain ⟨entry, hentry, hassigned⟩ :=
    exists_left_of_mem (mapM_eq_ok_iff.1 hread) (NameMap.mem_of_find?_ofList hfind)
  obtain ⟨piece, hpiece, rfl⟩ := List.mem_map.1 (List.mem_of_mem_filter hentry)
  exact kept_of_readAssignment
    (fun hmem => not_mem_of_mem_pieces hpiece ((trim_sublist piece).subset hmem)) hassigned

theorem kept_of_ofExtra {extra : Option String} {name value : String}
    (h : (Options.ofExtra extra).find? name = some value) : Kept name value := by
  unfold Options.ofExtra at h
  split at h
  · rename_i options hread
    rw [NameMap.find?_filter, Option.filter_eq_some_iff] at h
    obtain ⟨text, -, hread⟩ := Option.map_eq_some_iff.1 hread
    exact kept_of_read hread h.1
  · cases h

theorem find?_ofExtra_ne_null (extra : Option String) (name : String) :
    (Options.ofExtra extra).find? name ≠ some "null" := by
  intro h
  unfold Options.ofExtra at h
  split at h
  · rw [NameMap.find?_filter, Option.filter_eq_some_iff] at h
    exact absurd h.2 (by decide)
  · cases h

/-! ## Written options are read back -/

def assignmentText (name value : String) : List Char :=
  name.toList ++ ['='] ++ value.toList

theorem Kept.assignmentText {name value : String} (h : Kept name value) :
    Whole (assignmentText name value) :=
  h.name_whole.append h.value_whole (by decide)

theorem readAssignment_assignmentText {name value : String} (h : Kept name value) :
    readAssignment (assignmentText name value) = .ok (name, value) := by
  have hcut : cutAt '=' (assignmentText name value) = some (name.toList, value.toList) := by
    rw [assignmentText, List.append_assoc]
    exact cutAt_append h.name_no_sign _
  have hne : (name.toList.isEmpty || value.toList.isEmpty) = false := by
    simp [h.name_whole.ne, h.value_whole.ne]
  rw [readAssignment, hcut]
  dsimp only [Option.map_some]
  rw [trim_eq_self h.name_whole.trimmed, trim_eq_self h.value_whole.trimmed, hne, h.name_lower,
    h.value_normal, String.ofList_toList, String.ofList_toList]
  rfl

/-- The texts between commas are found again, without the blanks around them. -/
theorem optionEntries_intercalate {entries : List (List Char)}
    (h : ∀ entry ∈ entries, trim entry ≠ [] ∧ ',' ∉ entry) {gap : List Char}
    (hgap : ∀ c ∈ gap, isBlank c = true) :
    optionEntries (gap ++ [',', ' '].intercalate entries) = entries.map trim := by
  have hnocomma : ',' ∉ gap := fun hmem => absurd (hgap _ hmem) (by decide)
  -- Each comma leaves a blank in front of the next entry, so the gap is part of the induction.
  induction entries generalizing gap with
  | nil =>
    have htrim : trim (gap ++ []) = [] := trim_append_left hgap []
    rw [List.append_nil] at htrim
    simp [optionEntries, pieces_of_not_mem hnocomma, htrim]
  | cons entry rest ih =>
    obtain ⟨hne, hcomma⟩ := h entry List.mem_cons_self
    have hfirst : trim (gap ++ entry) = trim entry := trim_append_left hgap entry
    have hplain : ',' ∉ gap ++ entry := by simp [hnocomma, hcomma]
    cases rest with
    | nil =>
      rw [List.intercalate_singleton, optionEntries, pieces_of_not_mem hplain]
      simp [hfirst, hne]
    | cons next rest =>
      have hrest : optionEntries ([' '] ++ [',', ' '].intercalate (next :: rest)) =
          (next :: rest).map trim :=
        ih (fun e he => h e (List.mem_cons_of_mem _ he)) (by decide) (by decide)
      rw [List.intercalate_cons_cons, List.append_assoc, ← List.append_assoc, List.cons_append,
        optionEntries, pieces_append hplain, List.map_cons, hfirst,
        List.filter_cons_of_pos (by simpa using hne)]
      exact congrArg (trim entry :: ·) hrest

theorem trimmed_intercalate {entries : List (List Char)} (h : ∀ entry ∈ entries, Whole entry)
    (separator : List Char) :
    Trimmed (separator.intercalate entries) ∧
      (entries ≠ [] → separator.intercalate entries ≠ []) := by
  induction entries with
  | nil => exact ⟨⟨by simp, by simp⟩, fun hne => absurd rfl hne⟩
  | cons entry rest ih =>
    obtain ⟨htrimmed, hne, -⟩ := h entry List.mem_cons_self
    cases rest with
    | nil =>
      rw [List.intercalate_singleton]
      exact ⟨htrimmed, fun _ => hne⟩
    | cons next rest =>
      obtain ⟨hrest, hrestne⟩ := ih fun e he => h e (List.mem_cons_of_mem _ he)
      rw [List.intercalate_cons_cons]
      exact ⟨htrimmed.append hrest hne (hrestne (List.cons_ne_nil _ _)) separator,
        fun _ => by simp [hne]⟩

theorem optionBody_list {body : List Char} (h : Trimmed body) :
    optionBody (String.ofList ("OPTIONS (".toList ++ body ++ [')'])) = .ok body := by
  have hends : Trimmed ("OPTIONS (".toList ++ body ++ [')']) :=
    Trimmed.append (by decide) (by decide) (by decide) (by decide) body
  have hlist : Trimmed (['('] ++ body ++ [')']) :=
    Trimmed.append (by decide) (by decide) (by decide) (by decide) body
  have hgap : trim ([' '] ++ (['('] ++ body ++ [')'])) = ['('] ++ body ++ [')'] :=
    (trim_append_left (by decide) _).trans (trim_eq_self hlist)
  have hinside :
      (afterWord? ['('] (['('] ++ body ++ [')'])).bind (beforeWord? [')']) = some body := by
    rw [List.append_assoc, afterWord?_append, Option.bind_some, beforeWord?_append]
  have htake : ("OPTIONS (".toList ++ body ++ [')']).take 7 = "OPTIONS".toList := rfl
  have hdrop : ("OPTIONS (".toList ++ body ++ [')']).drop 7 = [' '] ++ (['('] ++ body ++ [')']) :=
    rfl
  rw [optionBody, String.toList_ofList, trim_eq_self hends]
  dsimp only
  rw [htake, if_pos (by decide), hdrop, hgap, hinside]
  exact congrArg Except.ok (trim_eq_self h)

theorem toList_render (options : Options) :
    options.render.toList =
      [',', ' '].intercalate (options.entries.map fun e => assignmentText e.1 e.2) := by
  rw [Options.render, String.toList_intercalate, List.map_map]
  refine congrArg _ (List.map_congr_left fun e _ => ?_)
  simp [assignmentText]

theorem read_render {options : Options}
    (h : ∀ name value, options.find? name = some value → Kept name value) :
    Options.read ("OPTIONS (" ++ options.render ++ ")") = .ok options := by
  have hkept : ∀ e ∈ options.entries, Kept e.1 e.2 := fun e he => h _ _ (NameMap.mem_entries.1 he)
  have hentries : ∀ entry ∈ options.entries.map (fun e => assignmentText e.1 e.2),
      Whole entry := by
    intro entry hentry
    obtain ⟨e, he, rfl⟩ := List.mem_map.1 hentry
    exact (hkept e he).assignmentText
  have htext : "OPTIONS (" ++ options.render ++ ")" =
      String.ofList ("OPTIONS (".toList ++ options.render.toList ++ [')']) := by
    rw [← String.toList_inj]
    simp
  have hbody : optionBody ("OPTIONS (" ++ options.render ++ ")") = .ok options.render.toList := by
    rw [htext, toList_render]
    exact optionBody_list (trimmed_intercalate hentries _).1
  have hsplit : optionEntries options.render.toList =
      options.entries.map fun e => assignmentText e.1 e.2 := by
    have htrimmed : ∀ entry ∈ options.entries.map (fun e => assignmentText e.1 e.2),
        trim entry = entry := fun entry hentry => trim_eq_self (hentries entry hentry).trimmed
    rw [toList_render, ← List.nil_append ([',', ' '].intercalate _),
      optionEntries_intercalate (fun entry hentry => ?_) (by simp)]
    · exact (List.map_congr_left htrimmed).trans (List.map_id' _)
    · rw [htrimmed entry hentry]
      exact ⟨(hentries entry hentry).ne, (hentries entry hentry).no_comma⟩
  have hread : (options.entries.map fun e => assignmentText e.1 e.2).mapM readAssignment =
      .ok options.entries := by
    rw [mapM_eq_ok_iff, List.forall₂_map_left_iff, List.forall₂_same]
    exact fun e he => readAssignment_assignmentText (hkept e he)
  refine bind_eq_ok_iff.2 ⟨_, hbody, bind_eq_ok_iff.2 ⟨options.entries, ?_, ?_⟩⟩
  · rw [hsplit, hread]
  · rw [NameMap.ofList_entries]

/-! ## Assigning changes -/

/-- Sets an option; the value `null` removes it. -/
def Options.assign (options : Options) (assignment : String × String) : Options :=
  if assignment.2 = "null" then options.erase assignment.1
  else options.insert assignment.1 assignment.2

theorem find?_assign (options : Options) (assignment : String × String) (name : String) :
    (options.assign assignment).find? name =
      if assignment.1 = name then (if assignment.2 = "null" then none else some assignment.2)
      else options.find? name := by
  unfold Options.assign
  split
  · rw [NameMap.find?_erase]
    simp only [eq_comm]
  · rw [NameMap.find?_insert]

/-- Assignments to different names: each name has what is assigned to it. -/
theorem find?_foldl_assign {assignments : List (String × String)}
    (h : (assignments.map Prod.fst).Nodup) (options : Options) (name : String) :
    (assignments.foldl Options.assign options).find? name =
      match NameMap.findIn name assignments with
      | some value => if value = "null" then none else some value
      | none => options.find? name := by
  induction assignments generalizing options with
  | nil => rfl
  | cons assignment rest ih =>
    rw [List.map_cons, List.nodup_cons] at h
    rw [List.foldl_cons, ih h.2, find?_assign]
    by_cases hname : assignment.1 = name
    · have habsent : NameMap.findIn name rest = none :=
        NameMap.findIn_eq_none_iff.2 (hname ▸ h.1)
      rw [habsent, NameMap.findIn_cons_of_eq hname, if_pos hname]
    · rw [NameMap.findIn_cons_of_ne hname, if_neg hname]

/-- The assignments that `changes` collects: new values where they differ, and `null` where there is
no new value. -/
theorem mem_changes {before after : Options} {name value : String} :
    (name, value) ∈ (after.filter fun name value => before.find? name != some value).entries ++
        (before.filter fun name _ => !after.contains name).names.map (·, "null") ↔
      before.find? name ≠ after.find? name ∧ value = (after.find? name).getD "null" := by
  rw [List.mem_append, NameMap.mem_entries, NameMap.find?_filter, Option.filter_eq_some_iff,
    bne_iff_ne, List.mem_map]
  simp only [Prod.mk.injEq, NameMap.mem_names, NameMap.find?_filter, Option.filter_eq_some_iff,
    NameMap.contains, Bool.not_eq_true', Option.isSome_eq_false_iff, Option.isNone_iff_eq_none]
  cases hafter : after.find? name with
  | none =>
    constructor
    · rintro (⟨h, -⟩ | ⟨other, ⟨old, hold, -⟩, rfl, rfl⟩)
      · cases h
      · exact ⟨by simp [hold], rfl⟩
    · rintro ⟨hne, rfl⟩
      obtain ⟨old, hold⟩ := Option.ne_none_iff_exists'.1 hne
      exact .inr ⟨name, ⟨old, hold, hafter⟩, rfl, rfl⟩
  | some new =>
    constructor
    · rintro (⟨h, hne⟩ | ⟨other, ⟨old, -, hnone⟩, rfl, -⟩)
      · obtain rfl := Option.some.inj h
        exact ⟨hne, rfl⟩
      · rw [hafter] at hnone
        cases hnone
    · rintro ⟨hne, rfl⟩
      exact .inl ⟨rfl, hne⟩

theorem find?_changes (before after : Options) (name : String) :
    (before.changes after).find? name =
      if before.find? name = after.find? name then none
      else some ((after.find? name).getD "null") := by
  refine Option.ext fun value => ?_
  unfold Options.changes
  rw [NameMap.find?_ofList_eq_some, mem_changes]
  · split
    · simp_all
    · simp_all [eq_comm]
  · rintro ⟨a, x⟩ ha ⟨b, y⟩ hb (rfl : a = b)
    rw [(mem_changes.1 ha).2, (mem_changes.1 hb).2]

theorem entries_changes_eq_nil_iff {before after : Options} :
    (before.changes after).entries = [] ↔ before = after := by
  rw [NameMap.entries_eq_nil_iff]
  constructor
  · intro h
    refine NameMap.ext_find? fun name => ?_
    have hname := h name
    rw [find?_changes] at hname
    by_contra hne
    rw [if_neg hne] at hname
    cases hname
  · rintro rfl name
    rw [find?_changes, if_pos rfl]

/-- The changes between two sets of options turn the one into the other, if the other has no
`null`. -/
theorem foldl_assign_changes {before after : Options}
    (h : ∀ name, after.find? name ≠ some "null") :
    (before.changes after).entries.foldl Options.assign before = after := by
  refine NameMap.ext_find? fun name => ?_
  rw [find?_foldl_assign (NameMap.nodup_names _)]
  show (match (before.changes after).find? name with
    | some value => _
    | none => _) = _
  rw [find?_changes]
  by_cases hsame : before.find? name = after.find? name
  · rw [if_pos hsame]
    exact hsame
  · rw [if_neg hsame]
    cases hafter : after.find? name with
    | none => rfl
    | some value =>
      have hvalue : value ≠ "null" := fun he => h name (he ▸ hafter)
      exact if_neg hvalue

theorem kept_of_changes {before after : Options}
    (hbefore : ∀ name value, before.find? name = some value → Kept name value)
    (hafter : ∀ name value, after.find? name = some value → Kept name value)
    {name value : String} (h : (before.changes after).find? name = some value) :
    Kept name value := by
  rw [find?_changes] at h
  split at h
  · cases h
  · rename_i hne
    obtain rfl := Option.some.inj h
    cases hfind : after.find? name with
    | some new => exact hafter name new hfind
    | none =>
      rw [hfind] at hne
      obtain ⟨old, hold⟩ := Option.ne_none_iff_exists'.1 hne
      exact (hbefore name old hold).null

end SchemaPlan.Spanner
