import Mathlib.Data.List.Induction
import Mathlib.Data.List.Perm.Basic
import SchemaPlan.Proofs.PlanOrder
import SchemaPlan.Spanner.Rows

/-!
# The order of Spanner catalog rows

A column of a Spanner catalog has several rows, which are merged as they come: the first one starts
a draft of the column, and each adds its membership and its option. If the rows of one catalog agree
with each other, their order does not show in the columns.

* `Consistent`, `OptionsAgree`: what the rows of one catalog have in common.
* `Merged`: which drafts belong to some rows. One more row keeps this true (`merged_mergeRow`), and
  so it holds of all that are merged (`merged_foldlM`).
* `Merged.readable`, `foldlM_of_readable`: consistent rows can be merged just if each of them can be
  read by itself.
* `columnsOfRows_reordered`: reordered rows are read as reordered columns.
-/
namespace SchemaPlan.Spanner

open Text

/-! ## What a row says -/

def about? (row : Row) : Option (String × String) :=
  (textCell row 0).bind fun table => (textCell row 1).map fun name => (table, name)

/-- The membership that a row reports. -/
def reported? (row : Row) : Option Membership :=
  (positionCell row 6).toOption.bind (membershipCell row)

/-- The option that a row reports, by its name as it is spelled there. -/
def spelledOption? (row : Row) : Option (String × String) :=
  (textCell row 9).bind fun name => (textCell row 10).map fun value => (name, value)

def lowerName (name : String) : String :=
  String.ofList (lowerAscii name.toList)

/-- A row tells its column, and its position in an index if there is one. -/
structure Understood (row : Row) : Prop where
  about : (about? row).isSome
  position : ∃ position, positionCell row 6 = .ok position

/-- A row can be read by itself: it could also be the first one about its column. -/
structure Readable (row : Row) : Prop extends Understood row where
  start : ∀ table name, about? row = some (table, name) → ∃ start, newDraft table name row = .ok start

/-- The rows of a column describe it alike, columns of a table have different positions, and the rows
of an index of a table agree on its uniqueness and on its being the primary key. -/
structure Consistent (rows : List Row) : Prop where
  described : ∀ a ∈ rows, ∀ b ∈ rows, about? a = about? b →
    positionCell a 2 = positionCell b 2 ∧ textCell a 3 = textCell b 3 ∧
      (textCell a 4).map Ddl.normalize = (textCell b 4).map Ddl.normalize
  positions : ∀ a ∈ rows, ∀ b ∈ rows, ∀ table name name' position,
    about? a = some (table, name) → about? b = some (table, name') → name ≠ name' →
    positionCell a 2 = .ok (some position) → positionCell b 2 ≠ .ok (some position)
  unique : ∀ a ∈ rows, ∀ b ∈ rows, ∀ table name name' member member',
    about? a = some (table, name) → about? b = some (table, name') →
    reported? a = some member → reported? b = some member' → member.name = member'.name →
    member.unique = member'.unique ∧ member.primary = member'.primary

/-- The rows of a column agree on the value of an option. Names that `key` takes for the same are
names of one option. -/
def OptionsAgree (key : String → String) (rows : List Row) : Prop :=
  ∀ a ∈ rows, ∀ b ∈ rows, about? a = about? b → ∀ name name' value value',
    spelledOption? a = some (name, value) → spelledOption? b = some (name', value') →
    key name = key name' → value = value'

/-! ## One row -/

def Draft.key (draft : Draft) : String × String :=
  (draft.column.table, draft.column.name)

/-- The draft with what a row reports. -/
def Draft.addRow (draft : Draft) (row : Row) : Draft :=
  draft.add (reported? row) row

theorem isAbout_iff {draft : Draft} {table name : String} :
    draft.isAbout table name = true ↔ draft.key = (table, name) := by
  simp [Draft.isAbout, Draft.key]

@[simp] theorem key_addRow (draft : Draft) (row : Row) : (draft.addRow row).key = draft.key := rfl

/-- A new draft has the table, the name and the position of its row, and nothing else is known. -/
theorem newDraft_ok {table name : String} {row : Row} {start : Draft}
    (h : newDraft table name row = .ok start) :
    start.key = (table, name) ∧ positionCell row 2 = .ok (some start.column.position) ∧
      start.column.memberships = [] ∧ start.options = NameMap.empty := by
  unfold newDraft at h
  rcases hposition : positionCell row 2 with fault | _ | position
  · simp [hposition, bind, Except.bind] at h
  · simp [hposition, bind, Except.bind] at h
  simp only [hposition, bind, Except.bind] at h
  split at h
  · split at h <;> cases h
    exact ⟨rfl, rfl, rfl, rfl⟩
  · split at h <;> cases h
    exact ⟨rfl, rfl, rfl, rfl⟩
  · cases h

theorem newDraft_congr {a b : Row} (hposition : positionCell a 2 = positionCell b 2)
    (hnullable : textCell a 3 = textCell b 3)
    (htype : (textCell a 4).map Ddl.normalize = (textCell b 4).map Ddl.normalize) (table name : String) :
    newDraft table name a = newDraft table name b := by
  unfold newDraft
  rw [hposition, hnullable]
  cases ha : textCell a 4 <;> cases hb : textCell b 4 <;>
    simp only [ha, hb, Option.map_some, Option.map_none, reduceCtorEq, Option.some.injEq] at htype
  · rfl
  · simp only [htype]

theorem mergeRow_eq {row : Row} {key : String × String} (h : about? row = some key)
    (drafts : List Draft) :
    mergeRow drafts row = (do
      let drafts ←
        if drafts.any fun draft => draft.isAbout key.1 key.2 then .ok drafts
        else (newDraft key.1 key.2 row).map fun draft => drafts ++ [draft]
      let position ← (positionCell row 6).mapError (.row key.1 key.2)
      .ok (drafts.map fun draft =>
        if draft.isAbout key.1 key.2 then draft.add (membershipCell row position) row
        else draft)) := by
  obtain ⟨table, htable, h⟩ := Option.bind_eq_some_iff.1 h
  obtain ⟨name, hname, rfl⟩ := Option.map_eq_some_iff.1 h
  unfold mergeRow
  rw [htable, hname]
  simp only [bind, Except.bind]

theorem about?_of_mergeRow {drafts drafts' : List Draft} {row : Row}
    (h : mergeRow drafts row = .ok drafts') : ∃ key, about? row = some key := by
  unfold mergeRow at h
  cases htable : textCell row 0 with
  | none => simp [htable, bind, Except.bind] at h
  | some table =>
    cases hname : textCell row 1 with
    | none => simp [htable, hname, bind, Except.bind] at h
    | some name => exact ⟨(table, name), by simp [about?, htable, hname]⟩

/-- What merging a row does: it adds to the draft of its column, or to a new one. -/
theorem mergeRow_cases {drafts drafts' : List Draft} {row : Row}
    (h : mergeRow drafts row = .ok drafts') :
    ∃ key position, about? row = some key ∧ positionCell row 6 = .ok position ∧
      ((key ∈ drafts.map Draft.key ∧
          drafts' = drafts.map fun draft => if draft.key = key then draft.addRow row else draft) ∨
        (key ∉ drafts.map Draft.key ∧ ∃ start, newDraft key.1 key.2 row = .ok start ∧
          drafts' = drafts ++ [start.addRow row])) := by
  obtain ⟨key, habout⟩ := about?_of_mergeRow h
  rw [mergeRow_eq habout] at h
  cases hposition : positionCell row 6 with
  | error fault =>
    rw [hposition] at h
    split at h
    · cases h
    · cases hstart : newDraft key.1 key.2 row <;> rw [hstart] at h <;> cases h
  | ok position =>
    have hadd (draft : Draft) : draft.add (membershipCell row position) row = draft.addRow row := by
      rw [Draft.addRow, reported?, hposition]
      rfl
    have hkey (draft : Draft) : draft.isAbout key.1 key.2 = true ↔ draft.key = key := isAbout_iff
    simp only [hposition, hkey] at h
    refine ⟨key, position, habout, rfl, ?_⟩
    split at h
    · rename_i hknown
      obtain ⟨draft, hdraft, hkey'⟩ := List.any_eq_true.1 hknown
      cases h
      exact .inl ⟨List.mem_map.2 ⟨draft, hdraft, isAbout_iff.1 hkey'⟩, by simp only [hadd]⟩
    · rename_i hnew
      have hother : ∀ draft ∈ drafts, draft.key ≠ key := fun draft hdraft hkey' =>
        hnew (List.any_eq_true.2 ⟨draft, hdraft, isAbout_iff.2 hkey'⟩)
      cases hstart : newDraft key.1 key.2 row with
      | error error =>
        rw [hstart] at h
        cases h
      | ok start =>
        rw [hstart] at h
        cases h
        refine .inr ⟨fun hmem => ?_, start, rfl, ?_⟩
        · obtain ⟨draft, hdraft, hkey'⟩ := List.mem_map.1 hmem
          exact hother draft hdraft hkey'
        · rw [List.map_append, List.map_congr_left fun draft hdraft => if_neg (hother draft hdraft)]
          simp [(newDraft_ok hstart).1, hadd]

theorem mergeRow_of_readable {row : Row} (h : Readable row) (drafts : List Draft) :
    ∃ drafts', mergeRow drafts row = .ok drafts' := by
  obtain ⟨key, habout⟩ := Option.isSome_iff_exists.1 h.about
  obtain ⟨start, hstart⟩ := h.start key.1 key.2 habout
  obtain ⟨position, hposition⟩ := h.position
  rw [mergeRow_eq habout, hposition, hstart]
  split <;> exact ⟨_, rfl⟩

/-! ## Merged rows -/

def rowsAbout (rows : List Row) (key : String × String) : List Row :=
  rows.filter fun row => about? row = some key

/-- A draft that one of the rows about its column has started, and to which all of these have been
added in their order. -/
def Folded (rows : List Row) (draft : Draft) : Prop :=
  ∃ first ∈ rows, ∃ start, about? first = some draft.key ∧
    newDraft draft.key.1 draft.key.2 first = .ok start ∧
    draft = (rowsAbout rows draft.key).foldl Draft.addRow start

/-- The drafts of some rows: one for each column that they are about. -/
structure Merged (rows : List Row) (drafts : List Draft) : Prop where
  nodup : (drafts.map Draft.key).Nodup
  keys : ∀ key, key ∈ drafts.map Draft.key ↔ ∃ row ∈ rows, about? row = some key
  folded : ∀ draft ∈ drafts, Folded rows draft
  understood : ∀ row ∈ rows, Understood row

theorem merged_nil : Merged [] [] :=
  ⟨List.nodup_nil, by simp, by simp, by simp⟩

section
variable {rows : List Row} {row : Row} {draft : Draft}

theorem rowsAbout_concat_of_eq {key : String × String} (h : about? row = some key) :
    rowsAbout (rows ++ [row]) key = rowsAbout rows key ++ [row] := by
  simp [rowsAbout, h]

theorem rowsAbout_concat_of_ne {key : String × String} (h : about? row ≠ some key) :
    rowsAbout (rows ++ [row]) key = rowsAbout rows key := by
  simp [rowsAbout, h]

theorem Folded.concat_of_ne (h : Folded rows draft) (hrow : about? row ≠ some draft.key) :
    Folded (rows ++ [row]) draft := by
  obtain ⟨first, hfirst, start, habout, hstart, hfold⟩ := h
  refine ⟨first, List.mem_append_left _ hfirst, start, habout, hstart, ?_⟩
  rw [rowsAbout_concat_of_ne hrow]
  exact hfold

theorem Folded.concat_of_eq (h : Folded rows draft) (hrow : about? row = some draft.key) :
    Folded (rows ++ [row]) (draft.addRow row) := by
  obtain ⟨first, hfirst, start, habout, hstart, hfold⟩ := h
  refine ⟨first, List.mem_append_left _ hfirst, start, habout, hstart, ?_⟩
  rw [key_addRow, rowsAbout_concat_of_eq hrow, List.foldl_append, ← hfold]
  rfl

theorem folded_newDraft {key : String × String} {start : Draft} (hrow : about? row = some key)
    (hstart : newDraft key.1 key.2 row = .ok start)
    (hfirst : ∀ other ∈ rows, about? other ≠ some key) :
    Folded (rows ++ [row]) (start.addRow row) := by
  have hkey : (start.addRow row).key = key := (newDraft_ok hstart).1
  have hnone : rowsAbout rows key = [] :=
    List.filter_eq_nil_iff.2 fun other hother => by simpa using hfirst other hother
  refine ⟨row, by simp, start, ?_, ?_, ?_⟩
  · rw [hkey, hrow]
  · rw [hkey, hstart]
  · rw [hkey, rowsAbout_concat_of_eq hrow, hnone]
    rfl

theorem merged_mergeRow {drafts drafts' : List Draft} (h : Merged rows drafts)
    (hrow : mergeRow drafts row = .ok drafts') : Merged (rows ++ [row]) drafts' := by
  obtain ⟨key, position, habout, hposition, hcases⟩ := mergeRow_cases hrow
  have hunderstood : ∀ other ∈ rows ++ [row], Understood other := by
    intro other hother
    rcases List.mem_append.1 hother with hother | hother
    · exact h.understood other hother
    · obtain rfl := List.mem_singleton.1 hother
      exact ⟨by simp [habout], position, hposition⟩
  have hkeys (other : String × String) : (∃ row' ∈ rows ++ [row], about? row' = some other) ↔
      other ∈ drafts.map Draft.key ∨ other = key := by
    rw [h.keys]
    simp [or_and_right, exists_or, habout, eq_comm]
  have hother : ∀ draft ∈ drafts, draft.key ≠ key → Folded (rows ++ [row]) draft :=
    fun draft hdraft hne => (h.folded draft hdraft).concat_of_ne (by simpa [habout] using hne.symm)
  rcases hcases with ⟨hknown, rfl⟩ | ⟨hnew, start, hstart, rfl⟩
  · have hmapped : (drafts.map fun draft =>
        if draft.key = key then draft.addRow row else draft).map Draft.key =
        drafts.map Draft.key := by
      rw [List.map_map]
      refine List.map_congr_left fun draft _ => ?_
      by_cases hkey : draft.key = key <;> simp [hkey]
    refine ⟨hmapped ▸ h.nodup, fun other => ?_, fun draft hdraft => ?_, hunderstood⟩
    · rw [hmapped, hkeys]
      exact ⟨.inl, fun hor => hor.elim id fun heq => heq ▸ hknown⟩
    · obtain ⟨old, hold, rfl⟩ := List.mem_map.1 hdraft
      by_cases hkey : old.key = key
      · rw [if_pos hkey]
        exact (h.folded old hold).concat_of_eq (hkey ▸ habout)
      · rw [if_neg hkey]
        exact hother old hold hkey
  · have hmapped : (drafts ++ [start.addRow row]).map Draft.key = drafts.map Draft.key ++ [key] := by
      simp [(newDraft_ok hstart).1]
    refine ⟨?_, fun other => ?_, fun draft hdraft => ?_, hunderstood⟩
    · rw [hmapped, List.nodup_append_comm]
      exact List.nodup_cons.2 ⟨hnew, h.nodup⟩
    · rw [hmapped, hkeys, List.mem_append, List.mem_singleton]
    · rcases List.mem_append.1 hdraft with hdraft | hdraft
      · exact hother draft hdraft fun heq => hnew (heq ▸ List.mem_map_of_mem hdraft)
      · obtain rfl := List.mem_singleton.1 hdraft
        exact folded_newDraft habout hstart fun other hmem hsame =>
          hnew ((h.keys key).2 ⟨other, hmem, hsame⟩)

end

theorem merged_foldlM {before rows : List Row} {drafts drafts' : List Draft}
    (h : Merged before drafts) (hrows : rows.foldlM mergeRow drafts = .ok drafts') :
    Merged (before ++ rows) drafts' := by
  induction rows generalizing before drafts with
  | nil =>
    cases hrows
    rwa [List.append_nil]
  | cons row rest ih =>
    rw [List.foldlM_cons] at hrows
    cases hrow : mergeRow drafts row with
    | error error =>
      rw [hrow] at hrows
      cases hrows
    | ok between =>
      rw [hrow] at hrows
      have := ih (merged_mergeRow h hrow) hrows
      rwa [List.append_assoc] at this

theorem foldlM_of_readable {rows : List Row} (h : ∀ row ∈ rows, Readable row)
    (drafts : List Draft) : ∃ drafts', rows.foldlM mergeRow drafts = .ok drafts' := by
  induction rows generalizing drafts with
  | nil => exact ⟨drafts, rfl⟩
  | cons row rest ih =>
    obtain ⟨between, hbetween⟩ := mergeRow_of_readable (h row List.mem_cons_self) drafts
    obtain ⟨drafts', hdrafts'⟩ := ih (fun other hother => h other (List.mem_cons_of_mem _ hother))
      between
    refine ⟨drafts', ?_⟩
    rw [List.foldlM_cons, hbetween]
    exact hdrafts'

/-- Consistent rows that have been merged can be understood one by one. -/
theorem Merged.readable {rows : List Row} {drafts : List Draft} (h : Merged rows drafts)
    (hconsistent : Consistent rows) : ∀ row ∈ rows, Readable row := by
  intro row hrow
  refine ⟨h.understood row hrow, fun table name hkey => ?_⟩
  obtain ⟨draft, hdraft, hdraftkey⟩ := List.mem_map.1 ((h.keys (table, name)).2 ⟨row, hrow, hkey⟩)
  obtain ⟨first, hfirst, start, hfirstabout, hstart, -⟩ := h.folded draft hdraft
  rw [hdraftkey] at hfirstabout hstart
  obtain ⟨hplace, hnullable, htype⟩ :=
    hconsistent.described row hrow first hfirst (hkey.trans hfirstabout.symm)
  exact ⟨start, (newDraft_congr hplace hnullable htype table name).trans hstart⟩

/-! ## What the rows of a column add up to -/

def addNew (known : List Membership) (membership : Membership) : List Membership :=
  if known.contains membership then known else known ++ [membership]

theorem nodup_addNew {known : List Membership} (h : known.Nodup) (membership : Membership) :
    (addNew known membership).Nodup := by
  unfold addNew
  split
  · exact h
  · rename_i hnew
    rw [List.nodup_append_comm]
    exact List.nodup_cons.2 ⟨by simpa using hnew, h⟩

theorem mem_addNew {known : List Membership} {membership other : Membership} :
    other ∈ addNew known membership ↔ other ∈ known ∨ other = membership := by
  unfold addNew
  split
  · rename_i hold
    have hold : membership ∈ known := by simpa using hold
    exact ⟨.inl, fun h => h.elim id fun heq => heq ▸ hold⟩
  · simp

theorem foldl_addNew (reported : List Membership) {known : List Membership} (h : known.Nodup) :
    (reported.foldl addNew known).Nodup ∧
      ∀ membership, membership ∈ reported.foldl addNew known ↔
        membership ∈ known ∨ membership ∈ reported := by
  induction reported generalizing known with
  | nil => exact ⟨h, by simp⟩
  | cons first rest ih =>
    obtain ⟨hnodup, hmem⟩ := ih (nodup_addNew h first)
    refine ⟨hnodup, fun membership => ?_⟩
    rw [List.foldl_cons, hmem, mem_addNew, List.mem_cons, or_assoc]

/-- The option that a row reports, by the name under which it is kept. -/
def option? (row : Row) : Option (String × String) :=
  (spelledOption? row).map fun (name, value) => (lowerName name, value)

theorem addRow_eq (draft : Draft) (row : Row) :
    draft.addRow row =
      ⟨{ draft.column with
          memberships := (reported? row).toList.foldl addNew draft.column.memberships },
        (option? row).toList.foldl (fun map e => map.insert e.1 e.2) draft.options⟩ := by
  unfold Draft.addRow Draft.add option? spelledOption?
  cases reported? row <;> cases textCell row 9 <;> cases textCell row 10 <;> rfl

theorem foldl_addRow (rows : List Row) (start : Draft) :
    rows.foldl Draft.addRow start =
      ⟨{ start.column with
          memberships := (rows.filterMap reported?).foldl addNew start.column.memberships },
        (rows.filterMap option?).foldl (fun map e => map.insert e.1 e.2) start.options⟩ := by
  induction rows generalizing start with
  | nil => rfl
  | cons row rest ih =>
    rw [List.foldl_cons, ih, addRow_eq]
    cases hmember : reported? row <;> cases hoption : option? row <;>
      simp [hmember, hoption]

/-- What is known of a draft of merged rows. -/
theorem Merged.draft {rows : List Row} {drafts : List Draft} (h : Merged rows drafts)
    {draft : Draft} (hdraft : draft ∈ drafts) :
    ∃ first ∈ rows, ∃ start, about? first = some draft.key ∧
      newDraft draft.key.1 draft.key.2 first = .ok start ∧
      draft.column.bare = start.column ∧
      draft.column.memberships.Nodup ∧
      (∀ membership, membership ∈ draft.column.memberships ↔
        ∃ row ∈ rows, about? row = some draft.key ∧ reported? row = some membership) ∧
      draft.options = NameMap.ofList ((rowsAbout rows draft.key).filterMap option?) := by
  obtain ⟨first, hfirst, start, habout, hstart, hfold⟩ := h.folded draft hdraft
  obtain ⟨-, -, hempty, hoptions⟩ := newDraft_ok hstart
  have hmembers := foldl_addNew ((rowsAbout rows draft.key).filterMap reported?) List.nodup_nil
  rw [foldl_addRow, hempty, hoptions] at hfold
  have hcolumn : draft.column = { start.column with
      memberships := ((rowsAbout rows draft.key).filterMap reported?).foldl addNew [] } :=
    congrArg Draft.column hfold
  refine ⟨first, hfirst, start, habout, hstart, ?_, ?_, fun membership => ?_,
    congrArg Draft.options hfold⟩
  · rw [hcolumn, Column.bare, ← hempty]
  · rw [hcolumn]
    exact hmembers.1
  · rw [hcolumn]
    refine (hmembers.2 membership).trans ?_
    simp [rowsAbout, and_assoc]

theorem Merged.place {rows : List Row} {drafts : List Draft} (h : Merged rows drafts)
    {place : Place} (hplace : place ∈ places (drafts.map Draft.column)) :
    ∃ row ∈ rows, about? row = some (place.table, place.column) ∧
      reported? row = some place.membership := by
  obtain ⟨column, hcolumn, hplace⟩ := List.mem_flatMap.1 hplace
  obtain ⟨draft, hdraft, rfl⟩ := List.mem_map.1 hcolumn
  obtain ⟨membership, hmembership, rfl⟩ := List.mem_map.1 hplace
  obtain ⟨-, -, -, -, -, -, -, hmembers, -⟩ := h.draft hdraft
  exact (hmembers membership).1 hmembership

/-! ## Merging reordered rows -/

/-- Two drafts are of the same column, and differ in nothing but the order of memberships. -/
structure Draft.Agrees (draft other : Draft) : Prop where
  column : draft.column.Agrees other.column
  options : draft.options = other.options

section
variable {rows rows' : List Row} {drafts drafts' : List Draft}

theorem Consistent.perm (h : Consistent rows) (hperm : rows.Perm rows') : Consistent rows' :=
  ⟨fun a ha b hb => h.described a (hperm.mem_iff.2 ha) b (hperm.mem_iff.2 hb),
    fun a ha b hb => h.positions a (hperm.mem_iff.2 ha) b (hperm.mem_iff.2 hb),
    fun a ha b hb => h.unique a (hperm.mem_iff.2 ha) b (hperm.mem_iff.2 hb)⟩

theorem OptionsAgree.perm {key : String → String} (h : OptionsAgree key rows)
    (hperm : rows.Perm rows') : OptionsAgree key rows' :=
  fun a ha b hb => h a (hperm.mem_iff.2 ha) b (hperm.mem_iff.2 hb)

theorem Merged.agrees (h : Merged rows drafts) (h' : Merged rows' drafts')
    (hperm : rows.Perm rows') (hconsistent : Consistent rows) (hagree : OptionsAgree lowerName rows)
    {draft other : Draft} (hdraft : draft ∈ drafts) (hother : other ∈ drafts')
    (hkey : draft.key = other.key) : draft.Agrees other := by
  obtain ⟨first, hfirst, start, habout, hstart, hbare, hnodup, hmembers, hoptions⟩ :=
    h.draft hdraft
  obtain ⟨first', hfirst', start', habout', hstart', hbare', hnodup', hmembers', hoptions'⟩ :=
    h'.draft hother
  rw [← hkey] at habout' hstart' hoptions'
  have hsame : start = start' := by
    obtain ⟨hplace, hnullable, htype⟩ := hconsistent.described first hfirst first'
      (hperm.mem_iff.2 hfirst') (habout.trans habout'.symm)
    rw [newDraft_congr hplace hnullable htype, hstart'] at hstart
    exact (Except.ok.inj hstart).symm
  refine ⟨⟨by rw [hbare, hbare', hsame], ?_⟩, ?_⟩
  · refine (List.perm_ext_iff_of_nodup hnodup hnodup').2 fun membership => ?_
    rw [hmembers, hmembers', hkey]
    simp only [hperm.mem_iff]
  · rw [hoptions, hoptions']
    refine NameMap.ofList_congr (fun _ => ((hperm.filter _).filterMap _).mem_iff)
      fun a ha b hb hname => ?_
    obtain ⟨row, hrow, ha⟩ := List.mem_filterMap.1 ha
    obtain ⟨row', hrow', hb⟩ := List.mem_filterMap.1 hb
    obtain ⟨⟨name, value⟩, hspelled, rfl⟩ := Option.map_eq_some_iff.1 ha
    obtain ⟨⟨name', value'⟩, hspelled', rfl⟩ := Option.map_eq_some_iff.1 hb
    simp only [rowsAbout, List.mem_filter, decide_eq_true_eq] at hrow hrow'
    exact hagree row hrow.1 row' hrow'.1 (hrow.2.trans hrow'.2.symm) name name' value value'
      hspelled hspelled' hname

/-- Merging reordered rows gives reordered drafts. -/
theorem Merged.reordered (h : Merged rows drafts) (h' : Merged rows' drafts')
    (hperm : rows.Perm rows') (hconsistent : Consistent rows)
    (hagree : OptionsAgree lowerName rows) :
    ∃ others, List.Forall₂ Draft.Agrees drafts others ∧ others.Perm drafts' := by
  have hkeys : (drafts.map Draft.key).Perm (drafts'.map Draft.key) := by
    refine (List.perm_ext_iff_of_nodup h.nodup h'.nodup).2 fun key => ?_
    rw [h.keys, h'.keys]
    simp only [hperm.mem_iff]
  have hself : List.Forall₂ (fun key draft => draft ∈ drafts' ∧ draft.key = key)
      (drafts'.map Draft.key) drafts' :=
    List.forall₂_map_left_iff.2 (List.forall₂_same.2 fun _ hmem => ⟨hmem, rfl⟩)
  obtain ⟨others, hothers, hpermuted⟩ := List.perm_comp_forall₂ hkeys hself
  refine ⟨others, ?_, hpermuted⟩
  have hpairs : List.Forall₂ (fun draft other => draft ∈ drafts ∧ other ∈ drafts' ∧
      other.key = draft.key) drafts others :=
    (List.forall₂_and_left drafts others).2 ⟨fun _ hmem => hmem, List.forall₂_map_left_iff.1 hothers⟩
  exact hpairs.imp fun draft other ⟨hdraft, hother, hkey⟩ =>
    h.agrees h' hperm hconsistent hagree hdraft hother hkey.symm

/-! ## Finished columns -/

theorem hasOneMember_eq (columns : List Column) (table index : String) :
    hasOneMember columns table index = hasOnePlace (places columns) table index := by
  have hcount : ((columns.filter (·.table = table)).flatMap fun column =>
      column.memberships.filter (·.name = index)).length =
      (((places columns).filter fun place => place.table = table).filter fun place =>
        place.membership.name = index).length := by
    rw [← places_filter]
    simp only [places, List.filter_flatMap, List.filter_map, List.length_flatMap, List.length_map,
      Function.comp_def]
  rw [hasOneMember, hasOnePlace, hcount, List.filter_filter]
  simp only [Bool.and_comm]

theorem hasOneMember_congr {columns others : List Column} (h : Reordered columns others)
    (table index : String) :
    hasOneMember columns table index = hasOneMember others table index := by
  rw [hasOneMember_eq, hasOneMember_eq, hasOnePlace, hasOnePlace, (h.places.filter _).length_eq]

/-- Drafts that agree are finished alike among reordered columns. -/
theorem Draft.Agrees.finish {draft other : Draft} (h : draft.Agrees other)
    {columns others : List Column} (hcolumns : Reordered columns others) :
    (draft.finish columns).Agrees (other.finish others) := by
  have hmembers := h.column.memberships
  have htable : draft.column.bare.table = other.column.bare.table := by rw [h.column.bare]
  refine ⟨?_, hmembers⟩
  have hbare (d : Draft) (l : List Column) : (d.finish l).bare =
      { d.column.bare with
        unique := d.column.memberships.any fun m =>
          m.unique && !m.primary && hasOneMember l d.column.bare.table m.name
        primaryKey := d.column.memberships.any (·.primary)
        extra := normalizeExtra (some d.options.render) } := rfl
  rw [hbare, hbare, htable, h.column.bare, h.options]
  simp only [hmembers.any_eq, hasOneMember_congr hcolumns]

theorem columnsOfRows_ok {rows : List Row} {columns : List Column} :
    columnsOfRows rows = .ok columns ↔ ∃ drafts, rows.foldlM mergeRow [] = .ok drafts ∧
      columns = (drafts.map (·.finish (drafts.map (·.column)))).mergeSort columnBefore := by
  unfold columnsOfRows
  cases hrows : rows.foldlM mergeRow [] with
  | error error => simp [bind, Except.bind]
  | ok drafts => simp [bind, Except.bind, eq_comm]

theorem unambiguous_of_merged (h : Merged rows drafts) (hconsistent : Consistent rows) :
    Unambiguous (drafts.map (·.finish (drafts.map (·.column)))) := by
  constructor
  · have hplaced : ∀ draft ∈ drafts, ∃ row ∈ rows, about? row = some draft.key ∧
        positionCell row 2 = .ok (some draft.column.position) := by
      intro draft hdraft
      obtain ⟨first, hfirst, start, habout, hstart, hbare, -⟩ := h.draft hdraft
      refine ⟨first, hfirst, habout, ?_⟩
      rw [(newDraft_ok hstart).2.1, ← hbare]
      rfl
    refine List.pairwise_map.2 ((List.pairwise_map.1 h.nodup).imp_of_mem
      fun {a b} ha hb hne htable => ?_)
    obtain ⟨row, hrow, habout, hposition⟩ := hplaced a ha
    obtain ⟨row', hrow', habout', hposition'⟩ := hplaced b hb
    have htable : a.column.table = b.column.table := htable
    have hname : a.column.name ≠ b.column.name := fun hname => hne (Prod.ext htable hname)
    intro heq
    have heq : a.column.position = b.column.position := heq
    refine hconsistent.positions row hrow row' hrow' a.column.table a.column.name b.column.name
      a.column.position habout ?_ hname hposition ?_
    · rw [habout', htable]
      rfl
    · rw [hposition', heq]
  · have hplaces : places (drafts.map (·.finish (drafts.map (·.column)))) =
        places (drafts.map (·.column)) := by
      simp only [places, List.flatMap_map]
      rfl
    rw [hplaces]
    intro a ha b hb htable hname
    obtain ⟨row, hrow, habout, hmember⟩ := h.place ha
    obtain ⟨row', hrow', habout', hmember'⟩ := h.place hb
    exact (hconsistent.unique row hrow row' hrow' a.table a.column b.column _ _ habout
      (htable ▸ habout') hmember hmember' hname).1

/-- Consistent rows in another order are read as the same columns in another order. -/
theorem columnsOfRows_reordered (hperm : rows.Perm rows') (hconsistent : Consistent rows)
    (hagree : OptionsAgree lowerName rows) {columns : List Column}
    (hread : columnsOfRows rows = .ok columns) :
    Unambiguous columns ∧ ∃ columns', columnsOfRows rows' = .ok columns' ∧
      Reordered columns columns' := by
  obtain ⟨drafts, hdrafts, rfl⟩ := columnsOfRows_ok.1 hread
  have h := merged_foldlM merged_nil hdrafts
  rw [List.nil_append] at h
  have hreadable : ∀ row ∈ rows', Readable row := fun row hrow =>
    h.readable hconsistent row (hperm.mem_iff.2 hrow)
  obtain ⟨drafts', hdrafts'⟩ := foldlM_of_readable hreadable []
  have h' := merged_foldlM merged_nil hdrafts'
  rw [List.nil_append] at h'
  obtain ⟨others, hagrees, hpermuted⟩ := h.reordered h' hperm hconsistent hagree
  have hcolumns : Reordered (drafts.map (·.column)) (drafts'.map (·.column)) := by
    refine (reordered_of_forall₂ ?_).trans (reordered_of_perm (hpermuted.map _))
    rw [List.forall₂_map_left_iff, List.forall₂_map_right_iff]
    exact hagrees.imp fun _ _ hpair => hpair.column
  have hfinished : Reordered (drafts.map (·.finish (drafts.map (·.column))))
      (drafts'.map (·.finish (drafts'.map (·.column)))) := by
    refine (reordered_of_forall₂ ?_).trans (reordered_of_perm (hpermuted.map _))
    rw [List.forall₂_map_left_iff, List.forall₂_map_right_iff]
    exact hagrees.imp fun _ _ hpair => hpair.finish hcolumns
  refine ⟨(unambiguous_of_merged h hconsistent).perm (List.mergeSort_perm _ _).symm, _,
    columnsOfRows_ok.2 ⟨drafts', hdrafts', rfl⟩, ?_⟩
  exact ((reordered_of_perm (List.mergeSort_perm _ _)).trans hfinished).trans
    (reordered_of_perm (List.mergeSort_perm _ _).symm)

end

end SchemaPlan.Spanner
