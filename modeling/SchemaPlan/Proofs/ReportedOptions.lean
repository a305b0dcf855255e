import SchemaPlan.Proofs.OptionSpelling
import SchemaPlan.Proofs.SpannerRows

/-!
# Options that the Spanner catalog reports

The catalog reports each option of a column in a row of its own. The options of a column are written
into one text and read again, twice, before they are compared with others. A comma in a value splits
the value, and names may make the text look like an option list; then the column has other options
than those that were reported, or none.

* `ofExtra_rendered_iff`: when names and values are read back from the text made of them.
* `Reported`: the options that the rows report.
* `reported_options_iff`: when a column has the options that its rows report.
-/
namespace SchemaPlan.Spanner

open Text

/-! ## Options written with any values -/

def Options.stored (options : Options) : Options :=
  options.mapValues fun _ value => storedValue value

theorem comma_mem_storedValue {value : String} :
    ',' ∈ (storedValue value).toList ↔ ',' ∈ value.toList := by
  rw [← List.count_pos_iff, ← List.count_pos_iff,
    count_storedValue (by decide) (by decide) (by decide)]

theorem closedIn_stored (options : Options) :
    closedIn options.stored.entries = closedIn options.entries := by
  have hcount (value : String) :=
    @count_storedValue ')' (by decide) (by decide) (by decide) value
  simp [closedIn, Options.stored, NameMap.mapValues, Function.comp_def, hcount]

theorem closedIn_present (options : Options) :
    closedIn options.present.entries = closedIn options.entries := by
  rw [closedIn, closedIn, Options.present, NameMap.filter]
  dsimp only
  induction options.entries with
  | nil => rfl
  | cons e rest ih =>
    by_cases hnull : e.2 = "null"
    · have hnone : e.2.toList.count ')' = 0 := by
        rw [hnull]
        decide
      rw [List.filter_cons_of_neg (by simpa using hnull), ih, List.map_cons, List.sum_cons, hnone,
        Nat.zero_add]
    · rw [List.filter_cons_of_pos (by simpa using hnull), List.map_cons, List.map_cons,
        List.sum_cons, List.sum_cons, ih]

theorem find?_stored_present (options : Options) (name : String) :
    options.stored.present.find? name =
      ((options.find? name).map storedValue).filter (· != "null") := by
  rw [Options.present, NameMap.find?_filter, Options.stored, NameMap.find?_mapValues]

theorem find?_of_comma {options : Options} {name value : String}
    (hfind : options.find? name = some value) (hcomma : ',' ∈ value.toList) :
    options.stored.present.find? name = some (storedValue value) := by
  rw [find?_stored_present, hfind]
  refine Option.filter_some_pos (bne_iff_ne.2 fun hnull => ?_)
  rw [← comma_mem_storedValue, hnull] at hcomma
  exact absurd hcomma (by decide)

/-- Reading the normal form of a text again gives no options, the same ones, or options that close
fewer brackets. -/
theorem closedIn_normalizeExtra_le (extra : Option String) :
    (Options.ofExtra (normalizeExtra extra)).entries = [] ∨
      closedIn (Options.ofExtra (normalizeExtra extra)).entries ≤
        closedIn (Options.ofExtra extra).entries := by
  by_cases hwrapped : LooksWrapped (· ∈ (Options.ofExtra extra).names)
  · exact (ofExtra_normalizeExtra_of_looksWrapped hwrapped).imp_right Nat.le_of_lt
  · exact .inr (Nat.le_of_eq (by rw [ofExtra_normalizeExtra hwrapped]))

section
variable {options : Options}

theorem ofExtra_render {options : Options} (h : ∀ e ∈ options.entries, Spelled e.1 e.2)
    (hplain : ¬LooksWrapped (· ∈ options.names)) :
    Options.ofExtra (some options.render) = options.stored.present :=
  ofExtra_of_read (read_render_of_not_looksWrapped h hplain)

/-- Options other than those that are kept are found if fewer brackets are closed, or none is
set. -/
theorem ne_of_closedIn {found : Options} (hne : options.stored.present.entries ≠ [])
    (h : found.entries = [] ∨ closedIn found.entries < closedIn options.entries) :
    found ≠ options.stored.present := by
  rintro rfl
  rcases h with hnil | hlt
  · exact hne hnil
  · rw [closedIn_present, closedIn_stored] at hlt
    exact Nat.lt_irrefl _ hlt

variable (h : ∀ e ∈ options.entries, Written e.1 e.2)
include h

theorem ofExtra_rendered_of_null (hnull : options.stored.present.entries = []) :
    Options.ofExtra (normalizeExtra (some options.render)) = options.stored.present := by
  have hnone : closedIn options.entries = 0 := by
    rw [← closedIn_stored, ← closedIn_present, hnull]
    rfl
  have hspelled : ∀ e ∈ options.entries, Spelled e.1 e.2 := by
    intro e he
    refine ⟨h e he, fun hcomma => ?_⟩
    have hvalue := find?_of_comma (NameMap.mem_entries.1 he) hcomma
    rw [NameMap.entries_eq_nil_iff.1 hnull] at hvalue
    cases hvalue
  have hset : (Options.ofExtra (some options.render)).entries = [] := by
    by_cases hwrapped : LooksWrapped (· ∈ options.names)
    · refine (ofExtra_render_of_looksWrapped hspelled hwrapped).resolve_right fun hlt => ?_
      rw [hnone] at hlt
      exact Nat.not_lt_zero _ hlt
    · rw [ofExtra_render hspelled hwrapped, hnull]
  rw [normalizeExtra_of_eq_nil hset]
  exact NameMap.ext_find? fun name => (NameMap.entries_eq_nil_iff.1 hnull name).symm

/-- Options are found in the normal form of their text just if none is set, or no value has a comma
and neither all of them nor those that are set look like an option list. -/
theorem ofExtra_rendered_iff :
    Options.ofExtra (normalizeExtra (some options.render)) = options.stored.present ↔
      options.stored.present.entries = [] ∨
        (∀ e ∈ options.entries, ',' ∉ e.2.toList) ∧ ¬LooksWrapped (· ∈ options.names) ∧
          ¬LooksWrapped (· ∈ options.stored.present.names) := by
  rcases eq_or_ne options.stored.present.entries [] with hnull | hne
  · exact iff_of_true (ofExtra_rendered_of_null h hnull) (.inl hnull)
  simp only [hne, false_or]
  by_cases hcomma : ∀ e ∈ options.entries, ',' ∉ e.2.toList
  case neg =>
    -- What is read has no commas.
    refine iff_of_false (fun hsame => hcomma fun e he hmem => ?_) fun hall => hcomma hall.1
    have hvalue := find?_of_comma (NameMap.mem_entries.1 he) hmem
    rw [← hsame] at hvalue
    exact (kept_of_ofExtra hvalue).value_whole.no_comma (comma_mem_storedValue.2 hmem)
  case pos =>
    have hspelled : ∀ e ∈ options.entries, Spelled e.1 e.2 := fun e he => ⟨h e he, hcomma e he⟩
    by_cases hwrapped : LooksWrapped (· ∈ options.names)
    case pos =>
      refine iff_of_false (ne_of_closedIn hne ?_) fun hall => hall.2.1 hwrapped
      rcases ofExtra_render_of_looksWrapped hspelled hwrapped with hnil | hlt
      · rw [normalizeExtra_of_eq_nil hnil]
        exact .inl rfl
      · exact (closedIn_normalizeExtra_le _).imp_right fun hle => hle.trans_lt hlt
    case neg =>
      have hset := ofExtra_render hspelled hwrapped
      by_cases hagain : LooksWrapped (· ∈ options.stored.present.names)
      · refine iff_of_false (ne_of_closedIn hne ?_) fun hall => hall.2.2 hagain
        have hlost := ofExtra_normalizeExtra_of_looksWrapped (hset ▸ hagain)
        rwa [hset, closedIn_present, closedIn_stored] at hlost
      · refine iff_of_true ?_ ⟨hcomma, hwrapped, hagain⟩
        rw [ofExtra_normalizeExtra (hset ▸ hagain), hset]

end

/-! ## Options of a column -/

/-- The rows report an option of a column: its name in lower case, and its value as it is kept. -/
def Reported (rows : List Row) (column : Column) (name value : String) : Prop :=
  ∃ row ∈ rows, about? row = some (column.table, column.name) ∧
    ∃ spelled raw, spelledOption? row = some (spelled, raw) ∧
      name = lowerName spelled ∧ value = storedValue raw

/-- The names of options have no marks of an assignment and no blanks around them, and the values
are more than blanks. -/
def PlainlyNamed (rows : List Row) : Prop :=
  ∀ row ∈ rows, ∀ name value, spelledOption? row = some (name, value) →
    Whole name.toList ∧ '=' ∉ name.toList ∧ trim value.toList ≠ []

theorem written_lowerName {name value : String} (hname : Whole name.toList)
    (hsign : '=' ∉ name.toList) (hvalue : trim value.toList ≠ []) :
    Written (lowerName name) value := by
  constructor
  case name_whole => rw [lowerName, String.toList_ofList]; exact hname.lowerAscii
  case name_lower => rw [lowerName, String.toList_ofList, lowerAscii_lowerAscii]
  case name_no_sign =>
    rw [lowerName, String.toList_ofList]
    exact fun hmem => hsign (mem_of_mem_lowerAscii (by decide) hmem)
  case value_some => exact hvalue

/-- The options are those that the rows report of a column, with their values as they stand there. -/
def Collected (rows : List Row) (column : Column) (options : Options) : Prop :=
  ∀ name value, options.find? name = some value ↔
    ∃ row ∈ rows, about? row = some (column.table, column.name) ∧
      ∃ spelled, spelledOption? row = some (spelled, value) ∧ name = lowerName spelled

section
variable {rows : List Row} {column : Column} {options : Options}
  (h : Collected rows column options)
include h

theorem Collected.reported_iff (name value : String) :
    Reported rows column name value ↔
      ∃ raw, options.find? name = some raw ∧ value = storedValue raw := by
  simp only [h name]
  constructor
  · rintro ⟨row, hrow, habout, spelled, raw, hspelled, hname, rfl⟩
    exact ⟨raw, ⟨row, hrow, habout, spelled, hspelled, hname⟩, rfl⟩
  · rintro ⟨raw, ⟨row, hrow, habout, spelled, hspelled, hname⟩, rfl⟩
    exact ⟨row, hrow, habout, spelled, raw, hspelled, hname, rfl⟩

theorem Collected.find?_present_iff (name value : String) :
    options.stored.present.find? name = some value ↔
      Reported rows column name value ∧ value ≠ "null" := by
  rw [find?_stored_present, Option.filter_eq_some_iff, Option.map_eq_some_iff, h.reported_iff,
    bne_iff_ne]
  simp only [eq_comm]

theorem Collected.written (hnames : PlainlyNamed rows) :
    ∀ e ∈ options.entries, Written e.1 e.2 := by
  rintro ⟨name, value⟩ he
  obtain ⟨row, hrow, -, spelled, hspelled, rfl⟩ := (h _ _).1 (NameMap.mem_entries.1 he)
  obtain ⟨hname, hsign, hvalue⟩ := hnames row hrow spelled value hspelled
  exact written_lowerName hname hsign hvalue

theorem Collected.no_comma_iff :
    (∀ e ∈ options.entries, ',' ∉ e.2.toList) ↔
      ∀ name value, Reported rows column name value → ',' ∉ value.toList := by
  simp only [h.reported_iff]
  constructor
  · rintro hall name value ⟨raw, hraw, rfl⟩
    exact comma_mem_storedValue.not.2 (hall (name, raw) (NameMap.mem_entries.2 hraw))
  · rintro hall ⟨name, raw⟩ he
    exact comma_mem_storedValue.not.1 (hall name _ ⟨raw, NameMap.mem_entries.1 he, rfl⟩)

end

section
variable {rows : List Row} {columns : List Column} (hread : columnsOfRows rows = .ok columns)
  (hagree : OptionsAgree lowerName rows) {column : Column} (hcolumn : column ∈ columns)
include hread hagree hcolumn

/-- The text of a column is made from the options that its rows report. -/
theorem exists_collected :
    ∃ options : Options, column.extra = normalizeExtra (some options.render) ∧
      Collected rows column options := by
  obtain ⟨drafts, hdrafts, rfl⟩ := columnsOfRows_ok.1 hread
  have hmerged := merged_foldlM merged_nil hdrafts
  rw [List.nil_append] at hmerged
  obtain ⟨draft, hdraft, rfl⟩ := List.mem_map.1 (List.mem_mergeSort.1 hcolumn)
  obtain ⟨-, -, -, -, -, -, -, -, hoptions⟩ := hmerged.draft hdraft
  refine ⟨draft.options, rfl, fun name value => ?_⟩
  have hreported (e : String × String) :
      e ∈ (rowsAbout rows draft.key).filterMap option? ↔
        ∃ row ∈ rows, about? row = some draft.key ∧
          ∃ spelled, spelledOption? row = some (spelled, e.2) ∧ e.1 = lowerName spelled := by
    simp only [List.mem_filterMap, rowsAbout, List.mem_filter, decide_eq_true_eq, option?,
      Option.map_eq_some_iff, and_assoc]
    constructor
    · rintro ⟨row, hrow, habout, ⟨spelled, value⟩, hspelled, rfl⟩
      exact ⟨row, hrow, habout, spelled, hspelled, rfl⟩
    · rintro ⟨row, hrow, habout, spelled, hspelled, hname⟩
      exact ⟨row, hrow, habout, (spelled, e.2), hspelled, Prod.ext hname.symm rfl⟩
  rw [hoptions, NameMap.find?_ofList_eq_some fun a ha b hb hname => ?_, hreported]
  · rfl
  · obtain ⟨row, hrow, habout, spelled, hspelled, ha⟩ := (hreported a).1 ha
    obtain ⟨row', hrow', habout', spelled', hspelled', hb⟩ := (hreported b).1 hb
    exact hagree row hrow row' hrow' (habout.trans habout'.symm) _ _ _ _ hspelled hspelled'
      (ha.symm.trans (hname.trans hb))

/-- A column has exactly the options that its rows report and that are not `null`, just if all are
`null`, or no value has a comma and neither all the options nor those that are not `null` look like
an option list. -/
theorem reported_options_iff (hnames : PlainlyNamed rows) :
    (∀ name value, (Options.ofExtra column.extra).find? name = some value ↔
        Reported rows column name value ∧ value ≠ "null") ↔
      (∀ name value, Reported rows column name value → value = "null") ∨
        (∀ name value, Reported rows column name value → ',' ∉ value.toList) ∧
          ¬LooksWrapped (fun name => ∃ value, Reported rows column name value) ∧
          ¬LooksWrapped (fun name => ∃ value, Reported rows column name value ∧ value ≠ "null") := by
  obtain ⟨options, hextra, hcollected⟩ := exists_collected hread hagree hcolumn
  have hset := hcollected.find?_present_iff
  have hsame : (∀ name value, (Options.ofExtra column.extra).find? name = some value ↔
        Reported rows column name value ∧ value ≠ "null") ↔
      Options.ofExtra column.extra = options.stored.present := by
    simp only [← hset]
    exact ⟨fun hall => NameMap.ext_find? fun name => Option.ext (hall name),
      fun heq name value => by rw [heq]⟩
  have hnull : options.stored.present.entries = [] ↔
      ∀ name value, Reported rows column name value → value = "null" := by
    rw [NameMap.entries_eq_nil_iff]
    simp only [Option.eq_none_iff_forall_ne_some, ne_eq, hset, not_and, not_not]
  have hnamed : (· ∈ options.names) = fun name => ∃ value, Reported rows column name value := by
    funext name
    simp [NameMap.mem_names, hcollected.reported_iff]
  have hnamedSet : (· ∈ options.stored.present.names) =
      fun name => ∃ value, Reported rows column name value ∧ value ≠ "null" := by
    funext name
    simp only [NameMap.mem_names, hset]
  rw [hsame, hextra, ofExtra_rendered_iff (hcollected.written hnames), hnull,
    hcollected.no_comma_iff, hnamed, hnamedSet]

end

/-- A row about the one column of a table, with an option. -/
def stampRow (option value : String) : Row :=
  [.text "orders", .text "at", .text "1", .text "NO", .text "TIMESTAMP", .null, .null, .null, .null,
    .text option, .text value]

/-- The column that such rows are about. -/
def stampColumn (extra : Option String) : Column where
  table := "orders"
  name := "at"
  dataType := "TIMESTAMP"
  position := 1
  nullable := false
  extra

theorem optionsAgree_stampRows {name name' : String} (h : lowerName name ≠ lowerName name')
    (value value' : String) :
    OptionsAgree lowerName [stampRow name value, stampRow name' value'] := by
  have hrow (name value : String) : spelledOption? (stampRow name value) = some (name, value) := rfl
  intro a ha b hb _ left right x y hleft hright hsame
  rcases List.mem_pair.1 ha with rfl | rfl <;> rcases List.mem_pair.1 hb with rfl | rfl <;>
    rw [hrow] at hleft hright <;> cases hleft <;> cases hright
  · rfl
  · exact absurd hsame h
  · exact absurd hsame.symm h
  · rfl

theorem plainlyNamed_stampRows {name name' value value' : String}
    (h : Whole name.toList ∧ '=' ∉ name.toList ∧ trim value.toList ≠ [])
    (h' : Whole name'.toList ∧ '=' ∉ name'.toList ∧ trim value'.toList ≠ []) :
    PlainlyNamed [stampRow name value, stampRow name' value'] := by
  have hrow (name value : String) : spelledOption? (stampRow name value) = some (name, value) := rfl
  intro row hmem left x hleft
  rcases List.mem_pair.1 hmem with rfl | rfl <;> rw [hrow] at hleft <;> cases hleft
  · exact h
  · exact h'

/-- Signs and blanks in values do no harm. -/
theorem reported_options_stamp :
    let rows := [stampRow "allow_commit_timestamp" "TRUE", stampRow "Note" " x = (1) "]
    let column := stampColumn (some "allow_commit_timestamp=true, note=x = (1)")
    columnsOfRows rows = .ok [column] ∧ OptionsAgree lowerName rows ∧ column ∈ [column] ∧
      PlainlyNamed rows ∧
      ((∀ name value, (Options.ofExtra column.extra).find? name = some value ↔
          Reported rows column name value ∧ value ≠ "null") ↔
        (∀ name value, Reported rows column name value → value = "null") ∨
          (∀ name value, Reported rows column name value → ',' ∉ value.toList) ∧
            ¬LooksWrapped (fun name => ∃ value, Reported rows column name value) ∧
            ¬LooksWrapped (fun name =>
              ∃ value, Reported rows column name value ∧ value ≠ "null")) := by
  intro rows column
  have hread : columnsOfRows rows = .ok [column] := eq_ok_of_toOption (by decide +kernel)
  have hagree : OptionsAgree lowerName rows := optionsAgree_stampRows (by decide) _ _
  have hnames : PlainlyNamed rows := plainlyNamed_stampRows (by decide) (by decide)
  have hcolumn : column ∈ [column] := List.mem_singleton_self column
  exact ⟨hread, hagree, hcolumn, hnames, reported_options_iff hread hagree hcolumn hnames⟩

/-- A comma in one value hides the other options, too. -/
theorem comma_hides_options :
    let rows := [stampRow "allow_commit_timestamp" "true", stampRow "note" "a,b"]
    columnsOfRows rows = .ok [stampColumn none] ∧ OptionsAgree lowerName rows ∧
      PlainlyNamed rows ∧ Reported rows (stampColumn none) "allow_commit_timestamp" "true" ∧
      (Options.ofExtra (stampColumn none).extra).find? "allow_commit_timestamp" = none :=
  ⟨eq_ok_of_toOption (by decide +kernel), optionsAgree_stampRows (by decide) _ _,
    plainlyNamed_stampRows (by decide) (by decide),
    ⟨_, List.mem_cons_self, rfl, _, _, rfl, by decide, by decide⟩, by rfl⟩

end SchemaPlan.Spanner
