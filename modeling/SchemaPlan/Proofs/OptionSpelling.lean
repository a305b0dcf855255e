import Mathlib.Algebra.Order.BigOperators.Group.List
import Mathlib.Algebra.Order.Ring.Nat
import Mathlib.Data.List.Perm.Subperm
import SchemaPlan.Proofs.BaseType
import SchemaPlan.Proofs.ColumnOptions

/-!
# Options that look like an option list

Options are written as assignments, one behind the other. A text that starts with the word `options`
is taken for an option list, of which only what stands between the brackets is read; but a name may
start with this word, too. Options whose text starts so are not read back. If they are read as
others at all, then a bracket that one of their values closes has been taken for the end of a list.

* `read_render_of_not_looksWrapped`: all other options are read back from their text.
* `valueBrackets`: counts the brackets that values close, and `valueBrackets_body`: the body of an
  option list has one less.
* `rendered_options_iff`: when options are read back from their text.
-/
namespace SchemaPlan.Spanner

open Text

/-! ## Options that look wrapped -/

/-- The first of some names starts with the word in front of an option list. -/
def LooksWrapped (named : String → Prop) : Prop :=
  ∃ name, named name ∧ "options".toList <+: name.toList ∧ ∀ other, named other → name ≤ other

/-- A name as it is kept, and a value that is more than blanks. -/
structure Written (name value : String) : Prop where
  name_whole : Whole name.toList
  name_lower : lowerAscii name.toList = name.toList
  name_no_sign : '=' ∉ name.toList
  value_some : trim value.toList ≠ []

/-- A name and a value that stay together in a text, whatever blanks are around the value. -/
structure Spelled (name value : String) : Prop extends Written name value where
  value_no_comma : ',' ∉ value.toList

theorem Kept.spelled {name value : String} (h : Kept name value) : Spelled name value :=
  { h with
    value_some := by
      rw [trim_eq_self h.value_whole.trimmed]
      exact h.value_whole.ne
    value_no_comma := h.value_whole.no_comma }

def storedValue (value : String) : String :=
  String.ofList (normalizeValue (trim value.toList))

theorem Kept.storedValue {name value : String} (h : Kept name value) :
    storedValue value = value := by
  rw [Spanner.storedValue, trim_eq_self h.value_whole.trimmed, h.value_normal, String.ofList_toList]

section
variable {name value : String} (h : Spelled name value)
include h

theorem Spelled.trim_append (rest : List Char) :
    trim (assignmentText name value ++ rest) =
      name.toList ++ '=' :: trimRight (value.toList ++ rest) := by
  rw [assignmentText, List.append_assoc, List.append_assoc, List.singleton_append]
  exact trim_append_mark h.name_whole.trimmed h.name_whole.ne (by decide) _

theorem Spelled.trim_eq_trimRight (rest : List Char) :
    trim (assignmentText name value ++ rest) = trimRight (assignmentText name value ++ rest) := by
  rw [h.trim_append, assignmentText, List.append_assoc, List.append_assoc, List.singleton_append,
    trimRight_append_mark (by decide)]

theorem Spelled.trim_assignmentText :
    trim (assignmentText name value) = name.toList ++ '=' :: trimRight value.toList := by
  simpa using h.trim_append []

theorem Spelled.entry : trim (assignmentText name value) ≠ [] ∧ ',' ∉ assignmentText name value := by
  refine ⟨?_, ?_⟩
  · rw [h.trim_assignmentText]
    simp
  · simp [assignmentText, h.name_whole.no_comma, h.value_no_comma]

theorem Spelled.readAssignment :
    readAssignment (trim (assignmentText name value)) = .ok (name, storedValue value) := by
  have hne : (name.toList.isEmpty || (trim value.toList).isEmpty) = false := by
    simp [h.name_whole.ne, h.value_some]
  rw [h.trim_assignmentText, Spanner.readAssignment, cutAt_append h.name_no_sign]
  dsimp only [Option.map_some]
  rw [trim_eq_self h.name_whole.trimmed, trim_trimRight, hne, h.name_lower, String.ofList_toList]
  rfl

/-- Whether a text starts with the word in front of a list shows in its first name. -/
theorem Spelled.startsWithWord_iff (rest : List Char) :
    sameLetters ((trim (assignmentText name value ++ rest)).take 7) "OPTIONS".toList = true ↔
      "options".toList <+: name.toList := by
  rw [h.trim_append, sameLetters, beq_iff_eq]
  have hlower (rest : List Char) : lowerAscii ((name.toList ++ '=' :: rest).take 7) =
      (name.toList ++ '=' :: lowerAscii rest).take 7 := by
    rw [lowerAscii, List.map_take, List.map_append, ← lowerAscii, h.name_lower]
    rfl
  have hword : lowerAscii "OPTIONS".toList = "options".toList := by decide
  have hmark : '=' ∉ "options".toList := by decide
  rw [hlower, hword, ← isPrefix_append_mark hmark name.toList, List.prefix_iff_eq_take, eq_comm]
  rfl

end

theorem optionEntries_trimRight (cs : List Char) :
    optionEntries (trimRight cs) = optionEntries cs := by
  obtain ⟨blanks, hblanks, htext⟩ := exists_blanks_of_trimRight cs
  have hcomma : ',' ∉ blanks := not_mem_blanks (by decide) hblanks
  obtain ⟨before, last, hshort, hlong⟩ := pieces_append_end hcomma (trimRight cs)
  conv_rhs => rw [htext]
  rw [optionEntries, optionEntries, hshort, hlong]
  simp [trim_append_right hblanks]

/-! ## Options that are read back -/

section
variable {options : Options}

/-- The first name of some options. -/
theorem looksWrapped_iff {name value : String} {rest : List (String × String)}
    (h : options.entries = (name, value) :: rest) :
    LooksWrapped (· ∈ options.names) ↔ "options".toList <+: name.toList := by
  have hordered := options.ordered
  rw [h, List.pairwise_cons] at hordered
  have hnames : options.names = name :: rest.map Prod.fst := by rw [NameMap.names, h]; rfl
  have hfirst : ∀ other, other ∈ options.names → name ≤ other := by
    intro other hother
    rw [hnames, List.mem_cons] at hother
    rcases hother with rfl | hother
    · exact String.le_refl _
    · obtain ⟨e, he, rfl⟩ := List.mem_map.1 hother
      exact String.not_lt.1 fun hlt => String.lt_irrefl _ (String.lt_trans hlt (hordered.1 e he))
  have hmem : name ∈ options.names := hnames ▸ List.mem_cons_self
  constructor
  · rintro ⟨other, hother, hword, hleast⟩
    rwa [String.le_antisymm (hfirst other hother) (hleast name hmem)]
  · exact fun hword => ⟨name, hmem, hword, hfirst⟩

theorem exists_toList_render {name value : String} {rest : List (String × String)}
    (h : options.entries = (name, value) :: rest) :
    ∃ tail, options.render.toList = assignmentText name value ++ tail := by
  rw [toList_render, h, List.map_cons]
  cases rest with
  | nil => exact ⟨[], by rw [List.map_nil, List.intercalate_singleton, List.append_nil]⟩
  | cons next rest =>
    rw [List.map_cons, List.intercalate_cons_cons, List.append_assoc]
    exact ⟨_, rfl⟩

variable (h : ∀ e ∈ options.entries, Spelled e.1 e.2)
include h

theorem read_render_of_not_looksWrapped (hplain : ¬LooksWrapped (· ∈ options.names)) :
    Options.read options.render = .ok (options.mapValues fun _ value => storedValue value) := by
  have hbody : optionBody options.render = .ok (trimRight options.render.toList) := by
    rcases hentries : options.entries with _ | ⟨⟨name, value⟩, rest⟩
    · have hempty : options.render = "" := by rw [Options.render, hentries]; rfl
      rw [hempty]
      rfl
    · have hspelled : Spelled name value := h (name, value) (hentries ▸ List.mem_cons_self)
      obtain ⟨tail, htail⟩ := exists_toList_render hentries
      have hword := (hspelled.startsWithWord_iff tail).not.2
        ((looksWrapped_iff hentries).not.1 hplain)
      rw [optionBody, htail]
      dsimp only
      rw [if_neg hword, hspelled.trim_eq_trimRight]
  have hread : (optionEntries (trimRight options.render.toList)).mapM readAssignment =
      .ok (options.mapValues fun _ value => storedValue value).entries := by
    rw [optionEntries_trimRight, toList_render, ← List.nil_append ([',', ' '].intercalate _),
      optionEntries_intercalate (fun entry hentry => ?_) (by simp), List.map_map, mapM_eq_ok_iff,
      NameMap.mapValues, List.forall₂_map_left_iff, List.forall₂_map_right_iff, List.forall₂_same]
    · exact fun e he => (h e he).readAssignment
    · obtain ⟨e, he, rfl⟩ := List.mem_map.1 hentry
      exact (h e he).entry
  refine bind_eq_ok_iff.2 ⟨_, hbody, bind_eq_ok_iff.2 ⟨_, hread, ?_⟩⟩
  rw [NameMap.ofList_entries]

end

/-! ## Brackets in values -/

/-- Whether the scanner stands in a value behind a character: a value starts at the sign of an
assignment and ends at a comma. -/
def valueBehind (inValue : Bool) (c : Char) : Bool :=
  c == '=' || (inValue && c != ',')

/-- How many brackets are closed in the values of a text. -/
def valueBrackets : (inValue : Bool) → List Char → ℕ
  | _, [] => 0
  | inValue, c :: rest =>
    (if inValue && c == ')' then 1 else 0) + valueBrackets (valueBehind inValue c) rest

/-- How many brackets are closed in the values of some assignments. -/
def closedIn (assignments : List (String × String)) : ℕ :=
  (assignments.map fun e => e.2.toList.count ')').sum

theorem valueBrackets_append (inValue : Bool) (a b : List Char) :
    valueBrackets inValue (a ++ b) =
      valueBrackets inValue a + valueBrackets (a.foldl valueBehind inValue) b := by
  induction a generalizing inValue with
  | nil => simp [valueBrackets]
  | cons c rest ih =>
    rw [List.cons_append, valueBrackets, valueBrackets, ih, List.foldl_cons, Nat.add_assoc]

theorem valueBrackets_name {cs : List Char} (hcomma : ',' ∉ cs) (hsign : '=' ∉ cs) :
    valueBrackets false cs = 0 ∧ cs.foldl valueBehind false = false := by
  induction cs with
  | nil => exact ⟨rfl, rfl⟩
  | cons c rest ih =>
    rw [List.mem_cons, not_or] at hcomma hsign
    have hstay : valueBehind false c = false := by simpa [valueBehind] using hsign.1 ∘ Eq.symm
    rw [valueBrackets, List.foldl_cons, hstay]
    simpa using ih hcomma.2 hsign.2

theorem valueBrackets_value {cs : List Char} (hcomma : ',' ∉ cs) :
    valueBrackets true cs = cs.count ')' ∧ cs.foldl valueBehind true = true := by
  induction cs with
  | nil => exact ⟨rfl, rfl⟩
  | cons c rest ih =>
    rw [List.mem_cons, not_or] at hcomma
    have hstay : valueBehind true c = true := by
      simpa [valueBehind] using .inr (hcomma.1 ∘ Eq.symm)
    rw [valueBrackets, List.foldl_cons, hstay, (ih hcomma.2).1, List.count_cons]
    exact ⟨by simp [Nat.add_comm], (ih hcomma.2).2⟩

theorem valueBrackets_blanks {cs : List Char} (h : ∀ c ∈ cs, isBlank c = true) (inValue : Bool) :
    valueBrackets inValue cs = 0 ∧ cs.foldl valueBehind inValue = inValue := by
  have hcomma : ',' ∉ cs := not_mem_blanks (by decide) h
  cases inValue with
  | false => exact valueBrackets_name hcomma (not_mem_blanks (by decide) h)
  | true =>
    obtain ⟨hcount, hstay⟩ := valueBrackets_value hcomma
    exact ⟨hcount.trans (List.count_eq_zero.2 (not_mem_blanks (by decide) h)), hstay⟩

theorem valueBrackets_trim (cs : List Char) :
    valueBrackets false (trim cs) = valueBrackets false cs := by
  obtain ⟨before, behind, hbefore, hbehind, htext⟩ := exists_blanks_of_trim cs
  have hstart := valueBrackets_blanks hbefore false
  conv_rhs => rw [htext, valueBrackets_append, valueBrackets_append, hstart.1, hstart.2,
    (valueBrackets_blanks hbehind _).1]
  omega

theorem foldl_valueBehind_trim (cs : List Char) :
    (trim cs).foldl valueBehind false = cs.foldl valueBehind false := by
  obtain ⟨before, behind, hbefore, hbehind, htext⟩ := exists_blanks_of_trim cs
  conv_rhs => rw [htext, List.foldl_append, List.foldl_append,
    (valueBrackets_blanks hbefore false).2, (valueBrackets_blanks hbehind _).2]

/-- Marks are neither blanks nor letters, so a value keeps them. -/
theorem count_normalizeValue {mark : Char} (hcode : mark.toNat < 97) (hlower : mark.toLower = mark)
    (value : List Char) : (normalizeValue value).count mark = value.count mark := by
  rcases normalizeValue_cases value with h | h
  · rw [h, lowerAscii, List.count_eq_countP, List.count_eq_countP, List.countP_map]
    refine List.countP_congr fun c _ => ?_
    simp only [Function.comp_apply, beq_iff_eq]
    exact ⟨eq_of_toLower_eq hcode, fun hc => by rw [hc, hlower]⟩
  · rw [h]

theorem count_storedValue {mark : Char} (hcode : mark.toNat < 97) (hlower : mark.toLower = mark)
    (hblank : isBlank mark = false) (value : String) :
    (storedValue value).toList.count mark = value.toList.count mark := by
  rw [storedValue, String.toList_ofList, count_normalizeValue hcode hlower, count_trim hblank]

theorem valueBrackets_assignment {name value : List Char} (hsign : '=' ∉ name)
    (hname : ',' ∉ name) (hvalue : ',' ∉ value) :
    valueBrackets false (name ++ '=' :: value) = value.count ')' ∧
      (name ++ '=' :: value).foldl valueBehind false = true := by
  obtain ⟨hnone, houtside⟩ := valueBrackets_name hname hsign
  obtain ⟨hcount, hinside⟩ := valueBrackets_value hvalue
  rw [valueBrackets_append, hnone, houtside, List.foldl_append, houtside, Nat.zero_add]
  exact ⟨(Nat.zero_add _).trans hcount, hinside⟩

theorem valueBrackets_readAssignment {entry : List Char} (hentry : ',' ∉ entry)
    {name value : String} (h : readAssignment entry = .ok (name, value)) :
    valueBrackets false entry = value.toList.count ')' := by
  rw [readAssignment] at h
  cases hcut : cutAt '=' entry with
  | none => rw [hcut] at h; cases h
  | some parts =>
    obtain ⟨front, behind⟩ := parts
    rw [hcut] at h
    dsimp only [Option.map_some] at h
    split at h
    · cases h
    · obtain ⟨-, rfl⟩ := Prod.mk.inj (Except.ok.inj h)
      rw [eq_of_cutAt hcut, List.mem_append, List.mem_cons, not_or, not_or] at hentry
      rw [String.toList_ofList, count_normalizeValue (by decide) (by decide),
        count_trim (by decide), eq_of_cutAt hcut]
      exact (valueBrackets_assignment (not_mem_of_cutAt hcut) hentry.1 hentry.2.2).1

/-- A comma ends a value, so each piece between commas counts for itself. -/
theorem valueBrackets_pieces {cs first : List Char} {more : List (List Char)}
    (h : pieces (· == ',') cs = first :: more) (inValue : Bool) :
    valueBrackets inValue cs =
      valueBrackets inValue first + (more.map (valueBrackets false)).sum := by
  induction cs generalizing first more inValue with
  | nil =>
    obtain ⟨rfl, rfl⟩ := List.cons.inj h
    rfl
  | cons c rest ih =>
    obtain ⟨next, others, hrest⟩ := List.exists_cons_of_ne_nil (pieces_ne_nil (· == ',') rest)
    rw [pieces, hrest] at h
    rw [valueBrackets, ih hrest]
    split at h
    case isTrue hc =>
      obtain ⟨rfl, rfl⟩ := List.cons.inj h
      obtain rfl := beq_iff_eq.1 hc
      simp [valueBrackets, valueBehind]
    case isFalse =>
      obtain ⟨rfl, rfl⟩ := List.cons.inj h
      rw [valueBrackets, Nat.add_assoc]

theorem valueBrackets_entries (cs : List Char) :
    ((optionEntries cs).map (valueBrackets false)).sum = valueBrackets false cs := by
  have hempty (l : List (List Char)) :
      ((l.filter fun entry => !entry.isEmpty).map (valueBrackets false)).sum =
        (l.map (valueBrackets false)).sum := by
    induction l with
    | nil => rfl
    | cons entry rest ih => cases entry <;> simp_all [valueBrackets]
  obtain ⟨first, more, hpieces⟩ := List.exists_cons_of_ne_nil (pieces_ne_nil (· == ',') cs)
  rw [optionEntries, hempty, List.map_map, valueBrackets_pieces hpieces, hpieces]
  simp [Function.comp_def, valueBrackets_trim]

/-! ## Brackets that are read -/

theorem closedIn_ofList_le (assignments : List (String × String)) :
    closedIn (NameMap.ofList assignments).entries ≤ closedIn assignments := by
  have hnodup : (NameMap.ofList assignments).entries.Nodup :=
    List.Nodup.of_map Prod.fst (NameMap.nodup_names _)
  have hsub : (NameMap.ofList assignments).entries ⊆ assignments := fun e he =>
    NameMap.mem_of_find?_ofList (NameMap.mem_entries.1 he)
  obtain ⟨same, hperm, hsublist⟩ := hnodup.subperm hsub
  rw [closedIn, ← (hperm.map _).sum_eq]
  exact (hsublist.map _).sum_le_sum fun _ _ => Nat.zero_le _

theorem closedIn_of_read {extra : String} {body : List Char} {options : Options}
    (hbody : optionBody extra = .ok body) (h : Options.read extra = .ok options) :
    closedIn options.entries ≤ valueBrackets false body := by
  obtain ⟨body', hbody', h⟩ := bind_eq_ok_iff.1 h
  obtain rfl := Except.ok.inj (hbody'.symm.trans hbody)
  obtain ⟨assignments, hread, h⟩ := bind_eq_ok_iff.1 h
  obtain rfl := Except.ok.inj h
  have hcounts : (optionEntries body').map (valueBrackets false) =
      assignments.map fun e => e.2.toList.count ')' := by
    refine map_eq_of_forall₂ (((List.forall₂_and_left _ _).2
      ⟨fun _ hentry => hentry, mapM_eq_ok_iff.1 hread⟩).imp fun entry e ⟨hentry, hok⟩ => ?_)
    obtain ⟨piece, hpiece, rfl⟩ := List.mem_map.1 (List.mem_of_mem_filter hentry)
    exact valueBrackets_readAssignment
      (fun hmem => not_mem_of_mem_pieces hpiece ((trim_sublist piece).subset hmem)) hok
  rw [← valueBrackets_entries, hcounts]
  exact closedIn_ofList_le assignments

/-- The text of some assignments has the brackets of their values, and it ends in one of them. -/
theorem valueBrackets_assignments {assignments : List (String × String)}
    (h : ∀ e ∈ assignments, Spelled e.1 e.2) :
    let text := [',', ' '].intercalate (assignments.map fun e => assignmentText e.1 e.2)
    valueBrackets false text = closedIn assignments ∧
      (assignments ≠ [] → text.foldl valueBehind false = true) := by
  induction assignments with
  | nil => exact ⟨rfl, fun hne => absurd rfl hne⟩
  | cons e rest ih =>
    obtain ⟨hcount, hinside⟩ := ih fun other hother => h other (List.mem_cons_of_mem _ hother)
    have hspelled := h e List.mem_cons_self
    obtain ⟨hfirst, hend⟩ := valueBrackets_assignment hspelled.name_no_sign
      hspelled.name_whole.no_comma hspelled.value_no_comma
    rw [← List.singleton_append, ← List.append_assoc] at hfirst hend
    cases rest with
    | nil =>
      rw [List.map_singleton, List.intercalate_singleton]
      exact ⟨hfirst, fun _ => hend⟩
    | cons next rest =>
      have hgap : valueBrackets true [',', ' '] = 0 ∧ [',', ' '].foldl valueBehind true = false := by
        decide
      rw [List.map_cons] at hcount hinside
      rw [List.map_cons, List.map_cons, List.intercalate_cons_cons]
      dsimp only
      rw [valueBrackets_append, valueBrackets_append, List.foldl_append, List.foldl_append,
        List.foldl_append, assignmentText, hfirst, hend, hgap.1, hgap.2, hcount]
      exact ⟨rfl, fun _ => hinside (List.cons_ne_nil _ _)⟩

/-- An option list: the word, the brackets, and what is read between them. -/
theorem exists_parts_of_optionBody {extra : String} {body : List Char}
    (hword : sameLetters ((trim extra.toList).take 7) "OPTIONS".toList = true)
    (h : optionBody extra = .ok body) :
    ∃ front inside behind, trim extra.toList = front ++ (inside ++ ')' :: behind) ∧
      ',' ∉ front ∧ '=' ∉ front ∧ (∀ c ∈ behind, isBlank c = true) ∧ body = trim inside := by
  rw [optionBody] at h
  dsimp only at h
  rw [if_pos hword] at h
  cases hinside : (afterWord? ['('] (trim ((trim extra.toList).drop 7))).bind
    (beforeWord? [')']) with
  | none => rw [hinside] at h; cases h
  | some inside =>
    rw [hinside] at h
    obtain ⟨rest, hopen, hclose⟩ := Option.bind_eq_some_iff.1 hinside
    obtain ⟨before, behind, hbefore, hbehind, htext⟩ :=
      exists_blanks_of_trim ((trim extra.toList).drop 7)
    rw [eq_of_afterWord? hopen, eq_of_beforeWord? hclose] at htext
    have hfront {mark : Char} (hkeep : mark.toLower = mark)
        (hmark : mark ∉ lowerAscii "OPTIONS".toList) (hbracket : mark ≠ '(')
        (hblank : isBlank mark = false) :
        mark ∉ (trim extra.toList).take 7 ++ before ++ ['('] := by
      have hstart : mark ∉ (trim extra.toList).take 7 := fun hmem =>
        hmark (beq_iff_eq.1 hword ▸ List.mem_map.2 ⟨mark, hmem, hkeep⟩)
      simp only [List.mem_append, List.mem_singleton, not_or]
      exact ⟨⟨hstart, not_mem_blanks hblank hbefore⟩, hbracket⟩
    refine ⟨(trim extra.toList).take 7 ++ before ++ ['('], inside, behind, ?_,
      hfront (by decide) (by decide) (by decide) (by decide),
      hfront (by decide) (by decide) (by decide) (by decide), hbehind, (Except.ok.inj h).symm⟩
    conv_lhs => rw [← List.take_append_drop 7 (trim extra.toList), htext]
    simp

/-- The body of an option list lacks the bracket that ends the list. If the text ends in a value,
the bracket is one of those that values close. -/
theorem valueBrackets_body {extra : String} {body : List Char}
    (hword : sameLetters ((trim extra.toList).take 7) "OPTIONS".toList = true)
    (hend : extra.toList.foldl valueBehind false = true) (h : optionBody extra = .ok body) :
    valueBrackets false extra.toList = valueBrackets false body + 1 := by
  obtain ⟨front, inside, behind, htext, hcomma, hsign, hbehind, rfl⟩ :=
    exists_parts_of_optionBody hword h
  obtain ⟨hnone, houtside⟩ := valueBrackets_name hcomma hsign
  have hblanks (inValue : Bool) := valueBrackets_blanks hbehind inValue
  have hkeep (inValue : Bool) : valueBehind inValue ')' = inValue := by cases inValue <;> rfl
  rw [← foldl_valueBehind_trim, htext, List.foldl_append, List.foldl_append, List.foldl_cons,
    houtside, hkeep, (hblanks _).2] at hend
  rw [← valueBrackets_trim extra.toList, htext, valueBrackets_append, valueBrackets_append,
    valueBrackets, hnone, houtside, hend, hkeep, (hblanks _).1, valueBrackets_trim]
  simp

theorem ne_nil_of_looksWrapped {options : Options}
    (hwrapped : LooksWrapped (· ∈ options.names)) : options.entries ≠ [] := by
  intro hnil
  obtain ⟨name, hname, -⟩ := hwrapped
  rw [NameMap.names, hnil] at hname
  cases hname

section
variable {options : Options} (h : ∀ e ∈ options.entries, Spelled e.1 e.2)
include h

theorem valueBrackets_render :
    valueBrackets false options.render.toList = closedIn options.entries := by
  rw [toList_render]
  exact (valueBrackets_assignments h).1

/-- Options that look like an option list are read as options that close fewer brackets. -/
theorem closedIn_lt_of_looksWrapped (hwrapped : LooksWrapped (· ∈ options.names)) {other : Options}
    (hread : Options.read options.render = .ok other) :
    closedIn other.entries < closedIn options.entries := by
  rcases hentries : options.entries with _ | ⟨⟨name, value⟩, rest⟩
  · exact absurd hentries (ne_nil_of_looksWrapped hwrapped)
  · have hspelled : Spelled name value := h (name, value) (hentries ▸ List.mem_cons_self)
    obtain ⟨tail, htail⟩ := exists_toList_render hentries
    have hword := (hspelled.startsWithWord_iff tail).2 ((looksWrapped_iff hentries).1 hwrapped)
    rw [← htail] at hword
    have hend : options.render.toList.foldl valueBehind false = true := by
      rw [toList_render]
      exact (valueBrackets_assignments h).2 (by simp [hentries])
    obtain ⟨body, hbody, -⟩ := bind_eq_ok_iff.1 hread
    rw [← hentries, ← valueBrackets_render h, valueBrackets_body hword hend hbody,
      Nat.lt_succ_iff]
    exact closedIn_of_read hbody hread

end

/-! ## Texts of options in normal form -/

theorem closedIn_filter_le (options : Options) (keep : String → String → Bool) :
    closedIn (options.filter keep).entries ≤ closedIn options.entries :=
  (List.filter_sublist.map _).sum_le_sum fun _ _ => Nat.zero_le _

theorem mapValues_storedValue {options : Options} (h : ∀ e ∈ options.entries, Kept e.1 e.2) :
    (options.mapValues fun _ value => storedValue value) = options := by
  refine NameMap.ext_find? fun name => ?_
  rw [NameMap.find?_mapValues]
  cases hfind : options.find? name with
  | none => rfl
  | some value => exact congrArg some (h _ (NameMap.mem_entries.2 hfind)).storedValue

theorem kept_of_mem_ofExtra {extra : Option String} :
    ∀ e ∈ (Options.ofExtra extra).entries, Kept e.1 e.2 :=
  fun _ he => kept_of_ofExtra (NameMap.mem_entries.1 he)

theorem spelled_of_mem_ofExtra {extra : Option String} :
    ∀ e ∈ (Options.ofExtra extra).entries, Spelled e.1 e.2 :=
  fun e he => (kept_of_mem_ofExtra e he).spelled

/-- The text of options that look like an option list sets none of them, or options that close fewer
brackets. -/
theorem ofExtra_render_of_looksWrapped {options : Options}
    (h : ∀ e ∈ options.entries, Spelled e.1 e.2) (hwrapped : LooksWrapped (· ∈ options.names)) :
    (Options.ofExtra (some options.render)).entries = [] ∨
      closedIn (Options.ofExtra (some options.render)).entries < closedIn options.entries := by
  cases hread : Options.read options.render with
  | error fault =>
    rw [Options.ofExtra, Option.map_some, hread]
    exact .inl rfl
  | ok other =>
    rw [Options.ofExtra, Option.map_some, hread]
    exact .inr ((closedIn_filter_le _ _).trans_lt (closedIn_lt_of_looksWrapped h hwrapped hread))

theorem normalizeExtra_of_ne_nil {extra : Option String}
    (h : (Options.ofExtra extra).entries ≠ []) :
    normalizeExtra extra = some (Options.ofExtra extra).render :=
  if_neg (by simpa using h)

theorem normalizeExtra_of_eq_nil {extra : Option String}
    (h : (Options.ofExtra extra).entries = []) : normalizeExtra extra = none :=
  if_pos (by simp [h])

/-- The text of some options in normal form sets them again if it does not look like an option
list. -/
theorem ofExtra_normalizeExtra {extra : Option String}
    (hplain : ¬LooksWrapped (· ∈ (Options.ofExtra extra).names)) :
    Options.ofExtra (normalizeExtra extra) = Options.ofExtra extra := by
  rcases eq_or_ne (Options.ofExtra extra).entries [] with hnil | hne
  · rw [normalizeExtra_of_eq_nil hnil]
    exact NameMap.ext_find? fun name => (NameMap.entries_eq_nil_iff.1 hnil name).symm
  · have hread := read_render_of_not_looksWrapped spelled_of_mem_ofExtra hplain
    rw [mapValues_storedValue kept_of_mem_ofExtra] at hread
    have hset (name : String) :
        ((Options.ofExtra extra).find? name).filter (· != "null") =
          (Options.ofExtra extra).find? name := by
      cases hfind : (Options.ofExtra extra).find? name with
      | none => rfl
      | some value =>
        refine Option.filter_some_pos (bne_iff_ne.2 ?_)
        rintro rfl
        exact find?_ofExtra_ne_null extra name hfind
    rw [normalizeExtra_of_ne_nil hne, Options.ofExtra, Option.map_some, hread]
    refine NameMap.ext_find? fun name => ?_
    rw [NameMap.find?_filter]
    exact hset name

theorem ofExtra_normalizeExtra_of_looksWrapped {extra : Option String}
    (hwrapped : LooksWrapped (· ∈ (Options.ofExtra extra).names)) :
    (Options.ofExtra (normalizeExtra extra)).entries = [] ∨
      closedIn (Options.ofExtra (normalizeExtra extra)).entries <
        closedIn (Options.ofExtra extra).entries := by
  rw [normalizeExtra_of_ne_nil (ne_nil_of_looksWrapped hwrapped)]
  exact ofExtra_render_of_looksWrapped spelled_of_mem_ofExtra hwrapped

theorem closedIn_ofExtra (extra : Option String) :
    closedIn (Options.ofExtra extra).entries =
      valueBrackets false ((normalizeExtra extra).getD "").toList := by
  rcases eq_or_ne (Options.ofExtra extra).entries [] with hnil | hne
  · rw [normalizeExtra_of_eq_nil hnil, hnil]
    rfl
  · rw [normalizeExtra_of_ne_nil hne, Option.getD_some,
      valueBrackets_render spelled_of_mem_ofExtra]

theorem normalizeExtra_ne_of_looksWrapped {extra : Option String}
    (hwrapped : LooksWrapped (· ∈ (Options.ofExtra extra).names)) :
    normalizeExtra (normalizeExtra extra) ≠ normalizeExtra extra := by
  intro hsame
  rcases ofExtra_normalizeExtra_of_looksWrapped hwrapped with hnil | hlt
  · rw [normalizeExtra_of_eq_nil hnil,
      normalizeExtra_of_ne_nil (ne_nil_of_looksWrapped hwrapped)] at hsame
    cases hsame
  · rw [closedIn_ofExtra, closedIn_ofExtra, hsame] at hlt
    exact Nat.lt_irrefl _ hlt

/-- The options that are set: those that are not `null`. -/
def Options.present (options : Options) : Options :=
  options.filter fun _ value => value != "null"

theorem ofExtra_of_read {extra : String} {options : Options}
    (h : Options.read extra = .ok options) : Options.ofExtra (some extra) = options.present := by
  rw [Options.ofExtra, Option.map_some, h]
  rfl

/-- Options that were read are read back from their normal form, without those that are `null`, just
if this form does not look like an option list. It is then the normal form of itself, too. -/
theorem rendered_options_iff {extra : String} {options : Options}
    (h : Options.read extra = .ok options) :
    (Options.read ((normalizeExtra (some extra)).getD "") = .ok options.present ↔
        ¬LooksWrapped (· ∈ options.present.names)) ∧
      (normalizeExtra (normalizeExtra (some extra)) = normalizeExtra (some extra) ↔
        ¬LooksWrapped (· ∈ options.present.names)) := by
  rw [← ofExtra_of_read h]
  refine ⟨⟨fun hread hwrapped => ?_, fun hplain => ?_⟩,
    fun hsame hwrapped => normalizeExtra_ne_of_looksWrapped hwrapped hsame, fun hplain => ?_⟩
  · rw [normalizeExtra_of_ne_nil (ne_nil_of_looksWrapped hwrapped), Option.getD_some] at hread
    exact Nat.lt_irrefl _ (closedIn_lt_of_looksWrapped spelled_of_mem_ofExtra hwrapped hread)
  · rcases eq_or_ne (Options.ofExtra (some extra)).entries [] with hnil | hne
    · rw [normalizeExtra_of_eq_nil hnil]
      refine congrArg Except.ok (NameMap.ext_find? fun name => ?_)
      exact (NameMap.entries_eq_nil_iff.1 hnil name).symm
    · rw [normalizeExtra_of_ne_nil hne, Option.getD_some,
        read_render_of_not_looksWrapped spelled_of_mem_ofExtra hplain,
        mapValues_storedValue kept_of_mem_ofExtra]
  · rw [normalizeExtra, ofExtra_normalizeExtra hplain]
    rfl

/-- Names that stand behind other ones may start with the word. -/
theorem rendered_options_read :
    let options : Options := NameMap.ofList [("a", "1"), ("options", "true"), ("z", "null")]
    Options.read "options=TRUE" = .error (.brackets "options=TRUE") ∧
      Options.read " z=NULL, options = TRUE,a=1 " = .ok options ∧
      (Options.read ((normalizeExtra (some " z=NULL, options = TRUE,a=1 ")).getD "") =
          .ok options.present ↔ ¬LooksWrapped (· ∈ options.present.names)) ∧
      (normalizeExtra (normalizeExtra (some " z=NULL, options = TRUE,a=1 ")) =
          normalizeExtra (some " z=NULL, options = TRUE,a=1 ") ↔
        ¬LooksWrapped (· ∈ options.present.names)) := by
  have h : Options.read " z=NULL, options = TRUE,a=1 " =
      .ok (NameMap.ofList [("a", "1"), ("options", "true"), ("z", "null")]) := by rfl
  exact ⟨by rfl, h, rendered_options_iff h⟩

/-- The normal form sorts the options, and so a name that starts with the word may come first: then
no option is read, or another one. -/
theorem first_name_taken_for_list :
    (∃ options, Options.read "zz=1, options_a=2" = .ok options ∧
        normalizeExtra (some "zz=1, options_a=2") = some "options_a=2, zz=1" ∧
        Options.read "options_a=2, zz=1" = .error (.brackets "options_a=2, zz=1") ∧
        normalizeExtra (normalizeExtra (some "zz=1, options_a=2")) = none) ∧
      ∃ options, Options.read "zz=1), options (b=2" = .ok options ∧
        normalizeExtra (some "zz=1), options (b=2") = some "options (b=2, zz=1)" ∧
        normalizeExtra (some "options (b=2, zz=1)") = some "b=2, zz=1" :=
  ⟨⟨NameMap.ofList [("zz", "1"), ("options_a", "2")], by rfl, by rfl, by rfl, by rfl⟩,
    NameMap.ofList [("zz", "1)"), ("options (b", "2")], by rfl, by rfl, by rfl⟩

end SchemaPlan.Spanner
