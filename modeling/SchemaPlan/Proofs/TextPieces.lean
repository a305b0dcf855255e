import Mathlib.Data.List.Basic
import Mathlib.Data.List.TakeWhile
import Mathlib.Tactic.Conv
import SchemaPlan.Text.Blank
import SchemaPlan.Text.Pieces

/-!
# Blanks, marks and words in texts

What is known of the functions that take texts apart: blanks go at the two ends only, pieces have
none of the marks that part them, and a word that was put in front of a text is found there.

* `Trimmed`: texts without blanks at their ends; `trimmed_trim`, `trim_eq_self`: trimming makes
  these and leaves them alone.
* `exists_blanks_of_trim`: nothing but blanks is taken.
* `pieces_append`, `cutAt_append`: the first mark parts what stands around it.
* `afterWord?_append`, `beforeWord?_append`: what stands behind or in front of a word is the rest.
* `occursIn_iff`: a word occurs in a text if the text is made around it.
-/
namespace SchemaPlan.Text

/-! ## Trimmed texts -/

/-- A text that neither starts nor ends with a blank. -/
structure Trimmed (cs : List Char) : Prop where
  head : ∀ c, cs.head? = some c → isBlank c = false
  last : ∀ c, cs.getLast? = some c → isBlank c = false

theorem trimmed_of_not_blank {cs : List Char} (h : ∀ c ∈ cs, isBlank c = false) : Trimmed cs :=
  ⟨fun c hc => h c (List.mem_of_head? hc), fun c hc => h c (List.mem_of_getLast? hc)⟩

theorem dropWhile_eq_self {cs : List Char} (h : ∀ c, cs.head? = some c → isBlank c = false) :
    cs.dropWhile isBlank = cs := by
  cases cs with
  | nil => rfl
  | cons c rest => rw [List.dropWhile_cons_of_neg (by simp [h c rfl])]

theorem head?_dropWhile {cs : List Char} {c : Char} (h : (cs.dropWhile isBlank).head? = some c) :
    isBlank c = false := by
  have := List.head?_dropWhile_not isBlank cs
  rw [h] at this
  simpa using this

theorem dropWhile_reverse_eq_self {cs : List Char}
    (h : ∀ c, cs.getLast? = some c → isBlank c = false) :
    cs.reverse.dropWhile isBlank = cs.reverse :=
  dropWhile_eq_self fun c hc => h c (by rwa [List.head?_reverse] at hc)

theorem trim_eq_self {cs : List Char} (h : Trimmed cs) : trim cs = cs := by
  rw [trim, trimLeft, dropWhile_eq_self h.head, trimRight, dropWhile_reverse_eq_self h.last,
    List.reverse_reverse]

theorem trim_append_blank {cs : List Char} (h : Trimmed cs) {c : Char} (hc : isBlank c = true) :
    trim (cs ++ [c]) = cs := by
  cases cs with
  | nil => simp [trim, trimLeft, trimRight, hc]
  | cons first rest =>
    have hhead : ((first :: rest) ++ [c]).dropWhile isBlank = (first :: rest) ++ [c] :=
      dropWhile_eq_self fun d hd => h.head d hd
    rw [trim, trimLeft, hhead, trimRight, List.reverse_append, List.reverse_singleton,
      List.singleton_append, List.dropWhile_cons_of_pos hc, dropWhile_reverse_eq_self h.last,
      List.reverse_reverse]

theorem trimmed_trim (cs : List Char) : Trimmed (trim cs) := by
  refine ⟨fun c hc => ?_, fun c hc => ?_⟩
  · have hprefix : trim cs <+: trimLeft cs := by
      rw [trim, trimRight, ← List.reverse_suffix, List.reverse_reverse]
      exact List.dropWhile_suffix _
    obtain ⟨rest, hrest⟩ := hprefix
    refine @head?_dropWhile cs c ?_
    rw [← trimLeft, ← hrest, List.head?_append, hc]
    rfl
  · rw [trim, trimRight, List.getLast?_reverse] at hc
    exact head?_dropWhile hc

instance (cs : List Char) : Decidable (Trimmed cs) :=
  decidable_of_iff (cs.head?.all (!isBlank ·) = true ∧ cs.getLast?.all (!isBlank ·) = true) (by
    simp only [Option.all_eq_true, Bool.not_eq_true']
    exact ⟨fun h => ⟨h.1, h.2⟩, fun h => ⟨h.head, h.last⟩⟩)

theorem Trimmed.append {a b : List Char} (ha : Trimmed a) (hb : Trimmed b) (hane : a ≠ [])
    (hbne : b ≠ []) (middle : List Char) : Trimmed (a ++ middle ++ b) := by
  refine ⟨fun c hc => ha.head c ?_, fun c hc => hb.last c ?_⟩
  · rwa [List.append_assoc, List.head?_append_of_ne_nil _ hane] at hc
  · rwa [List.getLast?_append_of_ne_nil _ hbne] at hc

/-! ## Blanks at the ends of a text -/

theorem not_mem_blanks {mark : Char} (hmark : isBlank mark = false) {blanks : List Char}
    (h : ∀ c ∈ blanks, isBlank c = true) : mark ∉ blanks := by
  intro hmem
  rw [h mark hmem] at hmark
  cases hmark

/-- What trimming takes from the end of a text is blank. -/
theorem exists_blanks_of_trimRight (cs : List Char) :
    ∃ blanks, (∀ c ∈ blanks, isBlank c = true) ∧ cs = trimRight cs ++ blanks := by
  refine ⟨(cs.reverse.takeWhile isBlank).reverse, fun c hc => ?_, ?_⟩
  · exact List.all_eq_true.1 List.all_takeWhile c (List.mem_reverse.1 hc)
  · rw [trimRight, ← List.reverse_append, List.takeWhile_append_dropWhile, List.reverse_reverse]

theorem mem_trim {cs : List Char} {c : Char} (h : c ∈ cs) (hc : isBlank c = false) :
    c ∈ trim cs := by
  obtain ⟨blanks, hblanks, htext⟩ := exists_blanks_of_trimRight (trimLeft cs)
  have hleft : c ∈ trimLeft cs := by
    rw [← List.takeWhile_append_dropWhile (p := isBlank) (l := cs), List.mem_append] at h
    refine h.resolve_left fun hblank => ?_
    have := List.all_eq_true.1 List.all_takeWhile c hblank
    rw [hc] at this
    cases this
  rw [htext, List.mem_append] at hleft
  refine hleft.resolve_right fun hblank => ?_
  rw [hblanks c hblank] at hc
  cases hc

theorem trim_sublist (cs : List Char) : (trim cs).Sublist cs := by
  have hleft : (trimLeft cs).Sublist cs := List.dropWhile_sublist _
  have hright : (trimRight (trimLeft cs)).Sublist (trimLeft cs) := by
    rw [trimRight, ← List.reverse_sublist, List.reverse_reverse]
    exact List.dropWhile_sublist _
  exact hright.trans hleft

theorem trim_append_left {gap : List Char} (hgap : ∀ c ∈ gap, isBlank c = true) (cs : List Char) :
    trim (gap ++ cs) = trim cs := by
  rw [trim, trimLeft, List.dropWhile_append_of_pos hgap]
  rfl

theorem trim_append_word {word : List Char} (hne : word ≠ []) (h : ∀ c ∈ word, isBlank c = false)
    (rest : List Char) : trim (word ++ rest) = word ++ trimRight rest := by
  have hhead : ∀ c, (word ++ rest).head? = some c → isBlank c = false := fun c hc => by
    rw [List.head?_append_of_ne_nil _ hne] at hc
    exact h c (List.mem_of_head? hc)
  have hlast := dropWhile_reverse_eq_self fun c hc => h c (List.mem_of_getLast? hc)
  rw [trim, trimLeft, dropWhile_eq_self hhead, trimRight, List.reverse_append,
    List.dropWhile_append]
  split
  · rename_i hempty
    rw [hlast, trimRight, List.isEmpty_iff.1 hempty, List.reverse_reverse, List.reverse_nil,
      List.append_nil]
  · rw [List.reverse_append, List.reverse_reverse, trimRight]

theorem trimRight_append_mark {c : Char} (hc : isBlank c = false) (a b : List Char) :
    trimRight (a ++ c :: b) = a ++ c :: trimRight b := by
  have hdrop : (b.reverse ++ c :: a.reverse).dropWhile isBlank =
      b.reverse.dropWhile isBlank ++ c :: a.reverse := by
    rw [List.dropWhile_append, List.dropWhile_cons_of_neg (by simp [hc])]
    split
    case isTrue hnil => rw [List.isEmpty_iff.1 hnil, List.nil_append]
    case isFalse => rfl
  simp [trimRight, hdrop]

/-- What stands in front of a mark is kept by trimming if it starts without a blank. -/
theorem trim_append_mark {name : List Char} (hname : Trimmed name) (hne : name ≠ []) {c : Char}
    (hc : isBlank c = false) (rest : List Char) :
    trim (name ++ c :: rest) = name ++ c :: trimRight rest := by
  have hleft : trimLeft (name ++ c :: rest) = name ++ c :: rest :=
    dropWhile_eq_self fun d hd =>
      hname.head d (by rwa [List.head?_append_of_ne_nil _ hne] at hd)
  rw [trim, hleft, trimRight_append_mark hc]

theorem trim_append_right {gap : List Char} (hgap : ∀ c ∈ gap, isBlank c = true) (cs : List Char) :
    trim (cs ++ gap) = trim cs := by
  rw [trim, trim, trimLeft, trimLeft, List.dropWhile_append]
  split
  case isTrue hnil =>
    have hblank : gap.dropWhile isBlank = [] := List.dropWhile_eq_nil_iff.2 hgap
    rw [hblank, List.isEmpty_iff.1 hnil]
  case isFalse =>
    rw [trimRight, List.reverse_append,
      List.dropWhile_append_of_pos fun c hc => hgap c (List.mem_reverse.1 hc)]
    rfl

theorem trim_trimRight (cs : List Char) : trim (trimRight cs) = trim cs := by
  obtain ⟨blanks, hblanks, htext⟩ := exists_blanks_of_trimRight cs
  conv_rhs => rw [htext, trim_append_right hblanks]

/-- Trimming takes blanks from both ends. -/
theorem exists_blanks_of_trim (cs : List Char) :
    ∃ before behind, (∀ c ∈ before, isBlank c = true) ∧ (∀ c ∈ behind, isBlank c = true) ∧
      cs = before ++ trim cs ++ behind := by
  obtain ⟨behind, hbehind, htext⟩ := exists_blanks_of_trimRight (trimLeft cs)
  refine ⟨cs.takeWhile isBlank, behind, List.all_eq_true.1 List.all_takeWhile, hbehind, ?_⟩
  rw [List.append_assoc, trim, ← htext, trimLeft, List.takeWhile_append_dropWhile]

theorem count_trim {c : Char} (hc : isBlank c = false) (cs : List Char) :
    (trim cs).count c = cs.count c := by
  obtain ⟨before, behind, hbefore, hbehind, htext⟩ := exists_blanks_of_trim cs
  conv_rhs => rw [htext, List.count_append, List.count_append,
    List.count_eq_zero.2 (not_mem_blanks hc hbefore),
    List.count_eq_zero.2 (not_mem_blanks hc hbehind)]
  omega

/-! ## Pieces between marks -/

theorem pieces_of_not_mem {mark : Char} {cs : List Char} (h : mark ∉ cs) :
    pieces (· == mark) cs = [cs] := by
  induction cs with
  | nil => rfl
  | cons c rest ih =>
    rw [List.mem_cons, not_or] at h
    have hc : (c == mark) = false := beq_eq_false_iff_ne.2 fun he => h.1 he.symm
    rw [pieces, ih h.2, hc]
    rfl

theorem pieces_append {mark : Char} {cs : List Char} (h : mark ∉ cs) (rest : List Char) :
    pieces (· == mark) (cs ++ mark :: rest) = cs :: pieces (· == mark) rest := by
  induction cs with
  | nil => simp [pieces]
  | cons c cs ih =>
    rw [List.mem_cons, not_or] at h
    have hc : (c == mark) = false := beq_eq_false_iff_ne.2 fun he => h.1 he.symm
    rw [List.cons_append, pieces, ih h.2, hc]
    rfl

theorem pieces_separator {isSeparator : Char → Bool} {c : Char} (hc : isSeparator c = true)
    (rest : List Char) : pieces isSeparator (c :: rest) = [] :: pieces isSeparator rest := by
  rw [pieces, if_pos hc]

theorem pieces_letter {isSeparator : Char → Bool} {c : Char} (hc : isSeparator c = false)
    {rest first : List Char} {more : List (List Char)}
    (h : pieces isSeparator rest = first :: more) :
    pieces isSeparator (c :: rest) = (c :: first) :: more := by
  rw [pieces, if_neg (by simp [hc]), h]

/-- Recursion over a text and its pieces: the end, a separator, another character. -/
theorem pieces_induction (isSeparator : Char → Bool) {motive : List Char → Prop}
    (nil : motive [])
    (separator : ∀ c rest, isSeparator c = true → motive rest → motive (c :: rest))
    (letter : ∀ c rest first more, isSeparator c = false →
      pieces isSeparator rest = first :: more → motive rest → motive (c :: rest))
    (cs : List Char) : motive cs := by
  induction cs with
  | nil => exact nil
  | cons c rest ih =>
    cases hc : isSeparator c with
    | true => exact separator c rest hc ih
    | false =>
      obtain ⟨first, more, hpieces⟩ :=
        List.exists_cons_of_ne_nil (pieces_ne_nil isSeparator rest)
      exact letter c rest first more hc hpieces ih

theorem exists_mem_pieces_iff {isSeparator : Char → Bool} {cs : List Char} {c : Char} :
    (∃ piece ∈ pieces isSeparator cs, c ∈ piece) ↔ c ∈ cs ∧ isSeparator c = false := by
  induction cs using pieces_induction isSeparator with
  | nil => simp [pieces]
  | separator d rest hd ih =>
    rw [pieces_separator hd, List.exists_mem_cons_iff, ih, List.mem_cons]
    constructor
    · rintro (h | h)
      · cases h
      · exact ⟨.inr h.1, h.2⟩
    · rintro ⟨rfl | h, hc⟩
      · rw [hd] at hc
        cases hc
      · exact .inr ⟨h, hc⟩
  | letter d rest first more hd hpieces ih =>
    rw [hpieces, List.exists_mem_cons_iff] at ih
    rw [pieces_letter hd hpieces, List.exists_mem_cons_iff, List.mem_cons, or_assoc, ih,
      List.mem_cons]
    constructor
    · rintro (rfl | h)
      · exact ⟨.inl rfl, hd⟩
      · exact ⟨.inr h.1, h.2⟩
    · rintro ⟨rfl | h, hc⟩
      · exact .inl rfl
      · exact .inr ⟨h, hc⟩

theorem not_mem_of_mem_pieces {mark : Char} {cs piece : List Char}
    (h : piece ∈ pieces (· == mark) cs) : mark ∉ piece := fun hmem => by
  have hseparator := (exists_mem_pieces_iff.1 ⟨piece, h, hmem⟩).2
  rw [beq_self_eq_true] at hseparator
  cases hseparator

theorem pieces_append_end {mark : Char} {gap : List Char} (h : mark ∉ gap) (cs : List Char) :
    ∃ before last, pieces (· == mark) cs = before ++ [last] ∧
      pieces (· == mark) (cs ++ gap) = before ++ [last ++ gap] := by
  induction cs with
  | nil => exact ⟨[], [], rfl, pieces_of_not_mem h⟩
  | cons c rest ih =>
    obtain ⟨before, last, hrest, hlong⟩ := ih
    by_cases hc : c = mark
    · refine ⟨[] :: before, last, ?_, ?_⟩ <;> simp [pieces, hc, hrest, hlong]
    · cases before with
      | nil => refine ⟨[], c :: last, ?_, ?_⟩ <;> simp_all [pieces]
      | cons first more => refine ⟨(c :: first) :: more, last, ?_, ?_⟩ <;> simp_all [pieces]

/-! ## Cuts at a mark -/

theorem cutAt_append {mark : Char} {before : List Char} (h : mark ∉ before) (after : List Char) :
    cutAt mark (before ++ mark :: after) = some (before, after) := by
  induction before with
  | nil => simp [cutAt]
  | cons c rest ih =>
    rw [List.mem_cons, not_or] at h
    rw [List.cons_append, cutAt, if_neg fun he => h.1 he.symm, ih h.2]
    rfl

/-- The first occurrence of a character is the first one with more text behind it, too. -/
theorem cutAt_append_tail {mark : Char} {cs before after : List Char}
    (h : cutAt mark cs = some (before, after)) (tail : List Char) :
    cutAt mark (cs ++ tail) = some (before, after ++ tail) := by
  induction cs generalizing before with
  | nil => cases h
  | cons c rest ih =>
    rw [cutAt] at h
    rw [List.cons_append, cutAt]
    split at h
    · rename_i hc
      obtain ⟨rfl, rfl⟩ := Prod.mk.inj (Option.some.inj h)
      rw [if_pos hc]
    · rename_i hc
      obtain ⟨⟨front, behind⟩, hcut, h⟩ := Option.map_eq_some_iff.1 h
      obtain ⟨rfl, rfl⟩ := Prod.mk.inj h
      rw [if_neg hc, ih hcut]
      rfl

theorem cutAt_eq_none {mark : Char} {cs : List Char} (h : mark ∉ cs) : cutAt mark cs = none := by
  induction cs with
  | nil => rfl
  | cons c rest ih =>
    rw [List.mem_cons, not_or] at h
    rw [cutAt, if_neg fun he => h.1 he.symm, ih h.2]
    rfl

theorem cutAtLast_append {mark : Char} {after : List Char} (h : mark ∉ after)
    (before : List Char) : cutAtLast mark (before ++ mark :: after) = some (before, after) := by
  have hreverse : (before ++ mark :: after).reverse = after.reverse ++ mark :: before.reverse := by
    simp
  rw [cutAtLast, hreverse, cutAt_append (by simpa using h)]
  simp

theorem not_mem_of_cutAt {mark : Char} {cs before after : List Char}
    (h : cutAt mark cs = some (before, after)) : mark ∉ before := by
  induction cs generalizing before after with
  | nil => cases h
  | cons c rest ih =>
    rw [cutAt] at h
    split at h
    · obtain ⟨rfl, -⟩ := Prod.mk.inj (Option.some.inj h)
      exact List.not_mem_nil
    · rename_i hc
      obtain ⟨⟨front, behind⟩, hcut, h⟩ := Option.map_eq_some_iff.1 h
      obtain ⟨rfl, -⟩ := Prod.mk.inj h
      rw [List.mem_cons, not_or]
      exact ⟨fun he => hc he.symm, ih hcut⟩

/-! ## Words -/

theorem afterWord?_append (word rest : List Char) : afterWord? word (word ++ rest) = some rest := by
  induction word with
  | nil => rfl
  | cons c word ih =>
    rw [List.cons_append, afterWord?, if_pos rfl]
    exact ih

theorem beforeWord?_append (word rest : List Char) :
    beforeWord? word (rest ++ word) = some rest := by
  rw [beforeWord?, List.reverse_append, afterWord?_append, Option.map_some, List.reverse_reverse]

theorem isPrefix_append_mark {mark : Char} {word : List Char} (h : mark ∉ word)
    (name rest : List Char) : word <+: name ++ mark :: rest ↔ word <+: name := by
  refine ⟨fun hword => ?_, fun hword => hword.trans (List.prefix_append _ _)⟩
  rcases List.prefix_or_prefix_of_prefix hword (List.prefix_append name (mark :: rest)) with h' | h'
  · exact h'
  · obtain ⟨more, rfl⟩ := h'
    rw [List.prefix_append_right_inj] at hword
    cases more with
    | nil => simp
    | cons c more =>
      obtain rfl := (List.cons_prefix_cons.1 hword).1
      simp at h

theorem occursIn_iff {word cs : List Char} : occursIn word cs = true ↔ word <:+: cs := by
  induction cs with
  | nil => simp [occursIn]
  | cons c rest ih =>
    rw [occursIn, Bool.or_eq_true, List.isPrefixOf_iff_prefix, ih, List.infix_cons_iff]

end SchemaPlan.Text
