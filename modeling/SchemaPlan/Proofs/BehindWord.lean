import SchemaPlan.Proofs.CatalogForm
import SchemaPlan.Proofs.Restyling

/-!
# What is written behind a word

The normal form of a word and a text behind it is the word and the normal form of the text, with a
blank between them unless one of the two meets the other with a mark. An argument list stands behind
a word if it stands behind what follows the word.

* `count_normalizeChars`: marks are neither made nor lost.
* `normalizeChars_behind_word`, `leading_behind`: what is written behind a word, and when the word
  stays a word of its own.
* `argumentList?_word`, `baseTypeChars_omitted`: argument lists behind a word, and types without them.
-/
namespace SchemaPlan.Ddl

open Text

/-! ## Marks are counted -/

section
variable {mark : Char} (hmark : Final mark) (hlow : mark.toNat < 0x41)
include hmark hlow

theorem count_upper (c : Char) : (upper c).count mark = [c].count mark := by
  by_cases hc : c = mark
  · rw [hc, hmark.upper_eq]
  · have hmem : mark ∉ upper c := fun hmem => hc (eq_of_mem_upper (.inl hlow) hmem)
    rw [List.count_eq_zero.2 hmem, List.count_eq_zero.2 (by simpa using Ne.symm hc)]

theorem count_normalizeFrom (last : Option Char) (gap quoted : Bool) (cs : List Char) :
    (normalizeFrom last gap quoted cs).count mark = cs.count mark := by
  induction cs generalizing last gap quoted with
  | nil => rfl
  | cons c rest ih =>
    cases quoted with
    | true => rw [normalizeFrom_quoted, List.count_cons, List.count_cons, ih]
    | false =>
      by_cases hc : isBlank c = true
      · have hne : c ≠ mark := by
          rintro rfl
          rw [hmark.not_blank] at hc
          cases hc
        rw [normalizeFrom_blank _ _ hc, List.count_cons_of_ne hne, ih]
      · have hspace : (spaceBefore last gap c).count mark = 0 := by
          have hne : ' ' ≠ mark := by
            rintro rfl
            cases hmark.not_blank
          unfold spaceBefore
          split
          · exact List.count_eq_zero.2 (by simpa using Ne.symm hne)
          · rfl
        rw [normalizeFrom_word _ _ (by simpa using hc), List.count_append, List.count_append,
          hspace, count_upper hmark hlow, ih, Nat.zero_add, ← List.count_append,
          List.singleton_append]

theorem count_normalizeChars (cs : List Char) : (normalizeChars cs).count mark = cs.count mark := by
  rw [normalizeChars, count_normalizeFrom hmark hlow, count_trim hmark.not_blank]

end

/-! ## Words and what is behind them -/

/-- Up to the first blank or quote a normal form consists of plain characters. -/
theorem plain_of_mem_takeWhile {last : Option Char} {gap : Bool} {cs : List Char} {d : Char}
    (h : d ∈ (normalizeFrom last gap false cs).takeWhile fun c => !(c = ' ' || c = '\'')) :
    Plain d := by
  induction cs generalizing last gap with
  | nil => cases h
  | cons c rest ih =>
    by_cases hc : isBlank c = true
    · rw [normalizeFrom_blank _ _ hc] at h
      exact ih h
    · have hc : isBlank c = false := by simpa using hc
      rw [normalizeFrom_word _ _ hc, spaceBefore] at h
      split at h
      · cases h
      by_cases hquote : c = '\''
      · subst hquote
        cases h
      · have hplain : ∀ e ∈ upper c, Plain e := fun e he =>
          ⟨upper_of_mem he, not_blank_of_mem_upper hc he, by
            rintro rfl
            exact hquote (eq_of_mem_upper (.inl (by decide)) he)⟩
        have hrun : ∀ e ∈ upper c, (!(e = ' ' || e = '\'')) = true := by
          intro e he
          have hblank : e ≠ ' ' := by
            rintro rfl
            cases (hplain ' ' he).not_blank
          simp [hblank, (hplain e he).ne_quote]
        rw [List.nil_append, List.takeWhile_append_of_pos hrun, beq_false_of_ne hquote,
          List.mem_append] at h
        exact h.elim (hplain d) ih

theorem plain_of_normal {word tail : List Char} (h : Normal (word ++ tail))
    (hword : ∀ c ∈ word, c ≠ ' ' ∧ c ≠ '\'') : ∀ c ∈ word, Plain c := by
  intro c hc
  have hrun : ∀ d ∈ word, (!(d = ' ' || d = '\'')) = true := fun d hd => by simp [hword d hd]
  refine @plain_of_mem_takeWhile none false (trim (word ++ tail)) c ?_
  rw [← normalizeChars, h, List.takeWhile_append_of_pos hrun]
  exact List.mem_append_left _ hc

/-- The marks that have no blanks around them. -/
def tightMarks : List Char :=
  ['(', ')', ',', '<', '>']

theorem final_of_tight {c : Char} (h : c ∈ tightMarks) : Final c := by
  have hall : ∀ c ∈ tightMarks, upper c = [c] ∧ isBlank c = false := by decide
  exact ⟨(hall c h).1, (hall c h).2⟩

/-- A text whose first word stays apart from a name in front of it: it starts with no mark. -/
def StandsApart (behind : List Char) : Prop :=
  ∀ c, (trimLeft behind).head? = some c → c ∉ tightMarks

theorem keepsGap_iff {last c : Char} (h : last ∉ tightMarks) :
    keepsGap (some last) c = true ↔ c ∉ tightMarks := by
  simp only [tightMarks, List.mem_cons, List.not_mem_nil, or_false, not_or] at h ⊢
  simp [keepsGap, h, and_assoc]

theorem normalizeFrom_gap_trimLeft (last : Option Char) (cs : List Char) :
    normalizeFrom last true false cs = normalizeFrom last true false (trimLeft cs) := by
  induction cs with
  | nil => rfl
  | cons c rest ih =>
    by_cases hc : isBlank c = true
    · rw [normalizeFrom_blank _ _ hc, ih, trimLeft, trimLeft, List.dropWhile_cons_of_pos hc]
    · rw [trimLeft, List.dropWhile_cons_of_neg hc]

theorem head?_trimRight {cs : List Char} {c : Char} (h : (trimRight cs).head? = some c) :
    cs.head? = some c := by
  obtain ⟨blanks, -, htext⟩ := exists_blanks_of_trimRight cs
  rw [htext, List.head?_append, h]
  rfl

theorem trimRight_append_word {word : List Char} (h : ∀ c ∈ word, isBlank c = false)
    (rest : List Char) : trimRight (word ++ rest) = word ++ trimRight rest := by
  rcases List.eq_nil_or_concat word with rfl | ⟨front, c, rfl⟩
  · rfl
  · have hc := h c (by simp)
    rw [List.concat_eq_append, List.append_assoc, List.singleton_append,
      trimRight_append_mark hc, List.append_assoc, List.singleton_append]

theorem normalizeChars_behind_word {word : List Char} (hword : ∀ c ∈ word, Plain c)
    (behind : List Char) : normalizeChars (word ++ ' ' :: behind) =
      word ++ trimRight (normalizeFrom word.getLast? true false behind) := by
  rw [normalizeChars_eq_trimRight, normalizeFrom_plain hword, normalizeFrom_blank _ _ rfl,
    trimRight_append_word fun c hc => (hword c hc).not_blank, Option.or_none]

section
variable {word : List Char} (hne : word ≠ []) (htight : ∀ c ∈ word, c ∉ tightMarks)
include hne htight

theorem exists_getLast? : ∃ last, word.getLast? = some last ∧ last ∉ tightMarks :=
  ⟨_, List.getLast?_eq_some_getLast hne, htight _ (List.getLast_mem hne)⟩

theorem head?_behind_apart {behind : List Char} (h : StandsApart behind) {c : Char}
    (hc : (trimRight (normalizeFrom word.getLast? true false behind)).head? = some c) :
    c = ' ' := by
  obtain ⟨last, hlast, hopening⟩ := exists_getLast? hne htight
  rw [hlast] at hc
  have hhead := head?_trimRight hc
  rw [normalizeFrom_gap_trimLeft] at hhead
  cases htrim : trimLeft behind with
  | nil =>
    rw [htrim] at hhead
    cases hhead
  | cons d rest =>
    have hd : isBlank d = false := @head?_dropWhile behind d (by rw [← trimLeft, htrim]; rfl)
    have hkeeps := (keepsGap_iff hopening).2 (h d (by rw [htrim]; rfl))
    rw [htrim, normalizeFrom_word _ _ hd, spaceBefore, hkeeps] at hhead
    exact (Option.some.inj hhead).symm

theorem head?_behind_tight {behind : List Char} (h : ¬StandsApart behind) :
    ∃ c ∈ tightMarks,
      (trimRight (normalizeFrom word.getLast? true false behind)).head? = some c := by
  obtain ⟨last, hlast, hopening⟩ := exists_getLast? hne htight
  simp only [StandsApart, not_forall, not_not] at h
  obtain ⟨c, hhead, hc⟩ := h
  refine ⟨c, hc, ?_⟩
  obtain ⟨rest, hrest⟩ := List.head?_eq_some_iff.1 hhead
  have hfinal := final_of_tight hc
  have hspace : spaceBefore (some last) true c = [] := by
    rw [spaceBefore, if_neg]
    rw [Bool.true_and, keepsGap_iff hopening]
    exact not_not.2 hc
  rw [hlast, normalizeFrom_gap_trimLeft, hrest, normalizeFrom_word _ _ hfinal.not_blank, hspace,
    hfinal.upper_eq, List.nil_append, List.singleton_append, ← List.nil_append (c :: _),
    trimRight_append_mark hfinal.not_blank]
  rfl

/-- The first word of the normal form: the name alone, or with a mark behind it. -/
theorem leading_behind (hword : ∀ c ∈ word, Plain c) (behind : List Char) :
    (StandsApart behind ∧
      (normalizeChars (word ++ ' ' :: behind)).takeWhile (· != ' ') = word) ∨
    (¬StandsApart behind ∧
      ∃ c ∈ tightMarks, c ∈ (normalizeChars (word ++ ' ' :: behind)).takeWhile (· != ' ')) := by
  rw [normalizeChars_behind_word hword, MySql.takeWhile_word hword]
  by_cases hapart : StandsApart behind
  · refine .inl ⟨hapart, ?_⟩
    cases hrest : trimRight (normalizeFrom word.getLast? true false behind) with
    | nil => exact List.append_nil word
    | cons c rest =>
      obtain rfl := head?_behind_apart hne htight hapart (congrArg List.head? hrest)
      exact List.append_nil word
  · refine .inr ⟨hapart, ?_⟩
    obtain ⟨c, hc, hhead⟩ := head?_behind_tight hne htight hapart
    obtain ⟨rest, hrest⟩ := List.head?_eq_some_iff.1 hhead
    have hblank : (c != ' ') = true := bne_iff_ne.2 fun h => by
      rw [h] at hc
      exact absurd hc (by decide)
    refine ⟨c, hc, List.mem_append_right _ ?_⟩
    rw [hrest, List.takeWhile_cons, if_pos hblank]
    exact List.mem_cons_self

end

/-! ## Argument lists behind words -/

theorem cutAt_word {mark : Char} {word : List Char} (h : mark ∉ word) (cs : List Char) :
    cutAt mark (word ++ cs) =
      (cutAt mark cs).map fun (before, after) => (word ++ before, after) := by
  induction word with
  | nil => simp
  | cons c word ih =>
    rw [List.mem_cons, not_or] at h
    rw [List.cons_append, cutAt, if_neg (Ne.symm h.1), ih h.2, Option.map_map]
    rfl

theorem argumentList?_word {word : List Char} (hopen : '(' ∉ word) (hclose : ')' ∉ word)
    (cs : List Char) : argumentList? (word ++ cs) =
      (argumentList? cs).map fun (before, inside, behind) => (word ++ before, inside, behind) := by
  rw [argumentList?, argumentList?, cutAt_word hopen]
  cases cutAt '(' cs with
  | none => rfl
  | some parts =>
    obtain ⟨before, after⟩ := parts
    have hcontains : (word ++ before).contains ')' = before.contains ')' := by
      rw [Bool.eq_iff_iff, List.contains_iff_mem, List.contains_iff_mem, List.mem_append]
      exact or_iff_right hclose
    simp only [Option.map_some, Option.bind_some, hcontains]
    split
    · rfl
    · rw [Option.map_map]
      rfl

theorem not_mem_of_argumentList? {cs before inside behind : List Char}
    (h : argumentList? cs = some (before, inside, behind)) : '(' ∉ before := by
  obtain ⟨⟨front, rest⟩, hopen, h⟩ := Option.bind_eq_some_iff.1 h
  dsimp only at h
  split at h
  · cases h
  · obtain ⟨⟨_, _⟩, -, h⟩ := Option.map_eq_some_iff.1 h
    cases h
    exact not_mem_of_cutAt hopen

/-- The argument list that the base of a type leaves out. -/
def omittedList? (ddl : List Char) : Option (List Char × List Char × List Char) :=
  if '<' ∈ ddl then none else argumentList? ddl

theorem argumentList?_of_omitted {ddl before inside behind : List Char}
    (h : omittedList? ddl = some (before, inside, behind)) :
    argumentList? ddl = some (before, inside, behind) := by
  unfold omittedList? at h
  split at h
  · cases h
  · exact h

theorem baseTypeChars_omitted {ddl before inside behind : List Char} (hddl : Normal ddl)
    (h : omittedList? ddl = some (before, inside, behind)) :
    baseTypeChars ddl = normalizeChars (before ++ ' ' :: behind) := by
  unfold omittedList? at h
  split at h
  · cases h
  · rename_i hangle
    rw [baseTypeChars_normal hddl hangle, h]
    rfl

theorem baseTypeChars_none {ddl : List Char} (hddl : Normal ddl) (h : omittedList? ddl = none) :
    baseTypeChars ddl = ddl := by
  unfold omittedList? at h
  split at h
  · rename_i hangle
    have hcontains : ddl.contains '<' = true := by simpa using hangle
    rw [baseTypeChars, hddl, if_pos hcontains]
  · rename_i hangle
    rw [baseTypeChars_normal hddl hangle, h]
    rfl

end SchemaPlan.Ddl
