import Mathlib.Algebra.Group.Nat.Even
import SchemaPlan.Proofs.QuotedParts

/-!
# Texts that the walk copies

A normal form with closed quotes is what the walk writes: inside of quotes anything, outside of them
upper case, and a blank only where one counts. The description goes from character to character, so
it shows which changes of a normal form give a normal form.

* `Written`: what the walk writes from a state to the end of the text, outside of quotes.
* `written_normalizeChars`, `Written.normal`: these are the normal forms with closed quotes.
* `Written.drop_word`: a word may be left out together with the blank in front of it.
-/
namespace SchemaPlan.Ddl

open Text

/-- Texts that the walk copies from where it wrote `last`, inside of quotes if `quoted` says so, and
that end outside of quotes. -/
inductive Written : (last : Option Char) → (quoted : Bool) → List Char → Prop
  | nil {last : Option Char} : Written last false []
  | inside {last : Option Char} {c : Char} {cs : List Char} (h : Written (some c) (c != '\'') cs) :
      Written last true (c :: cs)
  | word {last : Option Char} {c : Char} {cs : List Char} (hfinal : Final c)
      (h : Written (some c) (c == '\'') cs) : Written last false (c :: cs)
  | gap {last : Option Char} {c : Char} {cs : List Char} (hkeeps : keepsGap last c = true)
      (hblank : isBlank c = false) (h : Written last false (c :: cs)) :
      Written last false (' ' :: c :: cs)

variable {last other : Option Char} {quoted : Bool} {cs : List Char}

/-! ## One character -/

theorem written_quoted_iff {c : Char} :
    Written last true (c :: cs) ↔ Written (some c) (c != '\'') cs :=
  ⟨fun h => by cases h; assumption, .inside⟩

theorem written_word_iff {c : Char} (hfinal : Final c) :
    Written last false (c :: cs) ↔ Written (some c) (c == '\'') cs := by
  refine ⟨fun h => ?_, .word hfinal⟩
  cases h with
  | word _ h => exact h
  | gap => cases hfinal.not_blank

theorem Written.final {c : Char} (hblank : isBlank c = false) (h : Written last false (c :: cs)) :
    Final c := by
  cases h with
  | word hfinal _ => exact hfinal
  | gap => cases hblank

/-- The character written last matters only in front of a blank. -/
theorem Written.behind_any {c : Char} (hblank : isBlank c = false)
    (h : Written last false (c :: cs)) : Written other false (c :: cs) := by
  have hfinal := h.final hblank
  rw [written_word_iff hfinal] at h ⊢
  exact h

theorem Written.quoted_any (h : Written last true cs) : Written other true cs := by
  cases h with
  | inside h => exact .inside h

theorem Written.congr (hkeeps : keepsGap last = keepsGap other) (h : Written last quoted cs) :
    Written other quoted cs := by
  cases h with
  | nil => exact .nil
  | inside h => exact .inside h
  | word hfinal h => exact .word hfinal h
  | gap hkeep hblank h => exact .gap (hkeeps ▸ hkeep) hblank (h.behind_any hblank)

/-! ## Plain words -/

theorem written_plain_iff {word : List Char} (hword : ∀ c ∈ word, Plain c) :
    Written last quoted (word ++ cs) ↔ Written (word.getLast?.or last) quoted cs := by
  induction word generalizing last with
  | nil => rfl
  | cons c word ih =>
    obtain ⟨hc, hword⟩ := List.forall_mem_cons.1 hword
    rw [List.cons_append, ← getLast?_or_cons, ← ih hword]
    cases quoted with
    | true => rw [written_quoted_iff, bne_iff_ne.2 hc.ne_quote]; rfl
    | false => rw [written_word_iff hc.final, beq_false_of_ne hc.ne_quote]; rfl

theorem written_upper {c : Char} (hblank : isBlank c = false)
    (h : Written ((upper c).getLast?.or last) (c == '\'') cs) :
    Written last false (upper c ++ cs) := by
  rcases upper_cases c with hsame | ⟨-, hall⟩
  · rw [hsame] at h ⊢
    exact .word ⟨hsame, hblank⟩ h
  · have hquote : c ≠ '\'' := by
      rintro rfl
      exact (Plain.of_capitalized (hall '\'' (List.mem_singleton_self _))).ne_quote rfl
    rw [beq_false_of_ne hquote] at h
    exact (written_plain_iff fun d hd => .of_capitalized (hall d hd)).2 h

/-! ## What the walk writes -/

/-- A text whose quotes are closed: the walk writes a text of this kind. -/
theorem written_normalizeFrom (last : Option Char) (gap quoted : Bool) (cs : List Char)
    (hquotes : (cs.count '\'' + quoted.toNat) % 2 = 0) :
    Written last quoted (normalizeFrom last gap quoted cs) := by
  induction cs generalizing last gap quoted with
  | nil =>
    cases quoted with
    | true => cases hquotes
    | false => exact .nil
  | cons c rest ih =>
    have hcount : (rest.count '\'' + (if quoted then c != '\'' else c == '\'').toNat) % 2 = 0 := by
      by_cases hc : c = '\''
      · subst hc
        rw [List.count_cons_self] at hquotes
        cases quoted <;> simp at hquotes ⊢ <;> omega
      · rw [List.count_cons_of_ne hc] at hquotes
        rw [beq_false_of_ne hc, bne_iff_ne.2 hc]
        cases quoted <;> exact hquotes
    cases quoted with
    | true =>
      rw [normalizeFrom_quoted]
      exact .inside (ih _ _ _ hcount)
    | false =>
      by_cases hc : isBlank c = true
      · have hquote : c ≠ '\'' := by
          rintro rfl
          cases hc
        rw [normalizeFrom_blank _ _ hc]
        rw [if_neg Bool.false_ne_true, beq_false_of_ne hquote] at hcount
        exact ih _ _ _ hcount
      · have hc : isBlank c = false := by simpa using hc
        have htail : Written last false (upper c ++ normalizeFrom _ false (c == '\'') rest) :=
          written_upper hc (ih _ _ _ hcount)
        rw [normalizeFrom_word _ _ hc, List.append_assoc, spaceBefore]
        split
        · rename_i hgap
          obtain ⟨d, word, hupper⟩ := List.exists_cons_of_ne_nil (upper_ne_nil c)
          have hd : d ∈ upper c := hupper ▸ List.mem_cons_self
          rw [Bool.and_eq_true, ← keepsGap_upper last hd] at hgap
          rw [hupper, List.cons_append] at htail ⊢
          exact .gap hgap.2 (not_blank_of_mem_upper hc hd) htail
        · exact htail

theorem written_normalizeChars (h : Even (cs.count '\'')) :
    Written none false (normalizeChars cs) :=
  written_normalizeFrom _ _ _ _ (by rw [count_trim rfl]; exact Nat.even_iff.1 h)

theorem Written.normalizeFrom_eq (h : Written last quoted cs) :
    normalizeFrom last false quoted cs = cs := by
  induction h with
  | nil => rfl
  | inside _ ih => rw [normalizeFrom_quoted, ih]
  | word hfinal _ ih =>
    rw [normalizeFrom_word _ _ hfinal.not_blank, hfinal.upper_eq]
    exact congrArg _ ih
  | @gap last c cs hkeeps hblank _ ih =>
    rw [normalizeFrom_word _ _ hblank] at ih
    rw [normalizeFrom_blank _ _ rfl, normalizeFrom_word _ _ hblank, spaceBefore, hkeeps]
    exact congrArg _ ih

theorem Written.getLast? (h : Written last quoted cs) {c : Char} (hc : cs.getLast? = some c) :
    isBlank c = false := by
  induction h with
  | nil => cases hc
  | @inside _ d cs h ih =>
    cases cs with
    | nil =>
      obtain rfl := Option.some.inj hc
      generalize hquoted : (d != '\'') = quoted at h
      cases h
      rw [bne_eq_false_iff_eq] at hquoted
      rw [hquoted]
      rfl
    | cons => exact ih (by rwa [List.getLast?_cons_cons] at hc)
  | @word _ d cs hfinal _ ih =>
    cases cs with
    | nil =>
      obtain rfl := Option.some.inj hc
      exact hfinal.not_blank
    | cons => exact ih (by rwa [List.getLast?_cons_cons] at hc)
  | gap _ _ _ ih => exact ih (by rwa [List.getLast?_cons_cons] at hc)

theorem Written.normal (h : Written none false cs) : Normal cs := by
  refine normal_iff.2 ⟨⟨fun c hc => ?_, fun c hc => h.getLast? hc⟩, h.normalizeFrom_eq⟩
  cases h with
  | nil => cases hc
  | word hfinal _ =>
    obtain rfl := Option.some.inj hc
    exact hfinal.not_blank
  | gap hkeeps => cases hkeeps

/-! ## Words that are left out -/

/-- A blank that counts behind a word still counts without the word. -/
theorem keepsGap_trans {c d e : Char} (hword : keepsGap last c = true)
    (hnext : keepsGap (some d) e = true) : keepsGap last e = true := by
  cases last with
  | none => cases hword
  | some f =>
    simp only [keepsGap, Bool.and_eq_true] at hword hnext ⊢
    exact ⟨hword.1, hnext.2⟩

/-- A word may be left out with the blank in front of it if the text ends behind it or goes on with
a blank. -/
theorem Written.drop_word {word tail : List Char} (hword : ∀ c ∈ word, Plain c) (hne : word ≠ [])
    (htail : tail = [] ∨ tail.head? = some ' ')
    (h : Written last quoted (' ' :: (word ++ tail))) : Written last quoted tail := by
  cases quoted with
  | true => exact ((written_plain_iff hword).1 (written_quoted_iff.1 h)).quoted_any
  | false =>
    rcases htail with rfl | hhead
    · exact .nil
    · obtain ⟨rest, rfl⟩ := List.head?_eq_some_iff.1 hhead
      obtain ⟨c, more, rfl⟩ := List.exists_cons_of_ne_nil hne
      cases h with
      | word hfinal _ => cases hfinal.not_blank
      | gap hkeeps _ h =>
        rw [List.append_eq, ← List.cons_append, written_plain_iff hword, List.getLast?_cons] at h
        cases h with
        | word hfinal _ => cases hfinal.not_blank
        | gap hnext hblank h =>
          exact .gap (keepsGap_trans hkeeps hnext) hblank (h.behind_any hblank)

/-- Behind a word that is left out at the start of a text, the text goes on without the blank. -/
theorem Written.behind_word {word tail : List Char} (hword : ∀ c ∈ word, Plain c)
    (h : Written none false (word ++ ' ' :: tail)) : Written none false tail := by
  rw [written_plain_iff hword] at h
  cases h with
  | word hfinal _ => cases hfinal.not_blank
  | gap _ hblank h => exact h.behind_any hblank

end SchemaPlan.Ddl
