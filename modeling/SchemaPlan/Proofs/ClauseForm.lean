import SchemaPlan.MySql.Clause
import SchemaPlan.Proofs.BaseType
import SchemaPlan.Proofs.WordReplacement
import SchemaPlan.Proofs.WrittenText

/-!
# The normal form of trailing clauses

Two edits make the normal form of a clause out of that of its text: words that are expressed
elsewhere are left out, and `CURRENT_TIMESTAMP()` loses its brackets. Both look at the text as a
whole, quoted parts included, and each is made once. So the quoted parts are kept if there is
nothing to edit in them, and the form is its own normal form if no second pair of brackets is left.

* `Drops`: texts with and without implied words; `written_keptWords`, `quotedParts_keptWords`.
* `written_plainClock`, `clockCall_infix_plainClock`: what the brackets leave behind.
* `normalizeFrom_words`: the normal form of words without marks.
* `normalizeExtra_form`: when the form is stable, when it is none, and when it keeps quoted parts.
-/
namespace SchemaPlan.MySql

open Text Ddl

variable {last : Option Char} {quoted : Bool} {cs ds : List Char}

/-! ## Words expressed elsewhere -/

theorem isImpliedWord_iff {word : List Char} : isImpliedWord word = true ↔
    word = "AUTO_INCREMENT".toList ∨ word = "DEFAULT_GENERATED".toList := by
  rw [isImpliedWord, Bool.or_eq_true, decide_eq_true_iff, decide_eq_true_iff]

theorem plain_of_implied {word : List Char} (h : isImpliedWord word = true) :
    ∀ c ∈ word, Plain c := by
  rcases isImpliedWord_iff.1 h with rfl | rfl <;> decide

/-- The marks that blanks and quotes stand out against. -/
theorem mark_not_mem_implied {word : List Char} (h : isImpliedWord word = true) :
    ∀ mark ∈ [' ', '\'', '(', ')', ',', '<', '>'], mark ∉ word := by
  rcases isImpliedWord_iff.1 h with rfl | rfl <;> decide

theorem implied_ne_nil {word : List Char} (h : isImpliedWord word = true) : word ≠ [] := by
  rintro rfl
  cases h

def spaced (words : List (List Char)) : List Char :=
  words.flatMap fun word => ' ' :: word

@[simp] theorem spaced_nil : spaced [] = [] := rfl

theorem spaced_cons (word : List Char) (more : List (List Char)) :
    spaced (word :: more) = ' ' :: (word ++ spaced more) := by
  simp [spaced]

theorem joinWith_eq_spaced (word : List Char) (more : List (List Char)) :
    joinWith [' '] (word :: more) = word ++ spaced more := by
  induction more generalizing word with
  | nil => simp [joinWith]
  | cons next more ih => rw [joinWith_cons_cons, ih, spaced_cons]

theorem spaced_eq {words : List (List Char)} (hne : words ≠ []) :
    spaced words = ' ' :: joinWith [' '] words := by
  obtain ⟨word, more, rfl⟩ := List.exists_cons_of_ne_nil hne
  rw [spaced_cons, joinWith_eq_spaced]

theorem spaced_start (words : List (List Char)) :
    spaced words = [] ∨ (spaced words).head? = some ' ' := by
  cases words with
  | nil => exact .inl rfl
  | cons word more => exact .inr (by rw [spaced_cons]; rfl)

/-! ## Texts without implied words -/

/-- A text with and without some of its implied words. Each goes with the blank in front of it, and
has a blank behind it or, if `atEnd` says so, the end of the text. -/
inductive Drops (atEnd : Bool) : List Char → List Char → Prop
  | nil : Drops atEnd [] []
  | keep {c : Char} {cs ds : List Char} (h : Drops atEnd cs ds) : Drops atEnd (c :: cs) (c :: ds)
  | drop {word tail ds : List Char} (hword : isImpliedWord word = true)
      (htail : tail.head? = some ' ' ∨ tail = [] ∧ atEnd = true) (h : Drops atEnd tail ds) :
      Drops atEnd (' ' :: (word ++ tail)) ds

theorem Drops.append {atEnd : Bool} (h : Drops atEnd cs ds) (front : List Char) :
    Drops atEnd (front ++ cs) (front ++ ds) := by
  induction front with
  | nil => exact h
  | cons c front ih => exact ih.keep

/-- Anything but a blank is kept. -/
theorem Drops.kept {atEnd : Bool} {c : Char} (hc : c ≠ ' ') (h : Drops atEnd (c :: cs) ds) :
    ∃ more, ds = c :: more ∧ Drops atEnd cs more := by
  generalize htext : c :: cs = text at h
  cases h with
  | nil => cases htext
  | keep h =>
    obtain ⟨rfl, rfl⟩ := List.cons.inj htext
    exact ⟨_, rfl, h⟩
  | drop => exact absurd (List.cons.inj htext).1 hc

theorem Drops.written (h : Drops true cs ds) (hwritten : Written last quoted cs) :
    Written last quoted ds := by
  induction h generalizing last quoted with
  | nil => exact hwritten
  | @keep c cs ds h ih =>
    cases hwritten with
    | inside hrest => exact .inside (ih hrest)
    | word hfinal hrest => exact .word hfinal (ih hrest)
    | @gap _ d more hkeeps hblank hrest =>
      have hletter : d ≠ ' ' := by
        rintro rfl
        cases hblank
      obtain ⟨others, rfl, -⟩ := h.kept hletter
      exact .gap hkeeps hblank (ih hrest)
  | @drop word tail ds hword htail h ih =>
    refine ih (hwritten.drop_word (plain_of_implied hword) (implied_ne_nil hword) ?_)
    exact htail.symm.imp_left And.left

theorem Drops.head? {atEnd : Bool} (h : Drops atEnd cs ds) (hhead : cs.head? ≠ some '\'') :
    ds.head? ≠ some '\'' := by
  induction h with
  | nil => exact hhead
  | keep => exact hhead
  | drop hword htail h ih =>
    refine ih fun hquote => ?_
    rcases htail with hblank | ⟨rfl, -⟩
    · rw [hquote] at hblank
      cases hblank
    · cases hquote

/-- A part is closed where it was; what is left of it does not end with an implied word. -/
theorem Drops.closeQuote? (h : Drops true cs ds) :
    Option.Rel (fun before after => Drops false before.1 after.1 ∧ Drops true before.2 after.2)
      (closeQuote? cs) (closeQuote? ds) := by
  induction hlength : cs.length using Nat.strongRecOn generalizing cs ds with
  | ind length ih =>
    cases h with
    | nil => exact .none
    | @keep c cs ds h =>
      rw [List.length_cons] at hlength
      by_cases hc : c = '\''
      · subst hc
        by_cases hdouble : cs.head? = some '\''
        · obtain ⟨rest, rfl⟩ := List.head?_eq_some_iff.1 hdouble
          obtain ⟨more, rfl, hmore⟩ := h.kept (by decide)
          rw [List.length_cons] at hlength
          have hrest := ih rest.length (by omega) hmore rfl
          rw [closeQuote?_doubled, closeQuote?_doubled]
          generalize Text.closeQuote? rest = before at hrest
          generalize Text.closeQuote? more = after at hrest
          cases hrest with
          | none => exact .none
          | some hparts => exact .some ⟨hparts.1.keep.keep, hparts.2⟩
        · rw [closeQuote?_end hdouble, closeQuote?_end (h.head? hdouble)]
          exact .some ⟨.nil, h⟩
      · have hrest := ih cs.length (by omega) h rfl
        rw [closeQuote?_cons hc, closeQuote?_cons hc]
        generalize Text.closeQuote? cs = before at hrest
        generalize Text.closeQuote? ds = after at hrest
        cases hrest with
        | none => exact .none
        | some hparts => exact .some ⟨hparts.1.keep, hparts.2⟩
    | @drop word tail ds hword htail h =>
      rw [List.length_cons, List.length_append] at hlength
      have hrest := ih tail.length (by omega) h rfl
      rw [closeQuote?_cons (by decide),
        closeQuote?_word (mark_not_mem_implied hword '\'' (by decide))]
      cases hbefore : Text.closeQuote? tail with
      | none =>
        rw [hbefore] at hrest
        exact hrest
      | some found =>
        obtain ⟨part, behind⟩ := found
        rw [hbefore] at hrest
        generalize Text.closeQuote? ds = after at hrest
        -- Something is closed behind the word, so the text goes on with a blank.
        have hblank : tail.head? = some ' ' := htail.resolve_right fun hend => by
          rw [hend.1] at hbefore
          cases hbefore
        have hpart : part.head? = some ' ' := by
          rw [(eq_of_closeQuote? hbefore).1] at hblank
          cases part with
          | nil => cases hblank
          | cons => exact hblank
        cases hrest with
        | some hparts => exact .some ⟨.drop hword (.inl hpart) hparts.1, hparts.2⟩

/-- Part by part, the quoted parts are left without some of their implied words. -/
theorem Drops.quotedParts (h : Drops true cs ds) :
    List.Forall₂ (Drops false) (quotedParts cs) (quotedParts ds) := by
  induction hlength : cs.length using Nat.strongRecOn generalizing cs ds with
  | ind length ih =>
    cases h with
    | nil => simp
    | @keep c cs ds h =>
      rw [List.length_cons] at hlength
      by_cases hc : c = '\''
      · subst hc
        have hclose := h.closeQuote?
        rw [quotedParts_quote, quotedParts_quote]
        cases hbefore : Text.closeQuote? cs with
        | none =>
          rw [hbefore] at hclose
          generalize Text.closeQuote? ds = after at hclose
          cases hclose
          exact .nil
        | some found =>
          rw [hbefore] at hclose
          generalize Text.closeQuote? ds = after at hclose
          have hshort : found.2.length < cs.length := length_closeQuote? hbefore
          cases hclose with
          | some hparts => exact .cons hparts.1 (ih found.2.length (by omega) hparts.2 rfl)
      · rw [quotedParts_cons hc, quotedParts_cons hc]
        exact ih cs.length (by omega) h rfl
    | @drop word tail ds hword htail h =>
      rw [List.length_cons, List.length_append] at hlength
      rw [quotedParts_cons (by decide),
        quotedParts_word (mark_not_mem_implied hword '\'' (by decide))]
      exact ih tail.length (by omega) h rfl

/-- Nothing is dropped where no implied word stands between blanks. -/
theorem Drops.eq (h : Drops false cs ds)
    (hnone : ∀ word, isImpliedWord word = true → ¬ ' ' :: (word ++ [' ']) <:+: cs) : ds = cs := by
  induction h with
  | nil => rfl
  | @keep c cs ds h ih =>
    rw [ih fun word hword hinside =>
      hnone word hword (hinside.trans (List.suffix_cons c cs).isInfix)]
  | @drop word tail ds hword htail h ih =>
    obtain ⟨rest, rfl⟩ := List.head?_eq_some_iff.1 (htail.resolve_right fun hend => by cases hend.2)
    exact absurd ⟨[], rest, by simp⟩ (hnone word hword)

/-! ## The words that stay -/

def keptWords (cs : List Char) : List Char :=
  joinWith [' '] ((pieces (· == ' ') cs).filter fun word => !isImpliedWord word)

theorem drops_spaced (words : List (List Char)) :
    Drops true (spaced words) (spaced (words.filter fun word => !isImpliedWord word)) := by
  induction words with
  | nil => exact .nil
  | cons word more ih =>
    rw [spaced_cons]
    cases hword : isImpliedWord word with
    | true =>
      rw [List.filter_cons_of_neg (by simp [hword])]
      exact .drop hword ((spaced_start more).symm.imp_right fun hnil => ⟨hnil, rfl⟩) ih
    | false =>
      rw [List.filter_cons_of_pos (by simp [hword]), spaced_cons]
      exact (ih.append word).keep

theorem written_keptWords (h : Written none false cs) : Written none false (keptWords cs) := by
  have hjoin := joinWith_pieces ' ' cs
  obtain ⟨word, more, hpieces⟩ := List.exists_cons_of_ne_nil (pieces_ne_nil (· == ' ') cs)
  rw [hpieces, joinWith_eq_spaced] at hjoin
  rw [← hjoin] at h
  rw [keptWords, hpieces]
  have hdrops := drops_spaced more
  cases hword : isImpliedWord word with
  | false =>
    rw [List.filter_cons_of_pos (by simp [hword]), joinWith_eq_spaced]
    exact (hdrops.append word).written h
  | true =>
    rw [List.filter_cons_of_neg (by simp [hword])]
    by_cases hkept : (more.filter fun word => !isImpliedWord word) = []
    · rw [hkept]
      exact .nil
    · rw [spaced_eq hkept] at hdrops
      have hleft := (hdrops.append word).written h
      exact hleft.behind_word (plain_of_implied hword)

theorem quotedParts_spaced (words : List (List Char)) :
    quotedParts (spaced words) = quotedParts (joinWith [' '] words) := by
  by_cases hne : words = []
  · rw [hne]
    rfl
  · rw [spaced_eq hne, quotedParts_cons (by decide)]

theorem quotedParts_keptWords (cs : List Char) :
    List.Forall₂ (Drops false) (quotedParts cs) (quotedParts (keptWords cs)) := by
  have hparts := (drops_spaced (pieces (· == ' ') cs)).quotedParts
  rwa [quotedParts_spaced, quotedParts_spaced, joinWith_pieces] at hparts

theorem not_implied_of_mem_keptWords {piece : List Char}
    (h : piece ∈ pieces (· == ' ') (keptWords cs)) : isImpliedWord piece = false := by
  rw [keptWords] at h
  by_cases hne : ((pieces (· == ' ') cs).filter fun word => !isImpliedWord word) = []
  · rw [hne] at h
    obtain rfl := List.mem_singleton.1 h
    rfl
  · rw [pieces_joinWith hne fun word hword =>
      not_mem_of_mem_pieces (List.mem_of_mem_filter hword)] at h
    simpa using (List.mem_filter.1 h).2

theorem keptWords_eq_self (h : ∀ piece ∈ pieces (· == ' ') cs, isImpliedWord piece = false) :
    keptWords cs = cs := by
  rw [keptWords, List.filter_eq_self.2 fun piece hpiece => by simp [h piece hpiece],
    joinWith_pieces]

/-- A word that is no piece of an implied one occurs in the text that is left if it did before. -/
theorem infix_keptWords_iff {word : List Char} (hblank : ' ' ∉ word) (hne : word ≠ [])
    (himplied : ∀ piece, isImpliedWord piece = true → ¬word <:+: piece) :
    word <:+: keptWords cs ↔ word <:+: cs := by
  conv_rhs => rw [← joinWith_pieces ' ' cs]
  rw [keptWords, infix_joinWith_iff hblank hne, infix_joinWith_iff hblank hne]
  constructor
  · rintro ⟨piece, hpiece, hinside⟩
    exact ⟨piece, List.mem_of_mem_filter hpiece, hinside⟩
  · rintro ⟨piece, hpiece, hinside⟩
    refine ⟨piece, List.mem_filter.2 ⟨hpiece, ?_⟩, hinside⟩
    rw [Bool.not_eq_true', ← Bool.not_eq_true]
    exact fun hword => himplied piece hword hinside

/-! ## Brackets behind the clock -/

def clock : List Char :=
  "CURRENT_TIMESTAMP".toList

def clockCall : List Char :=
  "CURRENT_TIMESTAMP()".toList

theorem clockCall_ne_nil : clockCall ≠ [] := by
  decide

/-- A text with plain names of the clock. -/
def plainClock (cs : List Char) : List Char :=
  replaceWord clockCall clock cs

theorem plainClock_found (rest : List Char) :
    plainClock (clockCall ++ rest) = clock ++ plainClock rest :=
  replaceWord_word clockCall_ne_nil rest

theorem head?_plainClock (cs : List Char) : (plainClock cs).head? = cs.head? := by
  induction cs using replace_induction clockCall_ne_nil with
  | nil => rfl
  | found rest ih =>
    rw [plainClock_found]
    rfl
  | other c rest hstart ih =>
    rw [plainClock, replaceWord_cons hstart]
    rfl

/-- The walk copies the text with plain names: a blank counts behind a name as behind a bracket. -/
theorem written_plainClock (h : Written last quoted cs) : Written last quoted (plainClock cs) := by
  induction cs using replace_induction clockCall_ne_nil generalizing last quoted with
  | nil => exact h
  | found rest ih =>
    rw [written_plain_iff (by decide)] at h
    rw [plainClock_found, written_plain_iff (by decide)]
    have hkeeps : keepsGap (some ')') = keepsGap (some 'P') := funext fun next => rfl
    exact (ih h).congr hkeeps
  | other c rest hstart ih =>
    rw [plainClock, replaceWord_cons hstart]
    cases h with
    | inside h => exact .inside (ih rest le_rfl h)
    | word hfinal h => exact .word hfinal (ih rest le_rfl h)
    | @gap _ d more hkeeps hblank h =>
      obtain ⟨others, hothers⟩ := List.head?_eq_some_iff.1 (head?_plainClock (d :: more))
      have hrest := ih (d :: more) le_rfl h
      rw [hothers] at hrest
      rw [← plainClock, hothers]
      exact .gap hkeeps hblank hrest

/-- A call is left where there was one with a second pair of brackets. -/
theorem clockCall_infix_plainClock_iff :
    clockCall <:+: plainClock cs ↔ clockCall ++ "()".toList <:+: cs := by
  have hclock : clock = 'C' :: "URRENT_TIMESTAMP".toList := by decide
  have hcall : clockCall = 'C' :: ("URRENT_TIMESTAMP".toList ++ "()".toList) := by decide
  rw [plainClock, hclock, hcall]
  exact infix_shortened_iff (by decide) (by decide)

theorem clock_not_infix_implied {word : List Char} (h : isImpliedWord word = true) :
    ¬clock <:+: word := by
  rw [← occursIn_iff]
  rcases isImpliedWord_iff.1 h with rfl | rfl <;> decide

theorem not_implied_plainClock {piece : List Char} (h : isImpliedWord piece = false) :
    isImpliedWord (plainClock piece) = false := by
  by_cases hsame : plainClock piece = piece
  · rwa [hsame]
  · rw [← Bool.not_eq_true]
    exact fun himplied =>
      clock_not_infix_implied himplied (infix_replaceWord clockCall_ne_nil hsame)

/-! ## The form once more -/

theorem normalizeClause_eq (clause : List Char) :
    normalizeClause clause = plainClock (keptWords (normalizeChars clause)) := rfl

theorem not_implied_of_mem_normalizeClause {clause piece : List Char}
    (h : piece ∈ pieces (· == ' ') (normalizeClause clause)) : isImpliedWord piece = false := by
  rw [normalizeClause_eq, plainClock,
    pieces_replaceWord clockCall_ne_nil (by decide) (by decide)] at h
  obtain ⟨kept, hkept, rfl⟩ := List.mem_map.1 h
  exact not_implied_plainClock (not_implied_of_mem_keptWords hkept)

/-- Behind the first time only brackets are left to edit. -/
theorem normalizeClause_again {clause : List Char} (h : Even (clause.count '\'')) :
    normalizeClause (normalizeClause clause) = plainClock (normalizeClause clause) := by
  have hwritten := written_plainClock (written_keptWords (written_normalizeChars h))
  have hnormal : normalizeChars (normalizeClause clause) = normalizeClause clause :=
    hwritten.normal
  rw [normalizeClause_eq (normalizeClause clause), hnormal,
    keptWords_eq_self fun _ => not_implied_of_mem_normalizeClause]

/-- The form is its own form unless the text has a call of the clock with two pairs of brackets. -/
theorem normalizeClause_stable_iff {clause : List Char} (h : Even (clause.count '\'')) :
    normalizeClause (normalizeClause clause) = normalizeClause clause ↔
      ¬clockCall ++ "()".toList <:+: normalizeChars clause := by
  rw [normalizeClause_again h, plainClock, replaceWord_eq_self_iff clockCall_ne_nil (by decide),
    normalizeClause_eq, clockCall_infix_plainClock_iff, infix_keptWords_iff (by decide) (by decide)]
  have hclock : clock <:+: clockCall ++ "()".toList := by
    rw [← occursIn_iff]
    decide
  exact fun piece himplied hinside => clock_not_infix_implied himplied (hclock.trans hinside)

/-! ## Clauses of implied words -/

def nonempty (pieces : List (List Char)) : List (List Char) :=
  pieces.filter fun piece => !piece.isEmpty

/-- The words of a text: its pieces between blanks that are not empty. -/
def words (cs : List Char) : List (List Char) :=
  nonempty (pieces isBlank cs)

theorem mem_words {word : List Char} (h : word ∈ words cs) :
    word ∈ pieces isBlank cs ∧ word ≠ [] := by
  obtain ⟨hpiece, hne⟩ := List.mem_filter.1 h
  exact ⟨hpiece, by simpa using hne⟩

/-- The characters that the walk does more with than writing their upper case. -/
def marks : List Char :=
  ['\'', '(', ')', ',', '<', '>']

theorem final_of_mark {mark : Char} (h : mark ∈ marks) : Final mark := by
  have hall : ∀ mark ∈ marks, upper mark = [mark] ∧ isBlank mark = false := by decide
  exact ⟨(hall mark h).1, (hall mark h).2⟩

theorem getLast?_upper {c : Char} (hc : c ∉ marks) :
    ∃ d, (upper c).getLast? = some d ∧ d ∉ ['(', ',', '<'] := by
  have hlast := List.getLast?_eq_some_getLast (upper_ne_nil c)
  refine ⟨_, hlast, fun hmem => hc ?_⟩
  have hlow : ∀ mark ∈ ['(', ',', '<'], mark ∈ marks ∧ mark.toNat < 0x41 := by decide
  rw [eq_of_mem_upper (.inl (hlow _ hmem).2) (List.mem_of_getLast? hlast)]
  exact (hlow _ hmem).1

/-- Without marks the walk writes upper-cased words with single blanks. The word that it is in goes
on with the first piece. -/
theorem normalizeFrom_words (hmarks : ∀ c ∈ cs, c ∉ marks) {first : List Char}
    {more : List (List Char)} (hpieces : pieces isBlank cs = first :: more) {last : Char}
    (hlast : last ∉ ['(', ',', '<']) :
    normalizeFrom (some last) false false cs =
        upperText first ++ spaced ((nonempty more).map upperText) ∧
      normalizeFrom (some last) true false cs =
        spaced ((nonempty (first :: more)).map upperText) := by
  induction cs using pieces_induction isBlank generalizing first more last with
  | nil =>
    obtain ⟨rfl, rfl⟩ := List.cons.inj hpieces
    exact ⟨rfl, rfl⟩
  | separator c rest hblank ih =>
    obtain ⟨next, others, hnext⟩ := List.exists_cons_of_ne_nil (pieces_ne_nil isBlank rest)
    rw [pieces_separator hblank, hnext] at hpieces
    obtain ⟨rfl, rfl⟩ := List.cons.inj hpieces
    rw [normalizeFrom_blank _ _ hblank, normalizeFrom_blank _ _ hblank,
      (ih (List.forall_mem_cons.1 hmarks).2 hnext hlast).2]
    exact ⟨rfl, rfl⟩
  | letter c rest next others hblank hnext ih =>
    obtain ⟨hc, hrest⟩ := List.forall_mem_cons.1 hmarks
    rw [pieces_letter hblank hnext] at hpieces
    obtain ⟨rfl, rfl⟩ := List.cons.inj hpieces
    obtain ⟨d, hd, hopening⟩ := getLast?_upper hc
    simp only [marks, List.mem_cons, List.not_mem_nil, or_false, not_or] at hc hlast
    have hkeeps : keepsGap (some last) c = true := by simp [keepsGap, hlast, hc]
    rw [normalizeFrom_word _ _ hblank, normalizeFrom_word _ _ hblank, hd, beq_false_of_ne hc.1,
      Option.some_or, (ih hrest hnext hopening).1, spaceBefore, spaceBefore, hkeeps]
    simp [nonempty, upperText, spaced_cons]

theorem normalizeFrom_first_word (hmarks : ∀ c ∈ cs, c ∉ marks) (gap : Bool) :
    normalizeFrom none gap false cs = joinWith [' '] ((words cs).map upperText) := by
  induction cs using pieces_induction isBlank generalizing gap with
  | nil => rfl
  | separator c rest hblank ih =>
    rw [normalizeFrom_blank _ _ hblank, ih (List.forall_mem_cons.1 hmarks).2, words, words,
      pieces_separator hblank]
    rfl
  | letter c rest next others hblank hnext ih =>
    obtain ⟨hc, hrest⟩ := List.forall_mem_cons.1 hmarks
    obtain ⟨d, hd, hopening⟩ := getLast?_upper hc
    have hquote : c ≠ '\'' := fun hquote => hc (hquote ▸ List.mem_cons_self)
    have hspace : spaceBefore none gap c = [] := by simp [spaceBefore, keepsGap]
    have hwords : words (c :: rest) = (c :: next) :: nonempty others := by
      rw [words, pieces_letter hblank hnext]
      rfl
    rw [normalizeFrom_word _ _ hblank, hspace, hd, beq_false_of_ne hquote, Option.some_or,
      (normalizeFrom_words hrest hnext hopening).1, hwords, List.map_cons, joinWith_eq_spaced]
    simp [upperText]

theorem normalizeChars_words (hmarks : ∀ c ∈ cs, c ∉ marks) :
    normalizeChars cs = joinWith [' '] ((words cs).map upperText) := by
  rw [normalizeChars_eq fun hquote => hmarks _ hquote List.mem_cons_self,
    normalizeFrom_first_word hmarks]

theorem pieces_normalizeChars_words (hmarks : ∀ c ∈ cs, c ∉ marks) (hne : words cs ≠ []) :
    pieces (· == ' ') (normalizeChars cs) = (words cs).map upperText := by
  rw [normalizeChars_words hmarks,
    pieces_joinWith (fun hnil => hne (List.map_eq_nil_iff.1 hnil)) fun word hword hblank => ?_]
  obtain ⟨text, htext, rfl⟩ := List.mem_map.1 hword
  obtain ⟨c, hc, hmem⟩ := List.mem_flatMap.1 hblank
  have hletter := (exists_mem_pieces_iff.1 ⟨text, (mem_words htext).1, hc⟩).2
  exact absurd (not_blank_of_mem_upper hletter hmem) (by decide)

theorem keptWords_eq_nil (h : keptWords cs = []) :
    ∀ piece ∈ pieces (· == ' ') cs, isImpliedWord piece = true ∨ piece = [] := by
  intro piece hpiece
  rw [keptWords] at h
  cases hkept : (pieces (· == ' ') cs).filter fun word => !isImpliedWord word with
  | nil => exact .inl (by simpa using List.filter_eq_nil_iff.1 hkept piece hpiece)
  | cons first more =>
    rw [hkept, joinWith_eq_spaced, List.append_eq_nil_iff] at h
    obtain ⟨rfl, hmore⟩ := h
    obtain rfl : more = [] := by
      cases more with
      | nil => rfl
      | cons next more =>
        rw [spaced_cons] at hmore
        cases hmore
    by_cases hword : isImpliedWord piece = true
    · exact .inl hword
    · refine .inr (List.mem_singleton.1 ?_)
      rw [← hkept]
      exact List.mem_filter.2 ⟨hpiece, by simpa using hword⟩

/-- There is no clause just if the text has implied words only, in any case. -/
theorem normalizeClause_eq_nil_iff {clause : List Char} : normalizeClause clause = [] ↔
    ∀ word ∈ words clause, isImpliedWord (upperText word) = true := by
  rw [normalizeClause_eq, plainClock, replaceWord_eq_nil_iff clockCall_ne_nil (by decide)]
  constructor
  · intro hnil word hword
    have himplied := keptWords_eq_nil hnil
    have hmarks : ∀ c ∈ clause, c ∉ marks := by
      intro c hc hmark
      have hwritten : c ∈ normalizeChars clause := by
        by_contra hmem
        exact not_mem_of_normalizeChars (final_of_mark hmark) hmem hc
      have hblank : (c == ' ') = false :=
        beq_false_of_ne fun h => by rw [h] at hmark; exact absurd hmark (by decide)
      obtain ⟨piece, hpiece, hmem⟩ :=
        (@exists_mem_pieces_iff (· == ' ') _ c).2 ⟨hwritten, hblank⟩
      rcases himplied piece hpiece with hword | rfl
      · exact mark_not_mem_implied hword c (List.mem_cons_of_mem _ hmark) hmem
      · cases hmem
    have hpiece : upperText word ∈ pieces (· == ' ') (normalizeChars clause) := by
      rw [pieces_normalizeChars_words hmarks (List.ne_nil_of_mem hword)]
      exact List.mem_map_of_mem hword
    refine (himplied _ hpiece).resolve_right fun hempty => ?_
    obtain ⟨c, rest, rfl⟩ := List.exists_cons_of_ne_nil (mem_words hword).2
    exact upper_ne_nil c (List.append_eq_nil_iff.1 hempty).1
  · intro hall
    have hmarks : ∀ c ∈ clause, c ∉ marks := by
      intro c hc hmark
      have hfinal := final_of_mark hmark
      obtain ⟨word, hword, hmem⟩ := exists_mem_pieces_iff.2 ⟨hc, hfinal.not_blank⟩
      have hne : word ≠ [] := List.ne_nil_of_mem hmem
      refine mark_not_mem_implied (hall word (List.mem_filter.2 ⟨hword, by simpa using hne⟩)) c
        (List.mem_cons_of_mem _ hmark) (List.mem_flatMap.2 ⟨c, hmem, ?_⟩)
      rw [hfinal.upper_eq]
      exact List.mem_singleton_self c
    by_cases hne : words clause = []
    · rw [normalizeChars_words hmarks, hne]
      rfl
    · rw [keptWords, pieces_normalizeChars_words hmarks hne, List.filter_eq_nil_iff.2]
      · rfl
      · intro word hword
        obtain ⟨text, htext, rfl⟩ := List.mem_map.1 hword
        simp [hall text htext]

/-! ## Quoted parts -/

/-- Texts with something in them that the normal form of a clause leaves out. -/
def Edited (part : List Char) : Prop :=
  clockCall <:+: part ∨ ∃ word, isImpliedWord word = true ∧ ' ' :: (word ++ [' ']) <:+: part

theorem parts_eq {parts left : List (List Char)} (h : List.Forall₂ (Drops false) parts left)
    (hnone : ∀ part ∈ parts, ∀ word, isImpliedWord word = true →
      ¬ ' ' :: (word ++ [' ']) <:+: part) : left = parts := by
  induction h with
  | nil => rfl
  | cons hdrops _ ih =>
    obtain ⟨hpart, hmore⟩ := List.forall_mem_cons.1 hnone
    rw [hdrops.eq hpart, ih hmore]

/-- The quoted parts stay as they are just if there is nothing to edit in them. -/
theorem quotedParts_normalizeClause_iff {clause : List Char} :
    quotedParts (normalizeClause clause) = quotedParts clause ↔
      ∀ part ∈ quotedParts clause, ¬Edited part := by
  have hdrops := quotedParts_keptWords (normalizeChars clause)
  rw [quotedParts_normalizeChars] at hdrops
  have hclock : quotedParts (normalizeClause clause) =
      (quotedParts (keptWords (normalizeChars clause))).map plainClock :=
    quotedParts_replaceWord clockCall_ne_nil (by decide) (by decide) (by decide) _
  -- Where no implied words stand between blanks, only calls of the clock are edited.
  have hcalls (hnone : ∀ part ∈ quotedParts clause, ∀ word, isImpliedWord word = true →
      ¬ ' ' :: (word ++ [' ']) <:+: part) : quotedParts (normalizeClause clause) =
        quotedParts clause ↔ ∀ part ∈ quotedParts clause, ¬clockCall <:+: part := by
    rw [hclock, parts_eq hdrops hnone]
    conv_lhs => rhs; rw [← List.map_id (quotedParts clause)]
    rw [List.map_inj_left]
    exact forall₂_congr fun part _ => replaceWord_eq_self_iff clockCall_ne_nil (by decide)
  constructor
  · intro hsame
    have hnone : ∀ part ∈ quotedParts clause, ∀ word, isImpliedWord word = true →
        ¬ ' ' :: (word ++ [' ']) <:+: part := by
      intro part hpart word hword hinside
      rw [← hsame] at hpart
      have hmem := mem_pieces_of_infix (mark_not_mem_implied hword ' ' List.mem_cons_self)
        (hinside.trans (infix_of_mem_quotedParts hpart))
      rw [not_implied_of_mem_normalizeClause hmem] at hword
      cases hword
    intro part hpart hedited
    rcases hedited with hcall | ⟨word, hword, hinside⟩
    · exact (hcalls hnone).1 hsame part hpart hcall
    · exact hnone part hpart word hword hinside
  · intro hclean
    refine (hcalls fun part hpart word hword hinside => ?_).2 fun part hpart hcall => ?_
    · exact hclean part hpart (.inr ⟨word, hword, hinside⟩)
    · exact hclean part hpart (.inl hcall)

/-! ## The form of a clause -/

theorem normalizeExtra_some (text : String) : normalizeExtra (some text) =
    if normalizeClause text.toList = [] then none
    else some (String.ofList (normalizeClause text.toList)) := by
  simp [normalizeExtra]

/-- For a clause with closed quotes: its form is its own form just if the text has no call of the
clock with two pairs of brackets; there is none just if all words of the text are implied, in any
case; and the quoted parts are kept just if there is nothing to edit in them. -/
theorem normalizeExtra_form {text : String} (hquotes : Even (text.toList.count '\'')) :
    (normalizeExtra (normalizeExtra (some text)) = normalizeExtra (some text) ↔
      ¬"CURRENT_TIMESTAMP()()".toList <:+: normalizeChars text.toList) ∧
    (normalizeExtra (some text) = none ↔
      ∀ word ∈ words text.toList, isImpliedWord (upperText word) = true) ∧
    (quotedParts ((normalizeExtra (some text)).getD "").toList = quotedParts text.toList ↔
      ∀ part ∈ quotedParts text.toList, ¬Edited part) := by
  have hstable := normalizeClause_stable_iff hquotes
  rw [normalizeExtra_some]
  refine ⟨?_, ?_, ?_⟩
  · have hcall : clockCall ++ "()".toList = "CURRENT_TIMESTAMP()()".toList := by decide
    rw [← hcall, ← hstable]
    by_cases hnil : normalizeClause text.toList = []
    · rw [if_pos hnil, hnil]
      exact iff_of_true rfl rfl
    · rw [if_neg hnil, normalizeExtra_some, String.toList_ofList]
      constructor
      · intro hsame
        split at hsame
        · cases hsame
        · exact String.ofList_injective (Option.some.inj hsame)
      · intro hsame
        rw [hsame, if_neg hnil]
  · rw [← normalizeClause_eq_nil_iff]
    by_cases hnil : normalizeClause text.toList = [] <;> simp [hnil]
  · rw [← quotedParts_normalizeClause_iff]
    by_cases hnil : normalizeClause text.toList = []
    · rw [if_pos hnil, hnil]
      rfl
    · rw [if_neg hnil, Option.getD_some, String.toList_ofList]

/-- A clause with an implied word outside of quotes: the comment is kept, and the form is stable. -/
theorem normalizeExtra_form_comment :
    Even ("auto_increment comment 'a  b'".toList.count '\'') ∧
      normalizeExtra (normalizeExtra (some "auto_increment comment 'a  b'")) =
        normalizeExtra (some "auto_increment comment 'a  b'") ∧
      quotedParts ((normalizeExtra (some "auto_increment comment 'a  b'")).getD "").toList =
        quotedParts "auto_increment comment 'a  b'".toList := by
  have hquotes : Even ("auto_increment comment 'a  b'".toList.count '\'') := by decide
  obtain ⟨hstable, -, hparts⟩ := normalizeExtra_form hquotes
  refine ⟨hquotes, hstable.2 ?_, hparts.2 fun part hpart hedited => ?_⟩
  · rw [← occursIn_iff]
    decide +kernel
  · have hpart : part = "a  b".toList := by
      have hall : quotedParts "auto_increment comment 'a  b'".toList = ["a  b".toList] := by
        decide +kernel
      rw [hall] at hpart
      exact List.mem_singleton.1 hpart
    subst hpart
    rcases hedited with hcall | ⟨word, hword, hinside⟩
    · exact absurd hcall.length_le (by decide)
    · have hlength := hinside.length_le
      rcases isImpliedWord_iff.1 hword with rfl | rfl
      · exact absurd hlength (by decide)
      · exact absurd hlength (by decide)

/-- A comment loses a word, and a second pair of brackets behind the clock goes only the next
time. -/
theorem normalizeExtra_edits_comment :
    (Even ("comment 'no AUTO_INCREMENT here'".toList.count '\'') ∧
      normalizeExtra (some "comment 'no AUTO_INCREMENT here'") = some "COMMENT 'no here'" ∧
      quotedParts "COMMENT 'no here'".toList ≠
        quotedParts "comment 'no AUTO_INCREMENT here'".toList) ∧
    Even ("on update current_timestamp()()".toList.count '\'') ∧
      normalizeExtra (some "on update current_timestamp()()") =
        some "ON UPDATE CURRENT_TIMESTAMP()" ∧
      normalizeExtra (some "ON UPDATE CURRENT_TIMESTAMP()") =
        some "ON UPDATE CURRENT_TIMESTAMP" := by
  decide +kernel

end SchemaPlan.MySql
