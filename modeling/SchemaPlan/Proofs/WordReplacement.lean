import SchemaPlan.Proofs.QuotedParts

/-!
# Replaced words

A word is replaced from left to right. If neither the word nor what is put in has a mark in it, then
replacing goes through the pieces between the marks one by one, and through the quoted parts too.

* `pieces_joinWith`, `infix_joinWith_iff`: the pieces of a joined text, and where a word occurs in
  it.
* `replace_induction`: recursion over the text in the steps of the replacement.
* `replaceWord_eq_self_iff`: a text stays as it is if the word does not occur.
* `pieces_replaceWord`, `quotedParts_replaceWord`: replacing piece by piece and part by part.
-/
namespace SchemaPlan.Text

/-! ## Pieces of joined texts -/

theorem pieces_append_mark (mark : Char) (a b : List Char) :
    pieces (· == mark) (a ++ mark :: b) = pieces (· == mark) a ++ pieces (· == mark) b := by
  induction a with
  | nil => simp [pieces]
  | cons c a ih =>
    rw [List.cons_append, pieces, pieces, ih]
    split
    · rfl
    · cases hpieces : pieces (· == mark) a with
      | nil => exact absurd hpieces (pieces_ne_nil _ _)
      | cons first more => rfl

theorem pieces_word {mark : Char} {word : List Char} (h : mark ∉ word) {cs first : List Char}
    {more : List (List Char)} (hpieces : pieces (· == mark) cs = first :: more) :
    pieces (· == mark) (word ++ cs) = (word ++ first) :: more := by
  induction word with
  | nil => exact hpieces
  | cons c word ih =>
    rw [List.mem_cons, not_or] at h
    rw [List.cons_append, pieces, ih h.2, if_neg (by simpa using Ne.symm h.1)]
    rfl

theorem joinWith_cons_cons (mark : Char) (first next : List Char) (more : List (List Char)) :
    joinWith [mark] (first :: next :: more) = first ++ mark :: joinWith [mark] (next :: more) := by
  simp [joinWith]

theorem prefix_of_pieces {mark : Char} {cs first : List Char} {more : List (List Char)}
    (h : pieces (· == mark) cs = first :: more) : first <+: cs := by
  have hjoin := joinWith_pieces mark cs
  rw [h] at hjoin
  rw [← hjoin]
  cases more with
  | nil => exact List.prefix_rfl
  | cons next more =>
    rw [joinWith_cons_cons]
    exact List.prefix_append _ _

/-- Splitting a joined text gives its pieces back. -/
theorem pieces_joinWith {mark : Char} {words : List (List Char)} (hne : words ≠ [])
    (h : ∀ word ∈ words, mark ∉ word) :
    pieces (· == mark) (joinWith [mark] words) = words := by
  induction words with
  | nil => exact absurd rfl hne
  | cons word more ih =>
    obtain ⟨hword, hmore⟩ := List.forall_mem_cons.1 h
    cases more with
    | nil => exact pieces_of_not_mem hword
    | cons next more =>
      rw [joinWith_cons_cons, pieces_append hword, ih (List.cons_ne_nil _ _) hmore]

/-- A word that is followed and preceded by the mark is a piece. -/
theorem mem_pieces_of_infix {mark : Char} {word cs : List Char} (h : mark ∉ word)
    (hinside : mark :: (word ++ [mark]) <:+: cs) : word ∈ pieces (· == mark) cs := by
  obtain ⟨before, behind, rfl⟩ := hinside
  have htext : before ++ mark :: (word ++ [mark]) ++ behind =
      before ++ mark :: (word ++ mark :: behind) := by simp
  rw [htext, pieces_append_mark, pieces_append h]
  exact List.mem_append_right _ List.mem_cons_self

/-! ## Occurrences of words -/

theorem infix_append_mark {mark : Char} {word : List Char} (h : mark ∉ word) (hne : word ≠ [])
    (a b : List Char) : word <:+: a ++ mark :: b ↔ word <:+: a ∨ word <:+: b := by
  induction a with
  | nil =>
    have hstart : ¬word <+: mark :: b := fun hstart =>
      hne (List.prefix_nil.1 ((isPrefix_append_mark h [] b).1 hstart))
    rw [List.nil_append, List.infix_cons_iff, List.infix_nil]
    exact or_congr_left ⟨fun h => absurd h hstart, fun h => absurd h hne⟩
  | cons c a ih =>
    rw [List.cons_append, List.infix_cons_iff, ← List.cons_append, isPrefix_append_mark h, ih,
      List.infix_cons_iff, or_assoc]

/-- A word without the mark occurs in a joined text if it occurs in one of the pieces. -/
theorem infix_joinWith_iff {mark : Char} {word : List Char} (h : mark ∉ word) (hne : word ≠ [])
    (words : List (List Char)) :
    word <:+: joinWith [mark] words ↔ ∃ piece ∈ words, word <:+: piece := by
  induction words with
  | nil => simp [joinWith, hne]
  | cons first more ih =>
    cases more with
    | nil => simp [joinWith]
    | cons next more =>
      rw [joinWith_cons_cons, infix_append_mark h hne, ih]
      simp only [List.exists_mem_cons_iff]

/-- A word that starts with a character is not found inside of a text without it. -/
theorem infix_append_of_not_mem {c : Char} {word a : List Char} (h : c ∉ a) (b : List Char) :
    c :: word <:+: a ++ b ↔ c :: word <:+: b := by
  induction a with
  | nil => rfl
  | cons d a ih =>
    rw [List.mem_cons, not_or] at h
    rw [List.cons_append, List.infix_cons_iff, List.cons_prefix_cons, ih h.2]
    exact or_iff_right fun hstart => h.1 hstart.1

theorem infix_append_at_start {c : Char} {word a : List Char} (h : c ∉ a) (b : List Char) :
    c :: word <:+: c :: a ++ b ↔ c :: word <+: c :: a ++ b ∨ c :: word <:+: b := by
  rw [List.cons_append, List.infix_cons_iff, infix_append_of_not_mem h]

/-! ## Steps of a replacement -/

variable {word new : List Char}

theorem replaceFrom_skip (skip : Nat) (cs : List Char) :
    replaceFrom word new skip cs = replaceWord word new (cs.drop skip) := by
  induction cs generalizing skip with
  | nil =>
    rw [List.drop_nil]
    cases skip <;> rfl
  | cons c rest ih =>
    cases skip with
    | zero => rfl
    | succ skip => rw [replaceFrom, ih, List.drop_succ_cons]

@[simp] theorem replaceWord_nil : replaceWord word new [] = [] := rfl

theorem replaceWord_word (hne : word ≠ []) (rest : List Char) :
    replaceWord word new (word ++ rest) = new ++ replaceWord word new rest := by
  obtain ⟨c, more, rfl⟩ := List.exists_cons_of_ne_nil hne
  have hstart : (c :: more).isPrefixOf (c :: (more ++ rest)) = true :=
    List.isPrefixOf_iff_prefix.2 ⟨rest, rfl⟩
  rw [List.cons_append, replaceWord, replaceFrom, if_pos hstart, replaceFrom_skip]
  simp

theorem replaceWord_cons {c : Char} {rest : List Char} (h : ¬word <+: c :: rest) :
    replaceWord word new (c :: rest) = c :: replaceWord word new rest := by
  rw [replaceWord, replaceFrom, if_neg (by rwa [List.isPrefixOf_iff_prefix]), replaceWord]

/-- Recursion over a text in which a word is replaced: the end, the word, any other character. -/
theorem replace_induction (hne : word ≠ []) {motive : List Char → Prop} (nil : motive [])
    (found : ∀ rest, motive rest → motive (word ++ rest))
    (other : ∀ c rest, ¬word <+: c :: rest →
      (∀ shorter : List Char, shorter.length ≤ rest.length → motive shorter) →
        motive (c :: rest)) (cs : List Char) : motive cs := by
  induction hlength : cs.length using Nat.strongRecOn generalizing cs with
  | ind length ih =>
    cases cs with
    | nil => exact nil
    | cons c rest =>
      rw [List.length_cons] at hlength
      by_cases hstart : word <+: c :: rest
      · obtain ⟨behind, hbehind⟩ := hstart
        have hword := List.length_pos_iff.2 hne
        have hsum := congrArg List.length hbehind
        rw [List.length_append, List.length_cons] at hsum
        exact hbehind ▸ found behind (ih behind.length (by omega) behind rfl)
      · exact other c rest hstart fun shorter hshort =>
          ih shorter.length (by omega) shorter rfl

theorem replaceWord_mark (hne : word ≠ []) {mark : Char} (h : mark ∉ word) (rest : List Char) :
    replaceWord word new (mark :: rest) = mark :: replaceWord word new rest :=
  replaceWord_cons fun hstart =>
    hne (List.prefix_nil.1 ((isPrefix_append_mark h [] rest).1 hstart))

/-! ## Texts without the word -/

theorem length_replaceWord_le (hne : word ≠ []) (hlength : new.length ≤ word.length)
    (cs : List Char) : (replaceWord word new cs).length ≤ cs.length := by
  induction cs using replace_induction hne with
  | nil => exact le_rfl
  | found rest ih =>
    rw [replaceWord_word hne, List.length_append, List.length_append]
    omega
  | other c rest hstart ih =>
    rw [replaceWord_cons hstart]
    exact Nat.succ_le_succ (ih rest le_rfl)

theorem replaceWord_eq_self_iff (hne : word ≠ []) (hlength : new.length < word.length)
    {cs : List Char} : replaceWord word new cs = cs ↔ ¬word <:+: cs := by
  induction cs using replace_induction hne with
  | nil => simp [hne]
  | found rest ih =>
    refine iff_of_false (fun heq => ?_) (not_not.2 (List.prefix_append word rest).isInfix)
    have hle := length_replaceWord_le hne hlength.le rest
    have hsum := congrArg List.length heq
    rw [replaceWord_word hne, List.length_append, List.length_append] at hsum
    omega
  | other c rest hstart ih =>
    rw [replaceWord_cons hstart, List.cons_inj_right, ih rest le_rfl, List.infix_cons_iff,
      or_iff_right hstart]

/-- Where a text changes, it has what was put in. -/
theorem infix_replaceWord (hne : word ≠ []) {cs : List Char} (h : replaceWord word new cs ≠ cs) :
    new <:+: replaceWord word new cs := by
  induction cs using replace_induction hne with
  | nil => exact absurd rfl h
  | found rest ih =>
    rw [replaceWord_word hne]
    exact (List.prefix_append _ _).isInfix
  | other c rest hstart ih =>
    rw [replaceWord_cons hstart] at h ⊢
    have hrest : replaceWord word new rest ≠ rest := fun heq => h (by rw [heq])
    exact (ih rest le_rfl hrest).trans (List.suffix_cons c _).isInfix

theorem replaceWord_eq_nil_iff (hne : word ≠ []) (hnew : new ≠ []) {cs : List Char} :
    replaceWord word new cs = [] ↔ cs = [] := by
  induction cs using replace_induction hne with
  | nil => exact Iff.rfl
  | found rest ih => simp [replaceWord_word hne, hnew, hne]
  | other c rest hstart ih => simp [replaceWord_cons hstart]

/-! ## Shortened words -/

section Shortened

variable {c : Char} {name ending : List Char}

/-- A text without the first letter of the word stands in front if it did before. -/
theorem prefix_shortened_iff {front cs : List Char} (h : c ∉ front) :
    front <+: replaceWord (c :: (name ++ ending)) (c :: name) cs ↔ front <+: cs := by
  have hne : c :: (name ++ ending) ≠ [] := List.cons_ne_nil _ _
  induction cs using replace_induction hne generalizing front with
  | nil => rfl
  | found rest ih =>
    cases front with
    | nil => exact iff_of_true List.nil_prefix List.nil_prefix
    | cons d front =>
      have hd : d ≠ c := fun hd => h (hd ▸ List.mem_cons_self)
      rw [replaceWord_word hne]
      exact iff_of_false (fun hstart => hd (List.cons_prefix_cons.1 hstart).1)
        fun hstart => hd (List.cons_prefix_cons.1 hstart).1
  | other d rest hstart ih =>
    rw [replaceWord_cons hstart]
    cases front with
    | nil => exact iff_of_true List.nil_prefix List.nil_prefix
    | cons e front =>
      have hrest : front <+: replaceWord _ _ rest ↔ front <+: rest :=
        ih rest le_rfl (List.not_mem_of_not_mem_cons h)
      rw [List.cons_prefix_cons, List.cons_prefix_cons, hrest]

/-- If a word loses its ending, it is still there where the ending was written twice. The first
letter of the word stands nowhere else in it. -/
theorem infix_shortened_iff {cs : List Char} (hname : c ∉ name) (hending : c ∉ ending) :
    c :: (name ++ ending) <:+: replaceWord (c :: (name ++ ending)) (c :: name) cs ↔
      c :: (name ++ ending ++ ending) <:+: cs := by
  have hne : c :: (name ++ ending) ≠ [] := List.cons_ne_nil _ _
  have hword : c ∉ name ++ ending := by
    rw [List.mem_append, not_or]
    exact ⟨hname, hending⟩
  induction cs using replace_induction hne with
  | nil =>
    exact iff_of_false (fun h => hne (List.infix_nil.1 h))
      fun h => List.cons_ne_nil _ _ (List.infix_nil.1 h)
  | found rest ih =>
    have hrest : c :: (name ++ ending) <:+: replaceWord _ _ rest ↔ _ := ih
    rw [replaceWord_word hne, infix_append_at_start hname, infix_append_at_start hword, hrest]
    refine or_congr_left ?_
    rw [← List.cons_append, ← List.cons_append, ← List.cons_append, List.prefix_append_right_inj,
      List.prefix_append_right_inj, List.cons_append]
    exact prefix_shortened_iff hending
  | other d rest hstart ih =>
    have hrest : c :: (name ++ ending) <:+: replaceWord _ _ rest ↔ _ := ih rest le_rfl
    rw [replaceWord_cons hstart, List.infix_cons_iff, List.infix_cons_iff, hrest]
    refine or_congr_left (iff_of_false (fun h => hstart ?_) fun h => hstart ?_)
    · rw [List.cons_prefix_cons, prefix_shortened_iff hword] at h
      exact List.cons_prefix_cons.2 h
    · exact (List.prefix_append (c :: (name ++ ending)) ending).trans h

end Shortened

/-! ## Pieces and quoted parts -/

theorem pieces_replaceWord (hne : word ≠ []) {mark : Char} (hword : mark ∉ word)
    (hnew : mark ∉ new) (cs : List Char) :
    pieces (· == mark) (replaceWord word new cs) =
      (pieces (· == mark) cs).map (replaceWord word new) := by
  induction cs using replace_induction hne with
  | nil => rfl
  | found rest ih =>
    obtain ⟨first, more, hpieces⟩ :=
      List.exists_cons_of_ne_nil (pieces_ne_nil (· == mark) rest)
    rw [hpieces, List.map_cons] at ih
    rw [replaceWord_word hne, pieces_word hnew ih, pieces_word hword hpieces, List.map_cons,
      replaceWord_word hne]
  | other c rest hstart ih =>
    have hrest := ih rest le_rfl
    rw [replaceWord_cons hstart, pieces, pieces, hrest]
    split
    · rfl
    · cases hpieces : pieces (· == mark) rest with
      | nil => exact absurd hpieces (pieces_ne_nil _ _)
      | cons first more =>
        have hpiece : ¬word <+: c :: first := fun hpiece =>
          hstart (hpiece.trans ((List.prefix_cons_inj c).2 (prefix_of_pieces hpieces)))
        simp only [List.map_cons]
        rw [replaceWord_cons hpiece]

theorem head?_replaceWord (hne : word ≠ []) (hnew : new ≠ []) {mark : Char} (h : mark ∉ new)
    {cs : List Char} (hhead : cs.head? ≠ some mark) :
    (replaceWord word new cs).head? ≠ some mark := by
  induction cs using replace_induction hne with
  | nil => exact hhead
  | found rest ih =>
    rw [replaceWord_word hne, List.head?_append_of_ne_nil _ hnew]
    exact fun hfirst => h (List.mem_of_head? hfirst)
  | other c rest hstart ih =>
    rw [replaceWord_cons hstart]
    exact hhead

/-- Replacing inside of quotes goes up to the end of the part, and on behind it. -/
theorem closeQuote?_replaceWord (hne : word ≠ []) (hnonempty : new ≠ []) (hword : '\'' ∉ word)
    (hnew : '\'' ∉ new) (cs : List Char) :
    closeQuote? (replaceWord word new cs) = (closeQuote? cs).map fun (part, behind) =>
      (replaceWord word new part, replaceWord word new behind) := by
  induction cs using replace_induction hne with
  | nil => rfl
  | found rest ih =>
    rw [replaceWord_word hne, closeQuote?_word hnew, closeQuote?_word hword, ih, Option.map_map,
      Option.map_map]
    refine Option.map_congr fun found _ => ?_
    simp only [Function.comp_apply, replaceWord_word hne]
  | other c rest hstart ih =>
    have hquote := @replaceWord_mark word new hne '\'' hword
    by_cases hc : c = '\''
    · subst hc
      rw [hquote]
      by_cases hdouble : rest.head? = some '\''
      · obtain ⟨more, rfl⟩ := List.head?_eq_some_iff.1 hdouble
        rw [hquote, closeQuote?_doubled, closeQuote?_doubled, ih more (Nat.le_succ _),
          Option.map_map, Option.map_map]
        refine Option.map_congr fun found _ => ?_
        simp only [Function.comp_apply, hquote]
      · rw [closeQuote?_end hdouble,
          closeQuote?_end (head?_replaceWord hne hnonempty hnew hdouble)]
        rfl
    · rw [replaceWord_cons hstart, closeQuote?_cons hc, closeQuote?_cons hc, ih rest le_rfl,
        Option.map_map, Option.map_map]
      refine Option.map_congr fun found hfound => ?_
      obtain ⟨part, behind⟩ := found
      have hpart : part <+: rest := by
        rw [(eq_of_closeQuote? hfound).1]
        exact List.prefix_append _ _
      have hstay : ¬word <+: c :: part := fun hpiece =>
        hstart (hpiece.trans ((List.prefix_cons_inj c).2 hpart))
      simp only [Function.comp_apply, replaceWord_cons hstay]

/-- Replacing goes part by part if neither word has a quote. -/
theorem quotedParts_replaceWord (hne : word ≠ []) (hnonempty : new ≠ []) (hword : '\'' ∉ word)
    (hnew : '\'' ∉ new) (cs : List Char) :
    quotedParts (replaceWord word new cs) = (quotedParts cs).map (replaceWord word new) := by
  induction cs using replace_induction hne with
  | nil => simp
  | found rest ih => rw [replaceWord_word hne, quotedParts_word hnew, quotedParts_word hword, ih]
  | other c rest hstart ih =>
    rw [replaceWord_cons hstart]
    by_cases hc : c = '\''
    · subst hc
      rw [quotedParts_quote, quotedParts_quote,
        closeQuote?_replaceWord hne hnonempty hword hnew]
      cases hclose : closeQuote? rest with
      | none => rfl
      | some found =>
        obtain ⟨part, behind⟩ := found
        simp only [Option.map_some, Option.getD_some, List.map_cons]
        rw [ih behind (length_closeQuote? hclose).le]
    · rw [quotedParts_cons hc, quotedParts_cons hc, ih rest le_rfl]

end SchemaPlan.Text
