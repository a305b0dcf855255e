import SchemaPlan.Proofs.BaseType

/-!
# Quoted parts of texts

A quoted part goes from one single quote to the next one that is not doubled. Normalizing a type
text writes the quoted parts as they are: the walk is inside of quotes just where a part is, because
a doubled quote takes it out and in again without a character between.

* `closeQuote?`, `quotedParts`: where a part ends, and the contents of all parts that end.
* `infix_of_mem_quotedParts`: a part is a piece of the text.
* `quotedParts_trim`: blanks at the ends of a text belong to no part that ends.
* `quotedParts_normalizeChars`: a normal form has the parts of its text.
-/
namespace SchemaPlan.Text

/-! ## Where a part ends -/

/-- The content of a quoted part up to the quote that closes it, and the text behind that quote. A
doubled quote does not close it. -/
def closeQuote? : List Char → Option (List Char × List Char)
  | [] => none
  | '\'' :: '\'' :: rest =>
    (closeQuote? rest).map fun (part, behind) => ('\'' :: '\'' :: part, behind)
  | c :: rest =>
    if c = '\'' then some ([], rest)
    else (closeQuote? rest).map fun (part, behind) => (c :: part, behind)

theorem closeQuote?_doubled (rest : List Char) :
    closeQuote? ('\'' :: '\'' :: rest) =
      (closeQuote? rest).map fun (part, behind) => ('\'' :: '\'' :: part, behind) := by
  rw [closeQuote?]

theorem closeQuote?_end {rest : List Char} (h : rest.head? ≠ some '\'') :
    closeQuote? ('\'' :: rest) = some ([], rest) := by
  cases rest with
  | nil => rfl
  | cons c rest =>
    rw [closeQuote?, if_pos rfl]
    intro more _ htext
    obtain ⟨rfl, -⟩ := List.cons.inj htext
    exact h rfl

theorem closeQuote?_cons {c : Char} (h : c ≠ '\'') (rest : List Char) :
    closeQuote? (c :: rest) = (closeQuote? rest).map fun (part, behind) => (c :: part, behind) := by
  rw [closeQuote?, if_neg h]
  intro more hc _
  exact h hc

/-- Recursion over a text inside of quotes: the end, a doubled quote, a closing one, any other
character. -/
theorem quoted_induction {motive : List Char → Prop} (nil : motive [])
    (doubled : ∀ rest, motive rest → motive ('\'' :: '\'' :: rest))
    (closing : ∀ rest, rest.head? ≠ some '\'' → motive ('\'' :: rest))
    (other : ∀ c rest, c ≠ '\'' → motive rest → motive (c :: rest)) (cs : List Char) :
    motive cs := by
  fun_induction closeQuote? cs with
  | case1 => exact nil
  | case2 rest ih => exact doubled rest ih
  | case3 rest hsingle =>
    refine closing rest fun hhead => ?_
    obtain ⟨more, rfl⟩ := List.head?_eq_some_iff.1 hhead
    exact hsingle more rfl rfl
  | case4 c rest _ hc ih => exact other c rest hc ih

/-- The text of a closed part is its content, a quote, and what does not start with another one. -/
theorem eq_of_closeQuote? {cs part behind : List Char}
    (h : closeQuote? cs = some (part, behind)) :
    cs = part ++ '\'' :: behind ∧ behind.head? ≠ some '\'' := by
  induction cs using quoted_induction generalizing part with
  | nil => cases h
  | doubled rest ih =>
    rw [closeQuote?_doubled] at h
    obtain ⟨⟨_, _⟩, hclose, h⟩ := Option.map_eq_some_iff.1 h
    cases h
    obtain ⟨htext, hhead⟩ := ih hclose
    exact ⟨by rw [htext]; rfl, hhead⟩
  | closing rest hrest =>
    rw [closeQuote?_end hrest] at h
    cases h
    exact ⟨rfl, hrest⟩
  | other c rest hc ih =>
    rw [closeQuote?_cons hc] at h
    obtain ⟨⟨_, _⟩, hclose, h⟩ := Option.map_eq_some_iff.1 h
    cases h
    obtain ⟨htext, hhead⟩ := ih hclose
    exact ⟨by rw [htext]; rfl, hhead⟩

theorem length_closeQuote? {cs part behind : List Char}
    (h : closeQuote? cs = some (part, behind)) : behind.length < cs.length := by
  rw [(eq_of_closeQuote? h).1, List.length_append, List.length_cons]
  omega

theorem closeQuote?_word {word : List Char} (h : '\'' ∉ word) (rest : List Char) :
    closeQuote? (word ++ rest) =
      (closeQuote? rest).map fun (part, behind) => (word ++ part, behind) := by
  induction word with
  | nil => simp
  | cons c word ih =>
    rw [List.mem_cons, not_or] at h
    rw [List.cons_append, closeQuote?_cons (Ne.symm h.1), ih h.2, Option.map_map]
    rfl

theorem closeQuote?_of_not_mem {cs : List Char} (h : '\'' ∉ cs) : closeQuote? cs = none := by
  rw [← List.append_nil cs, closeQuote?_word h]
  rfl

/-- Behind a text inside of quotes, a part is closed in the text already or it is not, whatever
follows that does not start with a quote. -/
theorem closeQuote?_append (cs : List Char) :
    (∃ part behind, behind.length < cs.length ∧ ∀ tail : List Char, tail.head? ≠ some '\'' →
      closeQuote? (cs ++ tail) = some (part, behind ++ tail)) ∨
    ∀ tail : List Char, tail.head? ≠ some '\'' →
      closeQuote? (cs ++ tail) =
        (closeQuote? tail).map fun (part, behind) => (cs ++ part, behind) := by
  induction cs using quoted_induction with
  | nil => exact .inr fun tail _ => by simp
  | doubled rest ih =>
    rcases ih with ⟨part, behind, hlength, hclose⟩ | hopen
    · refine .inl ⟨'\'' :: '\'' :: part, behind, ?_, fun tail htail => ?_⟩
      · simp only [List.length_cons]
        omega
      · rw [List.cons_append, List.cons_append, closeQuote?_doubled, hclose tail htail]
        rfl
    · refine .inr fun tail htail => ?_
      rw [List.cons_append, List.cons_append, closeQuote?_doubled, hopen tail htail,
        Option.map_map]
      rfl
  | closing rest hrest =>
    refine .inl ⟨[], rest, Nat.lt_succ_self _, fun tail htail => ?_⟩
    refine closeQuote?_end fun hhead => ?_
    cases rest with
    | nil => exact htail hhead
    | cons c rest => exact hrest hhead
  | other c rest hc ih =>
    rcases ih with ⟨part, behind, hlength, hclose⟩ | hopen
    · refine .inl ⟨c :: part, behind, ?_, fun tail htail => ?_⟩
      · rw [List.length_cons]
        omega
      · rw [List.cons_append, closeQuote?_cons hc, hclose tail htail]
        rfl
    · refine .inr fun tail htail => ?_
      rw [List.cons_append, closeQuote?_cons hc, hopen tail htail, Option.map_map]
      rfl

/-! ## The parts of a text -/

/-- The contents of the quoted parts of a text that are closed, in order. -/
def quotedParts : List Char → List (List Char)
  | [] => []
  | c :: rest =>
    if c = '\'' then
      match _hclose : closeQuote? rest with
      | none => []
      | some (part, behind) => part :: quotedParts behind
    else quotedParts rest
termination_by cs => cs.length
decreasing_by
  · have := length_closeQuote? _hclose
    simp only [List.length_cons]
    omega
  · simp

@[simp] theorem quotedParts_nil : quotedParts [] = [] := by
  rw [quotedParts]

theorem quotedParts_cons {c : Char} (h : c ≠ '\'') (rest : List Char) :
    quotedParts (c :: rest) = quotedParts rest := by
  rw [quotedParts, if_neg h]

theorem quotedParts_quote (rest : List Char) :
    quotedParts ('\'' :: rest) =
      ((closeQuote? rest).map fun (part, behind) => part :: quotedParts behind).getD [] := by
  rw [quotedParts, if_pos rfl]
  split
  · rename_i hclose
    rw [hclose]
    rfl
  · rename_i hclose
    rw [hclose]
    rfl

/-- Recursion over a text outside of quotes: the end, a part that is closed, a quote that opens a
part without an end, any other character. -/
theorem parts_induction {motive : List Char → Prop} (nil : motive [])
    (closed : ∀ rest part behind, closeQuote? rest = some (part, behind) → motive behind →
      motive ('\'' :: rest))
    (unclosed : ∀ rest, closeQuote? rest = none → motive ('\'' :: rest))
    (other : ∀ c rest, c ≠ '\'' → motive rest → motive (c :: rest)) (cs : List Char) :
    motive cs := by
  fun_induction quotedParts cs with
  | case1 => exact nil
  | case2 rest hclose => exact unclosed rest hclose
  | case3 rest part behind hclose ih => exact closed rest part behind hclose ih
  | case4 c rest hc ih => exact other c rest hc ih

theorem quotedParts_word {word : List Char} (h : '\'' ∉ word) (rest : List Char) :
    quotedParts (word ++ rest) = quotedParts rest := by
  induction word with
  | nil => rfl
  | cons c word ih =>
    rw [List.mem_cons, not_or] at h
    rw [List.cons_append, quotedParts_cons (Ne.symm h.1), ih h.2]

theorem infix_of_mem_quotedParts {cs part : List Char} (h : part ∈ quotedParts cs) :
    part <:+: cs := by
  induction cs using parts_induction with
  | nil => simp at h
  | closed rest first behind hclose ih =>
    obtain ⟨htext, -⟩ := eq_of_closeQuote? hclose
    rw [quotedParts_quote, hclose] at h
    rcases List.mem_cons.1 h with rfl | h
    · exact ⟨['\''], '\'' :: behind, by rw [htext]; simp⟩
    · obtain ⟨before, after, hbehind⟩ := ih h
      exact ⟨'\'' :: (first ++ '\'' :: before), after, by rw [htext, ← hbehind]; simp⟩
  | unclosed rest hclose =>
    rw [quotedParts_quote, hclose] at h
    simp at h
  | other c rest hc ih =>
    rw [quotedParts_cons hc] at h
    exact (ih h).trans (List.suffix_cons c rest).isInfix

/-! ## Blanks at the ends -/

theorem quotedParts_append_blanks {blanks : List Char} (h : ∀ c ∈ blanks, isBlank c = true)
    (cs : List Char) : quotedParts (cs ++ blanks) = quotedParts cs := by
  have hquote : '\'' ∉ blanks := not_mem_blanks rfl h
  have hhead : blanks.head? ≠ some '\'' := fun hhead => hquote (List.mem_of_head? hhead)
  induction hlength : cs.length using Nat.strongRecOn generalizing cs with
  | ind length ih =>
    cases cs with
    | nil => rw [List.nil_append, ← List.append_nil blanks, quotedParts_word hquote]
    | cons c rest =>
      rw [List.length_cons] at hlength
      by_cases hc : c = '\''
      · subst hc
        rw [List.cons_append, quotedParts_quote, quotedParts_quote]
        rcases closeQuote?_append rest with ⟨part, behind, hshort, hclose⟩ | hopen
        · have hself := hclose [] (by simp)
          rw [List.append_nil, List.append_nil] at hself
          rw [hclose blanks hhead, hself]
          simp only [Option.map_some, Option.getD_some]
          rw [ih behind.length (by omega) behind rfl]
        · have hself := hopen [] (by simp)
          rw [List.append_nil] at hself
          rw [hopen blanks hhead, hself, closeQuote?_of_not_mem hquote]
          rfl
      · rw [List.cons_append, quotedParts_cons hc, quotedParts_cons hc,
          ih rest.length (by omega) rest rfl]

theorem quotedParts_trim (cs : List Char) : quotedParts (trim cs) = quotedParts cs := by
  obtain ⟨before, behind, hbefore, hbehind, htext⟩ := exists_blanks_of_trim cs
  conv_rhs => rw [htext, quotedParts_append_blanks hbehind,
    quotedParts_word (not_mem_blanks rfl hbefore)]

end SchemaPlan.Text

namespace SchemaPlan.Ddl

open Text

/-! ## The parts of a normal form -/

/-- Behind a closing quote the walk writes a quote only where one follows. -/
theorem head?_normalizeFrom_quote {cs : List Char} (h : cs.head? ≠ some '\'') :
    (normalizeFrom (some '\'') false false cs).head? ≠ some '\'' := by
  intro hhead
  cases cs with
  | nil => cases hhead
  | cons c rest =>
    by_cases hc : isBlank c = true
    · rw [normalizeFrom_blank _ _ hc] at hhead
      exact absurd (head?_normalizeFrom_gap (by decide) hhead) (by decide)
    · obtain ⟨d, word, hupper⟩ := List.exists_cons_of_ne_nil (upper_ne_nil c)
      rw [normalizeFrom_word _ _ (by simpa using hc), hupper] at hhead
      obtain rfl := Option.some.inj hhead
      exact h (congrArg some (eq_of_mem_upper (.inl (by decide)) (hupper ▸ List.mem_cons_self)))

/-- Inside of quotes the walk copies the part up to its end, and goes on behind it. -/
theorem closeQuote?_normalizeFrom (last : Option Char) (gap : Bool) (cs : List Char) :
    closeQuote? (normalizeFrom last gap true cs) =
      (closeQuote? cs).map fun (part, behind) =>
        (part, normalizeFrom (some '\'') false false behind) := by
  induction cs using quoted_induction generalizing last gap with
  | nil => rfl
  | doubled rest ih =>
    have hwalk : normalizeFrom last gap true ('\'' :: '\'' :: rest) =
        '\'' :: '\'' :: normalizeFrom (some '\'') false true rest := by
      rw [normalizeFrom_quoted, bne_self_eq_false, normalizeFrom_word _ _ rfl]
      rfl
    rw [hwalk, closeQuote?_doubled, closeQuote?_doubled, ih, Option.map_map, Option.map_map]
    rfl
  | closing rest hrest =>
    rw [normalizeFrom_quoted, closeQuote?_end hrest]
    exact closeQuote?_end (head?_normalizeFrom_quote hrest)
  | other c rest hc ih =>
    rw [normalizeFrom_quoted, closeQuote?_cons hc, closeQuote?_cons hc, bne_iff_ne.2 hc, ih,
      Option.map_map, Option.map_map]
    rfl

theorem quote_not_mem_spaceBefore (last : Option Char) (gap : Bool) (next : Char) :
    '\'' ∉ spaceBefore last gap next := by
  unfold spaceBefore
  split <;> simp

/-- The walk keeps the quoted parts. -/
theorem quotedParts_normalizeFrom (last : Option Char) (gap : Bool) (cs : List Char) :
    quotedParts (normalizeFrom last gap false cs) = quotedParts cs := by
  -- What is written for a quote that opens a part.
  have hopening : ∀ (last : Option Char) (gap : Bool) (rest : List Char),
      quotedParts (normalizeFrom last gap false ('\'' :: rest)) =
        quotedParts ('\'' :: normalizeFrom (some '\'') false true rest) := by
    intro last gap rest
    rw [normalizeFrom_word _ _ rfl, List.append_assoc,
      quotedParts_word (quote_not_mem_spaceBefore last gap '\'')]
    rfl
  induction cs using parts_induction generalizing last gap with
  | nil => rfl
  | closed rest part behind hclose ih =>
    rw [hopening, quotedParts_quote, quotedParts_quote, closeQuote?_normalizeFrom, hclose]
    simp only [Option.map_some, Option.getD_some]
    rw [ih]
  | unclosed rest hclose =>
    rw [hopening, quotedParts_quote, quotedParts_quote, closeQuote?_normalizeFrom, hclose]
    rfl
  | other c rest hc ih =>
    rw [quotedParts_cons hc]
    by_cases hblank : isBlank c = true
    · rw [normalizeFrom_blank _ _ hblank, ih]
    · have hword : '\'' ∉ spaceBefore last gap c ++ upper c := by
        rw [List.mem_append, not_or]
        exact ⟨quote_not_mem_spaceBefore last gap c, fun hmem =>
          hc (eq_of_mem_upper (.inl (by decide)) hmem)⟩
      rw [normalizeFrom_word _ _ (by simpa using hblank), beq_false_of_ne hc,
        quotedParts_word hword, ih]

/-- A normal form has the quoted parts of its text. -/
theorem quotedParts_normalizeChars (cs : List Char) :
    quotedParts (normalizeChars cs) = quotedParts cs := by
  rw [normalizeChars, quotedParts_normalizeFrom, quotedParts_trim]

example : quotedParts "enum('a', 'it''s') x 'open".toList = ["a".toList, "it''s".toList] := by
  decide +kernel

end SchemaPlan.Ddl
