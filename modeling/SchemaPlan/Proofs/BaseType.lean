import SchemaPlan.Proofs.ColumnType

/-!
# Base types of texts with two argument lists

The base of a type leaves out its first argument list only. A list that is written behind a type
that has none is left out again, but behind a type that has one it becomes a part of the base.

* `normalizeFrom_bracket`: without quotes, the walk meets a bracket as if it started there.
* `argumentList?_eq_none_iff`: a normal form that is its own base has no argument list.
* `baseTypeChars_withArguments`: the base of a type with one more argument list.
-/
namespace SchemaPlan.Ddl

open Text

/-! ## Texts without quotes -/

theorem mem_normalizeFrom {mark : Char} (hmark : Final mark) {cs : List Char} (h : mark ∈ cs)
    (last : Option Char) (gap quoted : Bool) : mark ∈ normalizeFrom last gap quoted cs := by
  induction cs generalizing last gap quoted with
  | nil => cases h
  | cons c rest ih =>
    cases quoted with
    | true =>
      rw [normalizeFrom_quoted]
      rcases List.mem_cons.1 h with rfl | h
      · exact List.mem_cons_self
      · exact List.mem_cons_of_mem _ (ih h _ _ _)
    | false =>
      by_cases hc : isBlank c = true
      · rw [normalizeFrom_blank _ _ hc]
        rcases List.mem_cons.1 h with rfl | h
        · rw [hmark.not_blank] at hc
          cases hc
        · exact ih h _ _ _
      · rw [normalizeFrom_word _ _ (by simpa using hc)]
        rcases List.mem_cons.1 h with rfl | h
        · rw [hmark.upper_eq]
          exact List.mem_append_left _ (List.mem_append_right _ (List.mem_singleton_self _))
        · exact List.mem_append_right _ (ih h _ _ _)

theorem not_mem_of_normalizeChars {mark : Char} (hmark : Final mark) {cs : List Char}
    (h : mark ∉ normalizeChars cs) : mark ∉ cs := fun hmem =>
  h (mem_normalizeFrom hmark (mem_trim hmem hmark.not_blank) _ _ _)

theorem quote_not_mem {cs : List Char} : '\'' ∉ normalizeChars cs → '\'' ∉ cs :=
  not_mem_of_normalizeChars ⟨by decide, rfl⟩

theorem normalizeFrom_trimLeft (gap : Bool) (cs : List Char) :
    normalizeFrom none gap false cs = normalizeFrom none false false (trimLeft cs) := by
  induction cs generalizing gap with
  | nil => rfl
  | cons c rest ih =>
    by_cases hc : isBlank c = true
    · rw [normalizeFrom_blank _ _ hc, trimLeft, List.dropWhile_cons_of_pos hc, ih, trimLeft]
    · have hspace : spaceBefore none gap c = spaceBefore none false c := by
        simp [spaceBefore, keepsGap]
      rw [trimLeft, List.dropWhile_cons_of_neg hc, normalizeFrom_word _ _ (by simpa using hc),
        normalizeFrom_word _ _ (by simpa using hc), hspace]

/-- Outside of quotes the walk goes through one text after the other, from the character written
last. -/
theorem normalizeFrom_append {cs : List Char} (h : '\'' ∉ cs) (last : Option Char) (gap : Bool)
    (tail : List Char) : ∃ last' gap',
      normalizeFrom last gap false (cs ++ tail) =
        normalizeFrom last gap false cs ++ normalizeFrom last' gap' false tail := by
  induction cs generalizing last gap with
  | nil => exact ⟨last, gap, rfl⟩
  | cons c rest ih =>
    rw [List.mem_cons, not_or] at h
    rw [List.cons_append]
    by_cases hc : isBlank c = true
    · rw [normalizeFrom_blank _ _ hc, normalizeFrom_blank _ _ hc]
      exact ih h.2 _ _
    · have hc : isBlank c = false := by simpa using hc
      rw [normalizeFrom_word _ _ hc, normalizeFrom_word _ _ hc, beq_false_of_ne (Ne.symm h.1)]
      obtain ⟨last', gap', hrest⟩ := ih h.2 ((upper c).getLast?.or last) false
      exact ⟨last', gap', by rw [hrest, List.append_assoc, List.append_assoc, List.append_assoc]⟩

/-- Behind a blank, the walk writes a blank, or a mark that needs none in front of it. -/
theorem head?_normalizeFrom_gap {last : Char} (hlast : last ∉ ['(', ',', '<']) {cs : List Char}
    {d : Char} (h : (normalizeFrom (some last) true false cs).head? = some d) :
    d ∈ [' ', '(', ')', ',', '<', '>'] := by
  induction cs with
  | nil => cases h
  | cons c rest ih =>
    by_cases hc : isBlank c = true
    · rw [normalizeFrom_blank _ _ hc] at h
      exact ih h
    · rw [normalizeFrom_word _ _ (by simpa using hc)] at h
      by_cases hkeeps : keepsGap (some last) c = true
      · rw [spaceBefore, hkeeps] at h
        obtain rfl := Option.some.inj h
        exact List.mem_cons_self
      · have hmark : c ∈ ['(', ')', ',', '<', '>'] := by
          simp only [List.mem_cons, List.not_mem_nil, or_false, not_or] at hlast
          by_contra hmark
          simp only [List.mem_cons, List.not_mem_nil, or_false, not_or] at hmark
          exact hkeeps (by simp [keepsGap, hlast, hmark])
        have hplain : ∀ mark ∈ ['(', ')', ',', '<', '>'], Plain mark := by decide
        rw [spaceBefore, if_neg (by simp [hkeeps]), (hplain c hmark).upper_eq] at h
        obtain rfl := Option.some.inj h
        exact List.mem_cons_of_mem _ hmark

theorem normalizeFrom_blanks {blanks : List Char} (h : ∀ c ∈ blanks, isBlank c = true)
    (last : Option Char) (gap : Bool) : normalizeFrom last gap false blanks = [] := by
  induction blanks generalizing gap with
  | nil => rfl
  | cons c rest ih =>
    rw [normalizeFrom_blank _ _ (h c List.mem_cons_self), ih fun d hd => h d (.tail c hd)]

theorem normalizeChars_eq {cs : List Char} (h : '\'' ∉ cs) :
    normalizeChars cs = normalizeFrom none false false cs := by
  obtain ⟨blanks, hblanks, htext⟩ := exists_blanks_of_trimRight (trimLeft cs)
  have hquote : '\'' ∉ trimRight (trimLeft cs) := by
    intro hmem
    have hleft : '\'' ∈ trimLeft cs := by
      rw [htext]
      exact List.mem_append_left _ hmem
    exact h (List.dropWhile_subset _ hleft)
  obtain ⟨last, gap, happend⟩ := normalizeFrom_append hquote none false blanks
  rw [normalizeFrom_trimLeft false cs, htext, happend, normalizeFrom_blanks hblanks,
    List.append_nil, normalizeChars, trim]

/-- Without quotes the walk meets an opening bracket as if it started there. -/
theorem normalizeFrom_bracket {cs : List Char} (h : '\'' ∉ cs) (last : Option Char) (gap : Bool)
    (tail : List Char) :
    normalizeFrom last gap false (cs ++ '(' :: tail) =
      normalizeFrom last gap false cs ++ '(' :: normalizeFrom (some '(') false false tail := by
  obtain ⟨last', gap', happend⟩ := normalizeFrom_append h last gap ('(' :: tail)
  have hspace : spaceBefore last' gap' '(' = [] := by
    cases last' <;> simp [spaceBefore, keepsGap]
  rw [happend, normalizeFrom_word _ _ (by decide), hspace]
  rfl

theorem normalizeChars_withArguments {cs arguments : List Char} (h : '\'' ∉ cs)
    (harguments : ∀ c ∈ arguments, Inner c) :
    normalizeChars (withArguments cs arguments) = withArguments (normalizeChars cs) arguments := by
  have hplain : ∀ c ∈ arguments ++ [')'], Plain c := by
    simp only [List.forall_mem_append]
    exact ⟨fun c hc => (harguments c hc).toPlain, by decide⟩
  have hquote : '\'' ∉ withArguments cs arguments := by
    intro hmem
    rw [withArguments, List.mem_append, List.mem_cons] at hmem
    rcases hmem with hmem | hmem | hmem
    · exact h hmem
    · cases hmem
    · exact (hplain _ hmem).ne_quote rfl
  have hcopied := normalizeFrom_plain hplain (some '(') []
  rw [normalizeFrom, List.append_nil] at hcopied
  rw [normalizeChars_eq hquote, withArguments, normalizeFrom_bracket h, ← normalizeChars_eq h,
    hcopied, withArguments]

/-! ## Argument lists -/

theorem eq_of_argumentList? {cs before inside behind : List Char}
    (h : argumentList? cs = some (before, inside, behind)) :
    cs = before ++ '(' :: (inside ++ ')' :: behind) := by
  obtain ⟨⟨front, rest⟩, hopen, h⟩ := Option.bind_eq_some_iff.1 h
  dsimp only at h
  split at h
  · cases h
  · obtain ⟨⟨_, _⟩, hclose, h⟩ := Option.map_eq_some_iff.1 h
    cases h
    rw [eq_of_cutAt hopen, eq_of_cutAt hclose]

theorem argumentList?_append {cs before inside behind : List Char}
    (h : argumentList? cs = some (before, inside, behind)) (tail : List Char) :
    argumentList? (cs ++ tail) = some (before, inside, behind ++ tail) := by
  obtain ⟨⟨front, rest⟩, hopen, h⟩ := Option.bind_eq_some_iff.1 h
  dsimp only at h
  rw [argumentList?, cutAt_append_tail hopen, Option.bind_some]
  dsimp only
  split at h
  · cases h
  · rename_i hclosed
    obtain ⟨⟨_, _⟩, hclose, h⟩ := Option.map_eq_some_iff.1 h
    cases h
    rw [if_neg hclosed, cutAt_append_tail hclose]
    rfl

theorem baseTypeChars_normal {ddl : List Char} (h : Normal ddl) (hangle : '<' ∉ ddl) :
    baseTypeChars ddl = ((argumentList? ddl).map fun (before, _, behind) =>
      normalizeChars (before ++ ' ' :: behind)).getD ddl := by
  have hcontains : ddl.contains '<' = false := by simpa using hangle
  rw [baseTypeChars, h, hcontains, if_neg Bool.false_ne_true]
  cases argumentList? ddl <;> rfl

section
variable {ddl name : List Char} (hddl : Normal ddl) (hbase : baseTypeChars ddl = name)
  (hname : ∀ c ∈ name, Inner c)
include hddl hbase hname

theorem angle_not_mem : '<' ∉ ddl := by
  intro hangle
  have hcontains : ddl.contains '<' = true := by simpa using hangle
  rw [baseTypeChars, hddl, hcontains, if_pos rfl] at hbase
  subst hbase
  exact (hname _ hangle).not_bracket (by simp)

theorem argumentList?_eq_none_iff : argumentList? ddl = none ↔ ddl = name := by
  have hparts := baseTypeChars_normal hddl (angle_not_mem hddl hbase hname)
  constructor
  · intro hnone
    rw [← hbase, hparts, hnone]
    rfl
  · rintro rfl
    refine Option.eq_none_iff_forall_ne_some.2 fun ⟨before, inside, behind⟩ hlist => ?_
    have hopen : '(' ∈ ddl := by simp [eq_of_argumentList? hlist]
    exact (hname _ hopen).not_bracket (by simp)

/-- The base of a type with one more argument list: the list is left out if it is the first one. -/
theorem baseTypeChars_withArguments {arguments : List Char}
    (harguments : ∀ c ∈ arguments, Inner c) :
    baseTypeChars (withArguments ddl arguments) =
      if (argumentList? ddl).isSome then withArguments name arguments else name := by
  have hangle := angle_not_mem hddl hbase hname
  split
  · rename_i hsome
    obtain ⟨⟨before, inside, behind⟩, hlist⟩ := Option.isSome_iff_exists.1 hsome
    -- The first list stays where it is, the new one is behind what is kept.
    have hnormal : Normal (withArguments ddl arguments) := by
      refine hddl.append_final ?_
      simp only [List.forall_mem_cons, List.forall_mem_append]
      exact ⟨⟨by decide, by decide⟩, fun c hc => (harguments c hc).final,
        ⟨by decide, by decide⟩, fun c hc => nomatch hc⟩
    have hangle' : '<' ∉ withArguments ddl arguments := by
      simp only [withArguments, List.mem_append, List.mem_cons, not_or]
      exact ⟨hangle, by decide, fun hmem => (harguments _ hmem).not_bracket (by simp), by decide⟩
    rw [baseTypeChars_normal hddl hangle, hlist] at hbase
    have hbase : normalizeChars (before ++ ' ' :: behind) = name := hbase
    have hquote : '\'' ∉ before ++ ' ' :: behind := by
      refine quote_not_mem ?_
      rw [hbase]
      exact fun hmem => (hname _ hmem).ne_quote rfl
    rw [baseTypeChars_normal hnormal hangle', withArguments, argumentList?_append hlist, ← hbase,
      ← normalizeChars_withArguments hquote harguments, withArguments, List.append_assoc,
      List.cons_append]
    rfl
  · rename_i hnone
    have hown := (argumentList?_eq_none_iff hddl hbase hname).1 (by simpa using hnone)
    rw [hown, baseTypeChars_arguments hname harguments]

end

end SchemaPlan.Ddl
