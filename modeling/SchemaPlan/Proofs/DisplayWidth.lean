import SchemaPlan.Proofs.BehindWord

/-!
# Display widths of integer types

A display width is written in brackets right behind the name of an integer type. The catalog form of
a type leaves out the first argument list instead, wherever it stands and whatever is in it, and
takes what it then finds as the first word for the name.

* `withoutWidth`: a type in normal form without its display width.
* `Misread`: the types where another text is left out, or the width is not.
* `normalizeColumnType_width_iff`: all other types lose their display width and nothing else.
-/
namespace SchemaPlan.MySql

open Text Ddl

variable {ddl : String} {n : List Char}

/-! ## Types without display widths -/

/-- The name in front of a type: what stands before the first blank or opening bracket. -/
def typeName (ddl : List Char) : List Char :=
  ddl.takeWhile fun c => !(c = ' ' || c = '(')

def behindName (ddl : List Char) : List Char :=
  ddl.dropWhile fun c => !(c = ' ' || c = '(')

def shortName (name : List Char) : List Char :=
  if name = "INTEGER".toList then "INT".toList else name

/-- What stands behind a display width, if the text starts with one. -/
def behindWidth? (cs : List Char) : Option (List Char) :=
  match argumentList? cs with
  | some ([], inside, behind) => if Decimal.isNumeral inside then some behind else none
  | _ => none

/-- A text behind a name, with a blank between them if it starts with a word. -/
def wordsBehind : List Char → List Char
  | [] => []
  | c :: rest => if c = ' ' ∨ c ∈ tightMarks then c :: rest else ' ' :: c :: rest

/-- A type in normal form as the catalog reports it: the boolean type by one name, an integer type
by its short name and without the display width behind it, any other type as it is. -/
def withoutWidth (ddl : List Char) : List Char :=
  if String.ofList ddl ∈ ["BOOL", "BOOLEAN", booleanType] then booleanType.toList
  else if String.ofList (typeName ddl) ∈ integerTypes then
    shortName (typeName ddl) ++
      ((behindWidth? (behindName ddl)).map wordsBehind).getD (behindName ddl)
  else ddl

theorem typeName_append (ddl : List Char) : typeName ddl ++ behindName ddl = ddl :=
  List.takeWhile_append_dropWhile

theorem head?_behindName {ddl : List Char} {c : Char} (h : (behindName ddl).head? = some c) :
    c = ' ' ∨ c = '(' := by
  have hstop := List.head?_dropWhile_not (fun c => !(c = ' ' || c = '(')) ddl
  rw [behindName] at h
  rw [h] at hstop
  simpa [or_iff_not_imp_left] using hstop

/-- The names of the integer types are single words. -/
theorem integer_name {name : List Char} (h : String.ofList name ∈ integerTypes) :
    name ≠ [] ∧ (∀ c ∈ name, Plain c) ∧ ∀ c ∈ name, c ∉ tightMarks := by
  have hall : ∀ type ∈ integerTypes, type.toList ≠ [] ∧ (∀ c ∈ type.toList, Plain c) ∧
      ∀ c ∈ type.toList, c ∉ tightMarks := by decide
  have hname := hall _ h
  rwa [String.toList_ofList] at hname

theorem count_name {name : List Char} (h : String.ofList name ∈ integerTypes) :
    name.count '(' = 0 :=
  List.count_eq_zero.2 fun hmem => (integer_name h).2.2 _ hmem List.mem_cons_self

theorem count_shortName {name : List Char} (h : String.ofList name ∈ integerTypes) :
    (shortName name).count '(' = 0 := by
  unfold shortName
  split
  · decide
  · exact count_name h

/-! ## What the catalog form leaves out -/

/-- Types in normal form whose catalog form is another one. -/
inductive Misread (ddl : List Char) : Prop
  /-- An argument list behind further words of an integer type is left out. -/
  | later {before inside behind : List Char} (hname : String.ofList (typeName ddl) ∈ integerTypes)
      (hlist : omittedList? ddl = some (before, inside, behind)) (hlater : before ≠ typeName ddl)
  /-- A list is left out that is no display width. -/
  | noWidth {inside behind : List Char} (hname : String.ofList (typeName ddl) ∈ integerTypes)
      (hlist : omittedList? ddl = some (typeName ddl, inside, behind))
      (hapart : StandsApart behind) (hinside : Decimal.isNumeral inside = false)
  /-- The list stays, because of an angle bracket or since a mark follows it, and the long name or
  the display width with it. -/
  | stays (hname : String.ofList (typeName ddl) ∈ integerTypes)
      (hopen : (behindName ddl).head? = some '(')
      (hstays : ∀ inside behind, omittedList? ddl = some (typeName ddl, inside, behind) →
        ¬StandsApart behind)
      (hchanges : typeName ddl = "INTEGER".toList ∨ (behindWidth? (behindName ddl)).isSome)
  /-- A list in front of all words is left out, and an integer type stands behind it. -/
  | front {inside behind : List Char} (hlist : omittedList? ddl = some ([], inside, behind))
      (hname : String.ofList ((normalizeChars behind).takeWhile (· != ' ')) ∈ integerTypes)

theorem not_integer_of_tight {name : List Char} {c : Char} (hc : c ∈ tightMarks) (hmem : c ∈ name) :
    String.ofList name ∉ integerTypes := fun h => (integer_name h).2.2 c hmem hc

theorem leadingWord_eq (ddl : String) : leadingWord ddl =
    String.ofList ((baseTypeChars ddl.toList).takeWhile (· != ' ')) := by
  rw [leadingWord, baseType, String.toList_ofList]

theorem standsApart_append {cs rest : List Char} (h : StandsApart (cs ++ '(' :: rest))
    (other : List Char) : StandsApart (cs ++ other) := by
  have hopen : '(' ∈ tightMarks := List.mem_cons_self
  intro c hc
  unfold StandsApart at h
  rw [trimLeft, List.dropWhile_append] at h hc
  split at h
  · exact absurd hopen (h '(' rfl)
  · rename_i hne
    rw [if_neg hne] at hc
    cases hdrop : cs.dropWhile isBlank with
    | nil =>
      rw [hdrop] at hne
      exact absurd rfl hne
    | cons d more =>
      rw [hdrop] at h hc
      exact h c hc

/-! ### Lists behind the name of an integer type -/

section
variable (hname : String.ofList (typeName ddl.toList) ∈ integerTypes)
include hname

theorem omittedList?_behind {before inside behind : List Char}
    (h : omittedList? ddl.toList = some (before, inside, behind)) :
    ∃ more, before = typeName ddl.toList ++ more ∧ '(' ∉ more ∧
      argumentList? (behindName ddl.toList) = some (more, inside, behind) := by
  have hnot : ∀ mark ∈ tightMarks, mark ∉ typeName ddl.toList := fun mark hmark hmem =>
    (integer_name hname).2.2 mark hmem hmark
  have hlist := argumentList?_of_omitted h
  rw [← typeName_append ddl.toList, argumentList?_word (hnot _ (by decide)) (hnot _ (by decide))]
    at hlist
  obtain ⟨⟨more, _, _⟩, hmore, heq⟩ := Option.map_eq_some_iff.1 hlist
  cases heq
  exact ⟨more, rfl, not_mem_of_argumentList? hmore, hmore⟩

/-- The list that is left out is the one right behind the name, if there is one. -/
theorem omitted_behind_name {before inside behind : List Char}
    (h : omittedList? ddl.toList = some (before, inside, behind)) :
    before = typeName ddl.toList ↔ (behindName ddl.toList).head? = some '(' := by
  obtain ⟨more, rfl, hopen, hmore⟩ := omittedList?_behind hname h
  rw [eq_of_argumentList? hmore]
  cases more with
  | nil => exact iff_of_true (List.append_nil _) rfl
  | cons c more =>
    refine iff_of_false (fun heq => ?_) fun hhead => hopen ?_
    · exact List.cons_ne_nil c more (List.append_cancel_left (heq.trans (List.append_nil _).symm))
    · exact Option.some.inj hhead ▸ List.mem_cons_self

/-- If a list further behind is left out, the name stays the first word. -/
theorem leadingWord_later (hnormal : normalize ddl = ddl) {before inside behind : List Char}
    (hlist : omittedList? ddl.toList = some (before, inside, behind))
    (hlater : before ≠ typeName ddl.toList) : leadingWord ddl ∈ integerTypes := by
  obtain ⟨hne, hplain, htight⟩ := integer_name hname
  have hn := normal_toList.2 hnormal
  obtain ⟨more, rfl, hopen, hmore⟩ := omittedList?_behind hname hlist
  replace hmore := eq_of_argumentList? hmore
  cases more with
  | nil => exact absurd (List.append_nil _) hlater
  | cons c more =>
    obtain rfl : c = ' ' := (head?_behindName (by rw [hmore]; rfl)).resolve_right fun h =>
      hopen (h ▸ List.mem_cons_self)
    have htext := typeName_append ddl.toList
    rw [hmore, List.cons_append] at htext
    have hapart : StandsApart (more ++ ' ' :: behind) := by
      refine @standsApart_append more (inside ++ ')' :: behind) ?_ _
      refine (leading_behind hne htight hplain _).elim And.left ?_
      rintro ⟨-, c, hc, hmem⟩
      rw [htext, hn, ← htext, takeWhile_word hplain, List.mem_append] at hmem
      refine absurd hc (hmem.elim (htight c) fun hmem => ?_)
      cases hmem
    rw [leadingWord_eq, baseTypeChars_omitted hn hlist, List.append_assoc, List.cons_append]
    rcases leading_behind hne htight hplain (more ++ ' ' :: behind) with ⟨-, hword⟩ | ⟨h, -⟩
    · rw [hword]
      exact hname
    · exact absurd hapart h

theorem leading_apart (hnormal : normalize ddl = ddl) {inside behind : List Char}
    (hlist : omittedList? ddl.toList = some (typeName ddl.toList, inside, behind))
    (hapart : StandsApart behind) :
    (baseTypeChars ddl.toList).takeWhile (· != ' ') = typeName ddl.toList := by
  obtain ⟨hne, hplain, htight⟩ := integer_name hname
  rw [baseTypeChars_omitted (normal_toList.2 hnormal) hlist]
  rcases leading_behind hne htight hplain behind with ⟨-, hword⟩ | ⟨h, -⟩
  · exact hword
  · exact absurd hapart h

end

/-- What is written behind a name and its display width: the words behind them. -/
theorem trimRight_behind {name inside behind : List Char}
    (hname : String.ofList name ∈ integerTypes) (hinside : ∀ c ∈ inside, Plain c)
    (hnormal : Normal (name ++ '(' :: (inside ++ ')' :: behind))) (hapart : StandsApart behind) :
    trimRight (normalizeFrom name.getLast? true false behind) = wordsBehind behind := by
  obtain ⟨hne, hplain, htight⟩ := integer_name hname
  obtain ⟨last, hlast, hopening⟩ := exists_getLast? hne htight
  obtain ⟨htrimmed, hwalk⟩ := normal_iff.1 hnormal
  -- The walk copies what is behind the bracket, which counts as the name does.
  have hkeeps : keepsGap (some ')') = keepsGap (some last) := by
    simp only [tightMarks, List.mem_cons, List.not_mem_nil, or_false, not_or] at hopening
    funext next
    simp [keepsGap, hopening]
  have hcopied : normalizeFrom (some ')') false false behind = behind := by
    have hfront : ∀ c ∈ name ++ '(' :: (inside ++ [')']), Plain c := by
      simp only [List.forall_mem_append, List.forall_mem_cons]
      exact ⟨hplain, by decide, hinside, by decide, List.forall_mem_nil _⟩
    have htext : name ++ '(' :: (inside ++ ')' :: behind) =
        name ++ '(' :: (inside ++ [')']) ++ behind := by simp
    have hend : (name ++ '(' :: (inside ++ [')'])).getLast?.or none = some ')' := by
      rw [← List.cons_append, ← List.append_assoc, List.getLast?_concat]
      rfl
    rw [htext, normalizeFrom_plain hfront, hend] at hwalk
    exact List.append_cancel_left hwalk
  rw [hlast]
  cases behind with
  | nil => rfl
  | cons c rest =>
    have hend : ∀ d, (' ' :: c :: rest).getLast? = some d → isBlank d = false := by
      intro d hd
      refine htrimmed.last d ?_
      rw [List.getLast?_cons_cons] at hd
      rw [← List.cons_append, ← List.append_assoc, List.getLast?_append, List.getLast?_cons_cons,
        hd]
      rfl
    by_cases hc : isBlank c = true
    · rw [normalizeFrom_blank _ _ hc] at hcopied ⊢
      obtain rfl : c = ' ' := by
        have hhead := @head?_normalizeFrom_gap ')' (by decide) _ _ (congrArg List.head? hcopied)
        have hall : ∀ d ∈ [' ', '(', ')', ',', '<', '>'], isBlank d = true → d = ' ' := by decide
        exact hall c hhead hc
      rw [← normalizeFrom_congr hkeeps, hcopied, wordsBehind, if_pos (.inl rfl),
        trimRight_eq_self fun d hd => hend d (by rwa [List.getLast?_cons_cons])]
    · have hc : isBlank c = false := by simpa using hc
      have hmark : c ∉ tightMarks :=
        hapart c (by rw [trimLeft, List.dropWhile_cons_of_neg (by simp [hc])]; rfl)
      have hblank : c ≠ ' ' := by
        rintro rfl
        cases hc
      have hlastOf := List.getLast?_eq_some_getLast (upper_ne_nil c)
      rw [normalizeFrom_word _ _ hc, hlastOf] at hcopied ⊢
      rw [spaceBefore, Bool.true_and, if_pos ((keepsGap_iff hopening).2 hmark), List.append_assoc]
      rw [spaceBefore, Bool.false_and, if_neg Bool.false_ne_true, List.nil_append] at hcopied
      rw [Option.some_or] at hcopied ⊢
      rw [hcopied, wordsBehind, if_neg (by simp [hblank, hmark]), List.singleton_append,
        trimRight_eq_self hend]

section
variable (hnormal : normalize ddl = ddl)
  (hboolean : ddl ∉ ["BOOL", "BOOLEAN", booleanType])
include hnormal hboolean

theorem toList_normalizeColumnType (hname : leadingWord ddl ∈ integerTypes) :
    (normalizeColumnType ddl).toList =
      shortName ((baseTypeChars ddl.toList).takeWhile (· != ' ')) ++
        (baseTypeChars ddl.toList).dropWhile (· != ' ') := by
  have hbase : (baseType ddl).toList = baseTypeChars ddl.toList := by
    rw [baseType, String.toList_ofList]
  have hdrop : (baseTypeChars ddl.toList).drop
      ((baseTypeChars ddl.toList).takeWhile (· != ' ')).length =
        (baseTypeChars ddl.toList).dropWhile (· != ' ') :=
    (congrArg (List.drop _) List.takeWhile_append_dropWhile.symm).trans List.drop_left
  simp only [List.mem_cons, List.not_mem_nil, or_false, not_or] at hboolean
  rw [leadingWord_eq] at hname
  unfold normalizeColumnType
  dsimp only
  rw [hnormal, if_neg (by simp [hboolean]), hbase, if_pos (by simpa using hname), hdrop,
    String.toList_ofList, shortName]

theorem count_normalizeColumnType (hname : leadingWord ddl ∈ integerTypes)
    {before inside behind : List Char}
    (hlist : omittedList? ddl.toList = some (before, inside, behind)) :
    (normalizeColumnType ddl).toList.count '(' < ddl.toList.count '(' := by
  have hmark : Final '(' := final_of_tight List.mem_cons_self
  have hbase := congrArg (List.count '(') (baseTypeChars_omitted (normal_toList.2 hnormal) hlist)
  rw [count_normalizeChars hmark (by decide)] at hbase
  have hsplit := congrArg (List.count '(')
    (List.takeWhile_append_dropWhile (p := (· != ' ')) (l := baseTypeChars ddl.toList))
  have hshort := toList_normalizeColumnType hnormal hboolean hname
  rw [leadingWord_eq] at hname
  have hword := count_name hname
  have htext := congrArg (List.count '(') (eq_of_argumentList? (argumentList?_of_omitted hlist))
  simp only [List.count_append, List.count_cons] at hbase hsplit htext
  rw [hshort, List.count_append, count_shortName hname]
  simp at hbase htext
  omega

/-! ### The cases of integer types -/

section
variable (hname : String.ofList (typeName ddl.toList) ∈ integerTypes)
include hname

theorem normalizeColumnType_stays (hopen : (behindName ddl.toList).head? = some '(')
    (hstays : ∀ inside behind,
      omittedList? ddl.toList = some (typeName ddl.toList, inside, behind) →
        ¬StandsApart behind) : normalizeColumnType ddl = ddl := by
  obtain ⟨hne, hplain, htight⟩ := integer_name hname
  have hn := normal_toList.2 hnormal
  refine normalizeColumnType_other hnormal hboolean ?_
  rw [leadingWord_eq]
  cases hlist : omittedList? ddl.toList with
  | none =>
    obtain ⟨rest, hrest⟩ := List.head?_eq_some_iff.1 hopen
    refine not_integer_of_tight (c := '(') (by decide) ?_
    rw [baseTypeChars_none hn hlist, ← typeName_append ddl.toList, takeWhile_word hplain, hrest]
    exact List.mem_append_right _ List.mem_cons_self
  | some parts =>
    obtain ⟨before, inside, behind⟩ := parts
    obtain rfl := (omitted_behind_name hname hlist).2 hopen
    rw [baseTypeChars_omitted hn hlist]
    rcases leading_behind hne htight hplain behind with ⟨hapart, -⟩ | ⟨-, c, hc, hmem⟩
    · exact absurd hapart (hstays inside behind hlist)
    · exact not_integer_of_tight hc hmem

theorem normalizeColumnType_width {inside behind : List Char}
    (hlist : omittedList? ddl.toList = some (typeName ddl.toList, inside, behind))
    (hapart : StandsApart behind) (hinside : Decimal.isNumeral inside = true) :
    (normalizeColumnType ddl).toList = shortName (typeName ddl.toList) ++ wordsBehind behind := by
  obtain ⟨hne, hplain, htight⟩ := integer_name hname
  have hn := normal_toList.2 hnormal
  have hleading := leading_apart hname hnormal hlist hapart
  have hdigits : ∀ c ∈ inside, Plain c := by
    rw [Decimal.isNumeral, Bool.and_eq_true, List.all_eq_true] at hinside
    exact fun c hc => (inner_of_isDigit (hinside.2 c hc)).toPlain
  have hbase : baseTypeChars ddl.toList = typeName ddl.toList ++ wordsBehind behind := by
    have htext := eq_of_argumentList? (argumentList?_of_omitted hlist)
    rw [baseTypeChars_omitted hn hlist, normalizeChars_behind_word hplain,
      trimRight_behind hname hdigits (htext ▸ hn) hapart]
  have hdrop : (baseTypeChars ddl.toList).dropWhile (· != ' ') = wordsBehind behind := by
    have hsplit := List.takeWhile_append_dropWhile (p := (· != ' ')) (l := baseTypeChars ddl.toList)
    rw [hleading] at hsplit
    exact List.append_cancel_left (hsplit.trans hbase)
  rw [toList_normalizeColumnType hnormal hboolean
    (by rw [leadingWord_eq, hleading]; exact hname), hleading, hdrop]

theorem normalizeColumnType_plain (hopen : (behindName ddl.toList).head? ≠ some '(')
    (hlist : omittedList? ddl.toList = none) :
    (normalizeColumnType ddl).toList =
      shortName (typeName ddl.toList) ++ behindName ddl.toList := by
  obtain ⟨-, hplain, -⟩ := integer_name hname
  have hbase := baseTypeChars_none (normal_toList.2 hnormal) hlist
  have hleading : ddl.toList.takeWhile (· != ' ') = typeName ddl.toList := by
    conv_lhs => rw [← typeName_append ddl.toList, takeWhile_word hplain]
    cases hrest : behindName ddl.toList with
    | nil => exact List.append_nil _
    | cons c rest =>
      have hhead : (behindName ddl.toList).head? = some c := by rw [hrest]; rfl
      rcases head?_behindName hhead with rfl | rfl
      · exact List.append_nil _
      · exact absurd hhead hopen
  have hdrop : ddl.toList.dropWhile (· != ' ') = behindName ddl.toList := by
    have hsplit := List.takeWhile_append_dropWhile (p := (· != ' ')) (l := ddl.toList)
    rw [hleading] at hsplit
    exact List.append_cancel_left (hsplit.trans (typeName_append _).symm)
  rw [toList_normalizeColumnType hnormal hboolean
    (by rw [leadingWord_eq, hbase, hleading]; exact hname), hbase, hleading, hdrop]

end

end

/-! ### Other types -/

theorem typeName_bracket (before rest : List Char) :
    typeName (before ++ '(' :: rest) = typeName before := by
  have hstop : (fun c => !(c = ' ' || c = '(')) '(' = false := rfl
  induction before with
  | nil => rfl
  | cons c before ih =>
    unfold typeName at ih ⊢
    rw [List.cons_append, List.takeWhile_cons, List.takeWhile_cons, ih]

theorem normalizeChars_front (behind : List Char) :
    normalizeChars ([] ++ ' ' :: behind) = normalizeChars behind := by
  have hblank : ∀ c ∈ [' '], isBlank c = true := by decide
  rw [normalizeChars, List.nil_append, ← List.singleton_append, trim_append_left hblank,
    normalizeChars]

/-- The first word of a type without a list is its name if it is the name of an integer type. -/
theorem typeName_eq_leading {n : List Char}
    (h : String.ofList (n.takeWhile (· != ' ')) ∈ integerTypes) :
    typeName n = n.takeWhile (· != ' ') := by
  obtain ⟨-, hplain, htight⟩ := integer_name h
  have hrun : ∀ c ∈ n.takeWhile (· != ' '), (!(c = ' ' || c = '(')) = true := by
    intro c hc
    have hblank : c ≠ ' ' := by
      rintro rfl
      cases (hplain ' ' hc).not_blank
    have hopen : c ≠ '(' := fun h => htight c hc (h ▸ List.mem_cons_self)
    simp [hblank, hopen]
  have hstop := List.head?_dropWhile_not (· != ' ') n
  conv_lhs => rw [typeName, ← List.takeWhile_append_dropWhile (p := (· != ' ')) (l := n),
    List.takeWhile_append_of_pos hrun]
  cases hrest : n.dropWhile (· != ' ') with
  | nil => exact List.append_nil _
  | cons c rest =>
    rw [hrest] at hstop
    obtain rfl : c = ' ' := by simpa using hstop
    exact List.append_nil _

theorem integer_of_leading {word rest tail : List Char} (hne : word ≠ [])
    (hnormal : Normal (word ++ rest)) (hblank : ∀ c ∈ word, c ≠ ' ')
    (h : String.ofList ((normalizeChars (word ++ ' ' :: tail)).takeWhile (· != ' ')) ∈
      integerTypes) : String.ofList word ∈ integerTypes := by
  obtain ⟨-, hplain, htight⟩ := integer_name h
  by_cases hquote : '\'' ∈ word
  · -- The walk copies the word up to its first quote, which no integer type has.
    obtain ⟨front, more, rfl, hfront⟩ := List.eq_append_cons_of_mem hquote
    rw [List.append_assoc] at hnormal hplain
    have hfrontPlain := plain_of_normal hnormal fun c hc =>
      ⟨hblank c (List.mem_append_left _ hc), fun h => hfront (h ▸ hc)⟩
    have hwalk : normalizeFrom (front.getLast?.or none) false false
        ('\'' :: more ++ ' ' :: tail) = [] ++ '\'' :: _ := normalizeFrom_word _ _ rfl _
    refine absurd rfl (hplain '\'' ?_).ne_quote
    rw [normalizeChars_eq_trimRight, normalizeFrom_plain hfrontPlain, hwalk,
      trimRight_append_word fun c hc => (hfrontPlain c hc).not_blank, takeWhile_word hfrontPlain,
      trimRight_append_mark rfl]
    exact List.mem_append_right _ List.mem_cons_self
  · have hwordPlain := plain_of_normal hnormal fun c hc => ⟨hblank c hc, fun h => hquote (h ▸ hc)⟩
    have hwordTight : ∀ c ∈ word, c ∉ tightMarks := by
      intro c hc
      refine htight c ?_
      rw [normalizeChars_behind_word hwordPlain, takeWhile_word hwordPlain]
      exact List.mem_append_left _ hc
    rcases leading_behind hne hwordTight hwordPlain tail with ⟨-, hword⟩ | ⟨-, c, hc, hmem⟩
    · rwa [hword] at h
    · exact absurd hc (htight c hmem)

theorem exists_behind_name {before : List Char} (h : '(' ∉ before) (behind : List Char) :
    ∃ tail, before ++ ' ' :: behind = typeName before ++ ' ' :: tail := by
  have hsplit := typeName_append before
  cases hrest : behindName before with
  | nil =>
    rw [hrest, List.append_nil] at hsplit
    exact ⟨behind, by rw [hsplit]⟩
  | cons c rest =>
    rw [hrest] at hsplit
    obtain rfl : c = ' ' := (head?_behindName (by rw [hrest]; rfl)).resolve_right fun hc =>
      h (hsplit ▸ hc ▸ List.mem_append_right _ List.mem_cons_self)
    refine ⟨rest ++ ' ' :: behind, ?_⟩
    conv_lhs => rw [← hsplit, List.append_assoc, List.cons_append]

/-- A type that does not start with the name of an integer type is taken for one if its list stands
in front of such a name. -/
theorem front_of_leadingWord (hnormal : normalize ddl = ddl)
    (hname : String.ofList (typeName ddl.toList) ∉ integerTypes)
    (hleading : leadingWord ddl ∈ integerTypes) :
    ∃ inside behind, omittedList? ddl.toList = some ([], inside, behind) ∧
      String.ofList ((normalizeChars behind).takeWhile (· != ' ')) ∈ integerTypes := by
  have hn := normal_toList.2 hnormal
  rw [leadingWord_eq] at hleading
  cases hlist : omittedList? ddl.toList with
  | none =>
    rw [baseTypeChars_none hn hlist] at hleading
    rw [typeName_eq_leading hleading] at hname
    exact absurd hleading hname
  | some parts =>
    obtain ⟨before, inside, behind⟩ := parts
    rw [baseTypeChars_omitted hn hlist] at hleading
    by_cases hbefore : before = []
    · rw [hbefore, normalizeChars_front] at hleading
      exact ⟨inside, behind, by rw [hbefore], hleading⟩
    · refine absurd ?_ hname
      have htext := eq_of_argumentList? (argumentList?_of_omitted hlist)
      have hopen := not_mem_of_argumentList? (argumentList?_of_omitted hlist)
      obtain ⟨tail, htail⟩ := exists_behind_name hopen behind
      rw [htail] at hleading
      rw [htext, typeName_bracket]
      rw [htext, ← typeName_append before, List.append_assoc] at hn
      refine integer_of_leading (fun hnil => ?_) hn (fun c hc => ?_) hleading
      · -- The text starts with neither a blank nor a bracket.
        obtain ⟨c, more, rfl⟩ := List.exists_cons_of_ne_nil hbefore
        have hc : c = ' ' ∨ c = '(' := by
          refine @head?_behindName (c :: more) c ?_
          rw [← List.nil_append (behindName _), ← hnil, typeName_append]
          rfl
        rw [← List.append_assoc, typeName_append] at hn
        rcases hc with rfl | rfl
        · cases hn.trimmed.head ' ' rfl
        · exact hopen List.mem_cons_self
      · rintro rfl
        have hall := List.all_eq_true.1 (List.all_takeWhile (l := before)) ' ' hc
        cases hall

/-! ## The catalog form as a whole -/

theorem count_wordsBehind (behind : List Char) :
    (wordsBehind behind).count '(' = behind.count '(' := by
  cases behind with
  | nil => rfl
  | cons c rest =>
    rw [wordsBehind]
    split
    · rfl
    · rw [List.count_cons_of_ne (by decide)]

theorem ne_of_width {ddl : List Char} (hname : String.ofList (typeName ddl) ∈ integerTypes)
    (hchanges : typeName ddl = "INTEGER".toList ∨ (behindWidth? (behindName ddl)).isSome) :
    shortName (typeName ddl) ++
      ((behindWidth? (behindName ddl)).map wordsBehind).getD (behindName ddl) ≠ ddl := by
  intro heq
  cases hwidth : behindWidth? (behindName ddl) with
  | none =>
    rw [hwidth] at hchanges heq
    have hlong := hchanges.resolve_right (by simp)
    have hlength := congrArg List.length (heq.trans (typeName_append ddl).symm)
    simp only [Option.map_none, Option.getD_none, List.length_append, shortName, hlong,
      if_pos] at hlength
    simp at hlength
  | some behind =>
    have hrest : behind.count '(' = (behindName ddl).count '(' := by
      have hshort := congrArg (List.count '(') (heq.trans (typeName_append ddl).symm)
      rw [hwidth, Option.map_some, Option.getD_some, List.count_append, List.count_append,
        count_shortName hname, count_name hname, count_wordsBehind] at hshort
      omega
    rw [behindWidth?] at hwidth
    split at hwidth
    · rename_i inside more hlist
      split at hwidth
      · obtain rfl := Option.some.inj hwidth
        have htext := congrArg (List.count '(') (eq_of_argumentList? hlist)
        simp only [List.count_append, List.count_cons, List.nil_append] at htext
        simp at htext
        omega
      · cases hwidth
    · cases hwidth

theorem not_misread_boolean (h : ddl ∈ ["BOOL", "BOOLEAN", booleanType]) :
    ¬Misread ddl.toList := by
  have hother : ∀ type ∈ ["BOOL", "BOOLEAN"], String.ofList (typeName type.toList) ∉ integerTypes ∧
      omittedList? type.toList = none := by decide
  have hwidth :
      omittedList? booleanType.toList = some (typeName booleanType.toList, ['1'], []) := by
    decide
  rcases List.mem_append.1 (show ddl ∈ ["BOOL", "BOOLEAN"] ++ [booleanType] from h) with h | h
  · obtain ⟨hname, hnone⟩ := hother ddl h
    rintro (⟨h, -⟩ | ⟨h, -⟩ | ⟨h, -⟩ | ⟨hlist, -⟩)
    · exact hname h
    · exact hname h
    · exact hname h
    · rw [hnone] at hlist
      cases hlist
  · obtain rfl := List.mem_singleton.1 h
    rintro (⟨-, hlist, hlater⟩ | ⟨-, hlist, -, hinside⟩ | ⟨-, -, hstays, -⟩ | ⟨hlist, -⟩)
    · rw [hwidth] at hlist
      exact hlater (Prod.mk.inj (Option.some.inj hlist)).1.symm
    · rw [hwidth] at hlist
      obtain ⟨-, heq⟩ := Prod.mk.inj (Option.some.inj hlist)
      rw [← (Prod.mk.inj heq).1] at hinside
      cases hinside
    · exact hstays ['1'] [] hwidth fun c hc => by cases hc
    · rw [hwidth] at hlist
      exact absurd (Prod.mk.inj (Option.some.inj hlist)).1 (by decide)

section
variable (hnormal : normalize ddl = ddl)
  (hboolean : ddl ∉ ["BOOL", "BOOLEAN", booleanType])
include hnormal hboolean

/-- The types that start with the name of an integer type and have a list right behind it. -/
theorem normalizeColumnType_list_iff
    (hname : String.ofList (typeName ddl.toList) ∈ integerTypes)
    (hopen : (behindName ddl.toList).head? = some '(') :
    (normalizeColumnType ddl).toList = shortName (typeName ddl.toList) ++
        ((behindWidth? (behindName ddl.toList)).map wordsBehind).getD (behindName ddl.toList) ↔
      ¬Misread ddl.toList := by
  have hsame : ∀ {before inside behind}, omittedList? ddl.toList = some (before, inside, behind) →
      before = typeName ddl.toList := fun hlist => (omitted_behind_name hname hlist).2 hopen
  have hfront : ∀ {inside behind}, omittedList? ddl.toList ≠ some ([], inside, behind) :=
    fun hlist => (integer_name hname).1 (hsame hlist).symm
  have hcount := congrArg (List.count '(') (typeName_append ddl.toList)
  rw [List.count_append, count_name hname] at hcount
  by_cases hgoes : ∃ inside behind,
      omittedList? ddl.toList = some (typeName ddl.toList, inside, behind) ∧ StandsApart behind
  · obtain ⟨inside, behind, hlist, hapart⟩ := hgoes
    obtain ⟨more, hmore, -, hrest⟩ := omittedList?_behind hname hlist
    obtain rfl : more = [] := List.append_right_eq_self.1 hmore.symm
    cases hinside : Decimal.isNumeral inside with
    | true =>
      have hwidth : behindWidth? (behindName ddl.toList) = some behind := by
        rw [behindWidth?, hrest]
        exact if_pos hinside
      rw [hwidth]
      refine iff_of_true
        (normalizeColumnType_width hnormal hboolean hname hlist hapart hinside) ?_
      rintro (⟨-, hother, hlater⟩ | ⟨-, hother, -, hnone⟩ | ⟨-, -, hstays, -⟩ | ⟨hother, -⟩)
      · exact hlater (hsame hother)
      · rw [hlist] at hother
        cases hother
        rw [hinside] at hnone
        cases hnone
      · exact hstays inside behind hlist hapart
      · exact hfront hother
    | false =>
      have hwidth : behindWidth? (behindName ddl.toList) = none := by
        rw [behindWidth?, hrest]
        exact if_neg (by simp [hinside])
      rw [hwidth]
      refine iff_of_false (fun heq => ?_) (not_not_intro (.noWidth hname hlist hapart hinside))
      have hleading : leadingWord ddl ∈ integerTypes := by
        rw [leadingWord_eq, leading_apart hname hnormal hlist hapart]
        exact hname
      have hless := count_normalizeColumnType hnormal hboolean hleading hlist
      rw [heq, Option.map_none, Option.getD_none, List.count_append, count_shortName hname,
        ← hcount] at hless
      omega
  · simp only [not_exists, not_and] at hgoes
    rw [normalizeColumnType_stays hnormal hboolean hname hopen hgoes]
    by_cases hchanges : typeName ddl.toList = "INTEGER".toList ∨
        (behindWidth? (behindName ddl.toList)).isSome
    · exact iff_of_false (fun heq => ne_of_width hname hchanges heq.symm)
        (not_not_intro (.stays hname hopen hgoes hchanges))
    · obtain ⟨hshort, hwidth⟩ := not_or.1 hchanges
      rw [Option.not_isSome_iff_eq_none] at hwidth
      rw [hwidth, Option.map_none, Option.getD_none, shortName, if_neg hshort]
      refine iff_of_true (typeName_append _).symm ?_
      rintro (⟨-, hother, hlater⟩ | ⟨-, hother, hapart, -⟩ | ⟨-, -, -, h⟩ | ⟨hother, -⟩)
      · exact hlater (hsame hother)
      · exact hgoes _ _ hother hapart
      · exact hchanges h
      · exact hfront hother

/-- The types that start with the name of an integer type and have no list right behind it. -/
theorem normalizeColumnType_words_iff
    (hname : String.ofList (typeName ddl.toList) ∈ integerTypes)
    (hopen : (behindName ddl.toList).head? ≠ some '(') :
    (normalizeColumnType ddl).toList = shortName (typeName ddl.toList) ++
        ((behindWidth? (behindName ddl.toList)).map wordsBehind).getD (behindName ddl.toList) ↔
      ¬Misread ddl.toList := by
  have hwidth : behindWidth? (behindName ddl.toList) = none := by
    rw [behindWidth?]
    split
    · rename_i inside behind hlist
      exact absurd (by rw [eq_of_argumentList? hlist]; rfl) hopen
    · rfl
  rw [hwidth, Option.map_none, Option.getD_none]
  cases hlist : omittedList? ddl.toList with
  | none =>
    refine iff_of_true (normalizeColumnType_plain hnormal hboolean hname hopen hlist) ?_
    rintro (⟨-, hother, -⟩ | ⟨-, hother, -, -⟩ | ⟨-, h, -, -⟩ | ⟨hother, -⟩)
    · rw [hlist] at hother
      cases hother
    · rw [hlist] at hother
      cases hother
    · exact hopen h
    · rw [hlist] at hother
      cases hother
  | some parts =>
    obtain ⟨before, inside, behind⟩ := parts
    have hlater : before ≠ typeName ddl.toList := fun h =>
      hopen ((omitted_behind_name hname hlist).1 h)
    refine iff_of_false (fun heq => ?_) (not_not_intro (.later hname hlist hlater))
    have hless := count_normalizeColumnType hnormal hboolean
      (leadingWord_later hname hnormal hlist hlater) hlist
    have hcount := congrArg (List.count '(') (typeName_append ddl.toList)
    rw [List.count_append, count_name hname] at hcount
    rw [heq, List.count_append, count_shortName hname, ← hcount] at hless
    omega

/-- The types that do not start with the name of an integer type. -/
theorem normalizeColumnType_other_iff
    (hname : String.ofList (typeName ddl.toList) ∉ integerTypes) :
    (normalizeColumnType ddl).toList = ddl.toList ↔ ¬Misread ddl.toList := by
  by_cases hleading : leadingWord ddl ∈ integerTypes
  · obtain ⟨inside, behind, hlist, hfront⟩ := front_of_leadingWord hnormal hname hleading
    refine iff_of_false (fun heq => ?_) (not_not_intro (.front hlist hfront))
    have hless := count_normalizeColumnType hnormal hboolean hleading hlist
    rw [heq] at hless
    exact lt_irrefl _ hless
  · refine iff_of_true (by rw [normalizeColumnType_other hnormal hboolean hleading]) ?_
    rintro (⟨h, -⟩ | ⟨h, -⟩ | ⟨h, -⟩ | ⟨hlist, hfront⟩)
    · exact hname h
    · exact hname h
    · exact hname h
    · refine hleading ?_
      rw [leadingWord_eq, baseTypeChars_omitted (normal_toList.2 hnormal) hlist,
        normalizeChars_front]
      exact hfront

end

/-- The catalog form of a type is its normal form without the display width of an integer type, just
if no other text is taken for the width and the width is not kept. -/
theorem normalizeColumnType_width_iff (ddl : String) :
    (normalizeColumnType ddl).toList = withoutWidth (normalizeChars ddl.toList) ↔
      ¬Misread (normalizeChars ddl.toList) := by
  have hnormal := normalize_idem ddl
  have htext : (normalize ddl).toList = normalizeChars ddl.toList := String.toList_ofList
  have hsame : normalizeColumnType ddl = normalizeColumnType (normalize ddl) := by
    unfold normalizeColumnType
    rw [hnormal]
  rw [hsame, ← htext, withoutWidth, String.ofList_toList]
  generalize normalize ddl = type at hnormal
  by_cases hboolean : type ∈ ["BOOL", "BOOLEAN", booleanType]
  · rw [if_pos hboolean]
    refine iff_of_true (congrArg String.toList ?_) (not_misread_boolean hboolean)
    have hall : ∀ type ∈ ["BOOL", "BOOLEAN", booleanType],
        normalizeColumnType type = booleanType := by decide +kernel
    exact hall type hboolean
  · rw [if_neg hboolean]
    split
    · rename_i hname
      by_cases hopen : (behindName type.toList).head? = some '('
      · exact normalizeColumnType_list_iff hnormal hboolean hname hopen
      · exact normalizeColumnType_words_iff hnormal hboolean hname hopen
    · rename_i hname
      exact normalizeColumnType_other_iff hnormal hboolean hname

/-- The list of a generation expression is taken for the width, and a check with a comparison keeps
the width. -/
theorem expression_taken_for_width :
    normalizeColumnType "int generated always as (a + b)" = "INT GENERATED ALWAYS AS" ∧
      withoutWidth (normalizeChars "int generated always as (a + b)".toList) =
        "INT GENERATED ALWAYS AS(A + B)".toList ∧
      normalizeColumnType "int(11) check (a<b)" = "INT(11) CHECK(A<B)" ∧
      withoutWidth (normalizeChars "int(11) check (a<b)".toList) = "INT CHECK(A<B)".toList := by
  decide +kernel

example : withoutWidth "INTEGER(10)UNSIGNED CHECK(A > 0)".toList =
    "INT UNSIGNED CHECK(A > 0)".toList := by decide

end SchemaPlan.MySql
