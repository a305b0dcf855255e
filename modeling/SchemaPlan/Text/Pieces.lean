/-!
# Cutting texts into pieces

Splitting a text at separators, cutting it at the first occurrence of a character, and replacing
every occurrence of a word, all on lists of characters. `joinWith_pieces` says that splitting loses
nothing: joining the pieces again gives the text back.
-/
namespace SchemaPlan.Text

/-- The pieces between the separators: always one more than there are separators. -/
def pieces (isSeparator : Char → Bool) : List Char → List (List Char)
  | [] => [[]]
  | c :: rest =>
    if isSeparator c then [] :: pieces isSeparator rest
    else
      match pieces isSeparator rest with
      | [] => [[c]]
      | piece :: more => (c :: piece) :: more

def joinWith (separator : List Char) : List (List Char) → List Char
  | [] => []
  | [piece] => piece
  | piece :: more => piece ++ separator ++ joinWith separator more

/-- The parts before and after the first occurrence of a character. -/
def cutAt (mark : Char) : List Char → Option (List Char × List Char)
  | [] => none
  | c :: rest =>
    if c = mark then some ([], rest)
    else (cutAt mark rest).map fun (before, after) => (c :: before, after)

/-- The parts before and after the last occurrence of a character. -/
def cutAtLast (mark : Char) (cs : List Char) : Option (List Char × List Char) :=
  (cutAt mark cs.reverse).map fun (after, before) => (before.reverse, after.reverse)

/-- The text behind a word at its start. -/
def afterWord? : (word cs : List Char) → Option (List Char)
  | [], cs => some cs
  | _ :: _, [] => none
  | w :: word, c :: cs => if w = c then afterWord? word cs else none

/-- The text in front of a word at its end. -/
def beforeWord? (word cs : List Char) : Option (List Char) :=
  (afterWord? word.reverse cs.reverse).map List.reverse

def occursIn (word : List Char) : List Char → Bool
  | [] => word.isEmpty
  | c :: rest => word.isPrefixOf (c :: rest) || occursIn word rest

/-- Walks through a text that still has `skip` characters of a replaced word in front. -/
def replaceFrom (word by_ : List Char) : Nat → List Char → List Char
  | _, [] => []
  | skip + 1, _ :: rest => replaceFrom word by_ skip rest
  | 0, c :: rest =>
    if word.isPrefixOf (c :: rest) then by_ ++ replaceFrom word by_ (word.length - 1) rest
    else c :: replaceFrom word by_ 0 rest

/-- The text with every occurrence of a non-empty word replaced, from left to right and without
looking into what was put in. -/
def replaceWord (word by_ cs : List Char) : List Char :=
  replaceFrom word by_ 0 cs

theorem pieces_ne_nil (p : Char → Bool) (cs : List Char) : pieces p cs ≠ [] := by
  cases cs with
  | nil => simp [pieces]
  | cons c rest =>
    unfold pieces
    split
    · simp
    · split <;> simp

/-- Splitting at a character and joining with it gives the text back. -/
theorem joinWith_pieces (mark : Char) (cs : List Char) :
    joinWith [mark] (pieces (· == mark) cs) = cs := by
  induction cs with
  | nil => rfl
  | cons c rest ih =>
    unfold pieces
    cases hp : pieces (· == mark) rest with
    | nil => exact absurd hp (pieces_ne_nil _ _)
    | cons piece more =>
      rw [hp] at ih
      by_cases hc : c = mark
      · simp [hc, joinWith, ih]
      · simp only [beq_iff_eq, hc, if_false]
        cases more with
        | nil => simpa [joinWith] using ih
        | cons next others => simpa [joinWith] using ih

/-- A cut gives the two parts around one occurrence of the character. -/
theorem eq_of_cutAt {mark : Char} {cs before after : List Char}
    (h : cutAt mark cs = some (before, after)) : cs = before ++ mark :: after := by
  induction cs generalizing before with
  | nil => simp [cutAt] at h
  | cons c rest ih =>
    unfold cutAt at h
    split at h
    · next hc => simp at h; simp [← h.1, ← h.2, hc]
    · simp only [Option.map_eq_some_iff] at h
      obtain ⟨⟨b, a⟩, hb, he⟩ := h
      simp only [Prod.mk.injEq] at he
      rw [← he.1, ih (he.2 ▸ hb)]
      rfl

theorem eq_of_afterWord? {word cs rest : List Char} (h : afterWord? word cs = some rest) :
    cs = word ++ rest := by
  fun_induction afterWord? word cs with
  | case1 cs => simpa using h
  | case2 => cases h
  | case3 word c cs ih => simp [ih h]
  | case4 => cases h

theorem eq_of_beforeWord? {word cs rest : List Char} (h : beforeWord? word cs = some rest) :
    cs = rest ++ word := by
  obtain ⟨r, hr, rfl⟩ := Option.map_eq_some_iff.1 h
  have := congrArg List.reverse (eq_of_afterWord? hr)
  simpa using this

example : pieces (· == ',') "a,,b".toList = ["a".toList, [], "b".toList] := by decide
example : cutAtLast '(' "a(b(c".toList = some ("a(b".toList, "c".toList) := by decide
example : replaceWord "()".toList [] "f()(()".toList = "f(".toList := by decide

end SchemaPlan.Text
