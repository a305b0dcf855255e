import Mathlib.Data.List.Forall2
import SchemaPlan.Json.Reader
import SchemaPlan.Json.Writer

/-!
# The grammar of JSON

Which texts stand for a JSON value. Blanks may stand around every value, key, comma and colon; a
character of a string stands for itself or is escaped; a number is spelled by its digits. The
grammar says nothing of how a text is read.

* `CharText`, `StringText`: the texts of a character in a string and of a string.
* `Number.Spells`: the spellings of a number.
* `TextOf`, `IsText`: the texts of a value, without and with blanks around it.
* `isText_compact`: what is written for a value is a text of it.
-/
namespace SchemaPlan.Json

open Decimal

/-- Blanks. -/
def Gap (text : List Char) : Prop :=
  ∀ c ∈ text, isGap c = true

/-! ## Strings -/

/-- The letters behind a backslash, and what they stand for. -/
def escapes : List (Char × Char) :=
  [('"', '"'), ('\\', '\\'), ('/', '/'), ('b', Char.ofNat 8), ('f', Char.ofNat 12), ('n', '\n'),
    ('r', '\r'), ('t', '\t')]

/-- Four hexadecimal digits of a number. -/
def IsUnit (n : Nat) (digits : List Char) : Prop :=
  digits.length = 4 ∧
    (digits.mapM hexDigit?).map (fun values => values.foldl (fun n v => 16 * n + v) 0) = some n

instance (n : Nat) (digits : List Char) : Decidable (IsUnit n digits) :=
  inferInstanceAs (Decidable (_ ∧ _))

/-- The texts of a character in a string: itself, if it is neither a quote nor a backslash nor a
control character, a backslash with a letter, or its code units in hexadecimal digits. -/
inductive CharText : Char → List Char → Prop
  | itself {c : Char} (quote : c ≠ '"') (backslash : c ≠ '\\') (control : 0x20 ≤ c.toNat) :
    CharText c [c]
  | escaped {letter c : Char} (h : (letter, c) ∈ escapes) : CharText c ['\\', letter]
  | unit {n : Nat} {digits : List Char} (h : IsUnit n digits) (hn : n < 0xD800 ∨ 0xDFFF < n) :
    CharText (Char.ofNat n) ('\\' :: 'u' :: digits)
  | units {high low : Nat} {first second : List Char} (hfirst : IsUnit high first)
    (hsecond : IsUnit low second) (hhigh : 0xD800 ≤ high ∧ high ≤ 0xDBFF)
    (hlow : 0xDC00 ≤ low ∧ low ≤ 0xDFFF) :
    CharText (Char.ofNat (0x10000 + (high - 0xD800) * 0x400 + (low - 0xDC00)))
      ('\\' :: 'u' :: first ++ '\\' :: 'u' :: second)

def StringText (s : String) (text : List Char) : Prop :=
  ∃ parts, List.Forall₂ CharText s.toList parts ∧ text = '"' :: (parts.flatten ++ ['"'])

/-! ## Numbers -/

/-- The spellings of an exponent: a letter, a sign, of which plus may be left out, and digits. -/
inductive ExponentText : Option (Bool × List Char) → List Char → Prop
  | none : ExponentText none []
  | signed {letter sign : Char} {digits : List Char} (hletter : letter = 'e' ∨ letter = 'E')
    (hsign : sign = '-' ∨ sign = '+') (hdigits : isNumeral digits = true) :
    ExponentText (some (sign == '-', digits)) (letter :: sign :: digits)
  | unsigned {letter : Char} {digits : List Char} (hletter : letter = 'e' ∨ letter = 'E')
    (hdigits : isNumeral digits = true) :
    ExponentText (some (false, digits)) (letter :: digits)

/-- The spellings of a number: a sign, whole digits that start with zero only if that is all of
them, a point with digits behind it, if there are any, and an exponent. -/
structure Number.Spells (number : Number) (text : List Char) : Prop where
  whole : isNumeral number.whole = true
  zero : number.whole.head? = some '0' → number.whole = ['0']
  fraction : ∀ c ∈ number.fraction, c.isDigit = true
  parts : ∃ exponent, ExponentText number.exponent exponent ∧
    text = (if number.negative then ['-'] else []) ++ (number.whole ++
      ((if number.fraction = [] then [] else '.' :: number.fraction) ++ exponent))

/-! ## Values -/

mutual

/-- The texts of a value, without blanks around it. -/
inductive TextOf : Json → List Char → Prop
  | null : TextOf .null "null".toList
  | true : TextOf (.bool true) "true".toList
  | false : TextOf (.bool false) "false".toList
  | number {number : Number} {text : List Char} (h : number.Spells text) :
    TextOf (.number number) text
  | text {s : String} {text : List Char} (h : StringText s text) : TextOf (.text s) text
  | list {items : List Json} {inside : List Char} (h : ItemsText items inside) :
    TextOf (.list items) ('[' :: inside)
  | object {members : List (String × Json)} {inside : List Char} (h : MembersText members inside) :
    TextOf (.object members) ('\x7b' :: inside)

/-- What stands behind the opening bracket of a list, up to the closing one. -/
inductive ItemsText : List Json → List Char → Prop
  | none {gap : List Char} (hgap : Gap gap) : ItemsText [] (gap ++ [']'])
  | some {gap text more : List Char} {item : Json} {rest : List Json} (hgap : Gap gap)
    (hitem : TextOf item text) (hrest : MoreItems rest more) :
    ItemsText (item :: rest) (gap ++ (text ++ more))

inductive MoreItems : List Json → List Char → Prop
  | none {gap : List Char} (hgap : Gap gap) : MoreItems [] (gap ++ [']'])
  | some {before gap text more : List Char} {item : Json} {rest : List Json}
    (hbefore : Gap before) (hgap : Gap gap) (hitem : TextOf item text)
    (hrest : MoreItems rest more) :
    MoreItems (item :: rest) (before ++ ',' :: (gap ++ (text ++ more)))

/-- What stands behind the opening brace of an object, up to the closing one. -/
inductive MembersText : List (String × Json) → List Char → Prop
  | none {gap : List Char} (hgap : Gap gap) : MembersText [] (gap ++ ['\x7d'])
  | some {gap text more : List Char} {key : String} {value : Json} {rest : List (String × Json)}
    (hgap : Gap gap) (hmember : MemberText key value text) (hrest : MoreMembers rest more) :
    MembersText ((key, value) :: rest) (gap ++ (text ++ more))

inductive MoreMembers : List (String × Json) → List Char → Prop
  | none {gap : List Char} (hgap : Gap gap) : MoreMembers [] (gap ++ ['\x7d'])
  | some {before gap text more : List Char} {key : String} {value : Json}
    {rest : List (String × Json)} (hbefore : Gap before) (hgap : Gap gap)
    (hmember : MemberText key value text) (hrest : MoreMembers rest more) :
    MoreMembers ((key, value) :: rest) (before ++ ',' :: (gap ++ (text ++ more)))

inductive MemberText : String → Json → List Char → Prop
  | intro {key : String} {value : Json} {name before after text : List Char}
    (hkey : StringText key name) (hbefore : Gap before) (hafter : Gap after)
    (hvalue : TextOf value text) :
    MemberText key value (name ++ (before ++ ':' :: (after ++ text)))

end

/-- The texts of a value. -/
def IsText (value : Json) (text : String) : Prop :=
  ∃ before inside after, Gap before ∧ TextOf value inside ∧ Gap after ∧
    text.toList = before ++ (inside ++ after)

mutual

def numbers : Json → List Number
  | .number n => [n]
  | .list items => itemNumbers items
  | .object members => memberNumbers members
  | _ => []

def itemNumbers : List Json → List Number
  | [] => []
  | item :: rest => numbers item ++ itemNumbers rest

def memberNumbers : List (String × Json) → List Number
  | [] => []
  | (_, value) :: rest => numbers value ++ memberNumbers rest

end

theorem mem_itemNumbers {n : Number} {items : List Json} :
    n ∈ itemNumbers items ↔ ∃ item ∈ items, n ∈ numbers item := by
  induction items with
  | nil => simp [itemNumbers]
  | cons item rest ih => simp [itemNumbers, ih]

theorem mem_memberNumbers {n : Number} {members : List (String × Json)} :
    n ∈ memberNumbers members ↔ ∃ member ∈ members, n ∈ numbers member.2 := by
  induction members with
  | nil => simp [memberNumbers]
  | cons member rest ih => simp only [memberNumbers, List.mem_append, List.exists_mem_cons_iff, ih]

/-! ## Written values -/

theorem gap_nil : Gap [] := nofun

theorem isUnit_hexFour : ∀ n < 0x20, IsUnit n (hexFour n) := by decide +kernel

theorem charText_written (c : Char) : CharText c (writtenChar c) := by
  have hcode {n : Nat} (h : c.toNat = n) : c = Char.ofNat n := by rw [← h, Char.ofNat_toNat]
  unfold writtenChar
  split
  · next h =>
    simp only [Bool.or_eq_true, decide_eq_true_eq] at h
    rcases h with rfl | rfl
    · exact .escaped (by decide)
    · exact .escaped (by decide)
  · next hplain =>
    simp only [Bool.or_eq_true, decide_eq_true_eq, not_or] at hplain
    split
    · next h => exact h ▸ .escaped (by decide)
    split
    · next h => exact h ▸ .escaped (by decide)
    split
    · next h => exact h ▸ .escaped (by decide)
    split
    · next h => exact hcode h ▸ .escaped (by decide)
    split
    · next h => exact hcode h ▸ .escaped (by decide)
    split
    · next h =>
      have hunit := CharText.unit (isUnit_hexFour c.toNat h) (by omega)
      rwa [Char.ofNat_toNat] at hunit
    · next h => exact .itself hplain.1 hplain.2 (by omega)

theorem stringText_written (s : String) : StringText s (writtenText s) := by
  refine ⟨s.toList.map writtenChar, ?_, ?_⟩
  · rw [List.forall₂_map_right_iff, List.forall₂_same]
    exact fun c _ => charText_written c
  · rw [writtenText, List.flatMap]
    rfl

theorem spells_ofNat (n : Nat) : (Number.ofNat n).Spells (Number.ofNat n).spelling := by
  refine ⟨isNumeral_digits n, fun hzero => ?_, by simp [Number.ofNat], [], .none, ?_⟩
  · have hn : n = 0 := by
      by_contra hne
      exact head?_digits (Nat.pos_of_ne_zero hne) hzero
    rw [hn]
    rfl
  · simp [Number.ofNat, Number.spelling, signed]

theorem withCommas_cons (text : List Char) (rest : List (List Char)) :
    withCommas (text :: rest) = text ++ rest.flatMap (',' :: ·) := by
  induction rest generalizing text with
  | nil => simp [withCommas]
  | cons next rest ih => simp [withCommas, ih]

theorem memberText_write (key : String) {value : Json} {text : List Char}
    (h : TextOf value text) : MemberText key value (writtenText key ++ ':' :: text) :=
  @MemberText.intro key value _ [] [] text (stringText_written key) gap_nil gap_nil h

mutual

/-- What is written for a value is a text of it, if its numbers are spelled as they are. -/
theorem textOf_write : (value : Json) → (∀ n ∈ numbers value, n.Spells n.spelling) →
    TextOf value (write value)
  | .null, _ => .null
  | .bool true, _ => .true
  | .bool false, _ => .false
  | .number n, h => .number (h n (by simp [numbers]))
  | .text s, _ => .text (stringText_written s)
  | .list items, h => by
    have hitems := itemsText_write items h
    rw [write]
    exact .list hitems
  | .object members, h => by
    have hmembers := membersText_write members h
    rw [write]
    exact .object hmembers

theorem itemsText_write : (items : List Json) → (∀ n ∈ itemNumbers items, n.Spells n.spelling) →
    ItemsText items (withCommas (writeItems items) ++ [']'])
  | [], _ => .none gap_nil
  | item :: rest, h => by
    have hitem := textOf_write item fun n hn => h n (by simp [itemNumbers, hn])
    have hrest := moreItems_write rest fun n hn => h n (by simp [itemNumbers, hn])
    rw [writeItems, withCommas_cons, List.append_assoc]
    exact @ItemsText.some [] _ _ _ _ gap_nil hitem hrest

theorem moreItems_write : (items : List Json) → (∀ n ∈ itemNumbers items, n.Spells n.spelling) →
    MoreItems items ((writeItems items).flatMap (',' :: ·) ++ [']'])
  | [], _ => .none gap_nil
  | item :: rest, h => by
    have hitem := textOf_write item fun n hn => h n (by simp [itemNumbers, hn])
    have hrest := moreItems_write rest fun n hn => h n (by simp [itemNumbers, hn])
    rw [writeItems, List.flatMap_cons, List.append_assoc]
    exact @MoreItems.some [] [] _ _ _ _ gap_nil gap_nil hitem hrest

theorem membersText_write : (members : List (String × Json)) →
    (∀ n ∈ memberNumbers members, n.Spells n.spelling) →
    MembersText members (withCommas (writeMembers members) ++ ['\x7d'])
  | [], _ => .none gap_nil
  | (key, value) :: rest, h => by
    have hvalue := textOf_write value fun n hn => h n (by simp [memberNumbers, hn])
    have hrest := moreMembers_write rest fun n hn => h n (by simp [memberNumbers, hn])
    rw [writeMembers, withCommas_cons, List.append_assoc]
    exact @MembersText.some [] _ _ _ _ _ gap_nil (memberText_write key hvalue) hrest

theorem moreMembers_write : (members : List (String × Json)) →
    (∀ n ∈ memberNumbers members, n.Spells n.spelling) →
    MoreMembers members ((writeMembers members).flatMap (',' :: ·) ++ ['\x7d'])
  | [], _ => .none gap_nil
  | (key, value) :: rest, h => by
    have hvalue := textOf_write value fun n hn => h n (by simp [memberNumbers, hn])
    have hrest := moreMembers_write rest fun n hn => h n (by simp [memberNumbers, hn])
    rw [writeMembers, List.flatMap_cons, List.append_assoc]
    exact @MoreMembers.some [] [] _ _ _ _ _ gap_nil gap_nil (memberText_write key hvalue) hrest

end

/-- The compact text of a value is a text of it. -/
theorem isText_compact {value : Json} (h : ∀ n ∈ numbers value, n.Spells n.spelling) :
    IsText value (compact value) :=
  ⟨[], write value, [], gap_nil, textOf_write value h, gap_nil, by
    rw [compact, String.toList_ofList, List.append_nil]
    rfl⟩

end SchemaPlan.Json
