import SchemaPlan.Proofs.JsonGrammar

/-!
# Reading JSON texts

The reader gives the value of each of its texts, provided that it can hold the numbers in it. Where
it stands in a text shows in the stack of open lists and objects, so what is read of a text is
stated for any stack and any rest of the text.

* `scanText_stringText`, `Number.scan_spells`: strings and numbers are read at the start of a text.
* `readFrom_textOf`: a value is read, and the reader goes on behind it.
* `read_of_isText`: reading any text of a value.
-/
namespace SchemaPlan.Json

open Decimal

/-! ## Strings -/

theorem scanUnit_of_isUnit {n : Nat} {digits : List Char} (h : IsUnit n digits)
    (rest : List Char) : scanUnit (digits ++ rest) = .ok (n, rest) := by
  obtain ⟨hlength, hvalue⟩ := h
  match digits, hlength with
  | [a, b, c, d], _ =>
    obtain ⟨values, hvalues, rfl⟩ := Option.map_eq_some_iff.1 hvalue
    simp only [List.cons_append, List.nil_append, scanUnit, hvalues]

theorem scanEscape_letter {letter c : Char} (h : (letter, c) ∈ escapes) (rest : List Char) :
    scanEscape (letter :: rest) = .ok (c, rest) := by
  simp only [escapes, List.mem_cons, Prod.mk.injEq, List.not_mem_nil, or_false] at h
  rcases h with ⟨rfl, rfl⟩ | ⟨rfl, rfl⟩ | ⟨rfl, rfl⟩ | ⟨rfl, rfl⟩ | ⟨rfl, rfl⟩ | ⟨rfl, rfl⟩ |
    ⟨rfl, rfl⟩ | ⟨rfl, rfl⟩ <;> rfl

theorem scanEscape_u (rest : List Char) :
    scanEscape ('u' :: rest) = (do
      let (unit, rest) ← scanUnit rest
      if 0xD800 ≤ unit && unit ≤ 0xDBFF then
        let (low, rest) ← scanLowUnit rest
        .ok (Char.ofNat (0x10000 + (unit - 0xD800) * 0x400 + (low - 0xDC00)), rest)
      else if 0xDC00 ≤ unit && unit ≤ 0xDFFF then .error .malformed
      else .ok (Char.ofNat unit, rest)) := rfl

theorem scanEscape_unit {n : Nat} {digits : List Char} (h : IsUnit n digits)
    (hn : n < 0xD800 ∨ 0xDFFF < n) (rest : List Char) :
    scanEscape ('u' :: (digits ++ rest)) = .ok (Char.ofNat n, rest) := by
  rw [scanEscape_u, scanUnit_of_isUnit h]
  simp only [bind, Except.bind, Bool.and_eq_true, decide_eq_true_eq]
  rw [if_neg (by omega), if_neg (by omega)]

theorem scanEscape_units {high low : Nat} {first second : List Char} (hfirst : IsUnit high first)
    (hsecond : IsUnit low second) (hhigh : 0xD800 ≤ high ∧ high ≤ 0xDBFF)
    (hlow : 0xDC00 ≤ low ∧ low ≤ 0xDFFF) (rest : List Char) :
    scanEscape ('u' :: (first ++ '\\' :: 'u' :: (second ++ rest))) =
      .ok (Char.ofNat (0x10000 + (high - 0xD800) * 0x400 + (low - 0xDC00)), rest) := by
  have hscan : scanLowUnit ('\\' :: 'u' :: (second ++ rest)) = .ok (low, rest) := by
    rw [scanLowUnit, scanUnit_of_isUnit hsecond]
    simp only [bind, Except.bind, Bool.and_eq_true, decide_eq_true_eq]
    rw [if_pos hlow]
  rw [scanEscape_u, scanUnit_of_isUnit hfirst]
  simp only [bind, Except.bind, Bool.and_eq_true, decide_eq_true_eq]
  rw [if_pos hhigh, hscan]

theorem scanText_escape {x : Char} {rest after : List Char}
    (h : scanEscape rest = .ok (x, after)) :
    scanText ('\\' :: rest) = (scanText after).map fun (xs, last) => (x :: xs, last) := by
  rw [scanText, if_neg (by decide), if_pos rfl]
  split
  · next hfault =>
    rw [h] at hfault
    cases hfault
  · next hfound =>
    rw [h] at hfound
    cases hfound
    rfl

theorem scanText_charText {c : Char} {text : List Char} (h : CharText c text) (rest : List Char) :
    scanText (text ++ rest) = (scanText rest).map fun (xs, last) => (c :: xs, last) := by
  cases h with
  | itself hquote hbackslash hcontrol =>
    rw [List.singleton_append, scanText, if_neg hquote, if_neg hbackslash, if_neg (by omega)]
  | escaped h => exact scanText_escape (scanEscape_letter h rest)
  | unit h hn => exact scanText_escape (scanEscape_unit h hn rest)
  | units hfirst hsecond hhigh hlow =>
    have hunits := scanText_escape (scanEscape_units hfirst hsecond hhigh hlow rest)
    refine (congrArg scanText ?_).trans hunits
    simp only [List.cons_append, List.append_assoc]

theorem scanText_flatten {cs : List Char} {parts : List (List Char)}
    (h : List.Forall₂ CharText cs parts) (rest : List Char) :
    scanText (parts.flatten ++ '"' :: rest) = .ok (cs, rest) := by
  induction h with
  | nil =>
    rw [List.flatten_nil, List.nil_append, scanText, if_pos rfl]
  | cons hchar _ ih =>
    rw [List.flatten_cons, List.append_assoc, scanText_charText hchar, ih]
    rfl

theorem scanText_stringText {s : String} {text : List Char} (h : StringText s text)
    (rest : List Char) :
    ∃ inside, text ++ rest = '"' :: inside ∧ scanText inside = .ok (s.toList, rest) := by
  obtain ⟨parts, hparts, rfl⟩ := h
  refine ⟨parts.flatten ++ '"' :: rest, by simp, scanText_flatten hparts rest⟩

/-! ## Numbers -/

/-- A text that does not go on with a number. -/
def Ends (rest : List Char) : Prop :=
  ∀ c ∈ rest.head?, c.isDigit = false ∧ c ≠ '.' ∧ c ≠ 'e' ∧ c ≠ 'E'

theorem not_isDigit_of_isGap {c : Char} (h : isGap c = true) :
    c.isDigit = false ∧ c ≠ '.' ∧ c ≠ 'e' ∧ c ≠ 'E' := by
  simp only [isGap, Bool.or_eq_true, decide_eq_true_eq] at h
  rcases h with ((rfl | rfl) | rfl) | rfl <;> decide

theorem ends_gap {gap rest : List Char} (hgap : Gap gap) (hrest : Ends rest) :
    Ends (gap ++ rest) := by
  cases gap with
  | nil => exact hrest
  | cons c gap =>
    intro first hfirst
    obtain rfl : c = first := by simpa using hfirst
    exact not_isDigit_of_isGap (hgap c List.mem_cons_self)

theorem exists_digit_of_isNumeral {digits : List Char} (h : isNumeral digits = true) :
    ∃ c rest, digits = c :: rest ∧ c.isDigit = true := by
  rw [isNumeral, Bool.and_eq_true, List.all_eq_true] at h
  obtain ⟨c, rest, rfl⟩ := List.exists_cons_of_ne_nil (by simpa using h.1)
  exact ⟨c, rest, rfl, h.2 c List.mem_cons_self⟩

theorem scanDigits_append {found rest : List Char} (hfound : isNumeral found = true)
    (hrest : ∀ c ∈ rest.head?, c.isDigit = false) :
    scanDigits (found ++ rest) = .ok (found, rest) := by
  rw [isNumeral, Bool.and_eq_true, List.all_eq_true] at hfound
  obtain ⟨hne, hdigits⟩ := hfound
  have htake : rest.takeWhile Char.isDigit = [] ∧ rest.dropWhile Char.isDigit = rest := by
    cases rest with
    | nil => exact ⟨rfl, rfl⟩
    | cons c rest =>
      have hc := hrest c (by simp)
      simp [hc]
  rw [scanDigits, List.takeWhile_append_of_pos hdigits, List.dropWhile_append_of_pos hdigits,
    htake.1, htake.2, List.append_nil]
  rw [if_neg (by simpa using hne)]

theorem scanWhole_append {number : Number} {text rest : List Char} (h : number.Spells text)
    (hrest : ∀ c ∈ rest.head?, c.isDigit = false) :
    scanWhole (number.whole ++ rest) = .ok (number.whole, rest) := by
  by_cases hzero : number.whole.head? = some '0'
  · rw [h.zero hzero, List.singleton_append, scanWhole, if_neg]
    cases rest with
    | nil => simp
    | cons c rest =>
      have hc := hrest c (by simp)
      simp [hc]
  · have hother : scanWhole (number.whole ++ rest) = scanDigits (number.whole ++ rest) := by
      obtain ⟨c, digits, hdigits, -⟩ := exists_digit_of_isNumeral h.whole
      rw [hdigits] at hzero ⊢
      rw [List.cons_append, scanWhole]
      intro rest' heq
      exact hzero (by simp [(List.cons.inj heq).1])
    rw [hother, scanDigits_append h.whole hrest]

/-- What follows the digits of a fraction. -/
theorem scanFraction_append {fraction rest : List Char}
    (hfraction : ∀ c ∈ fraction, c.isDigit = true)
    (hrest : ∀ c ∈ rest.head?, c.isDigit = false ∧ c ≠ '.') :
    scanFraction ((if fraction = [] then [] else '.' :: fraction) ++ rest) =
      .ok (fraction, rest) := by
  split
  · next hnil =>
    rw [hnil, List.nil_append]
    cases rest with
    | nil => rfl
    | cons c rest =>
      have hc := (hrest c (by simp)).2
      rw [scanFraction]
      intro rest' heq
      exact hc (List.cons.inj heq).1
  · next hne =>
    have hdigits : isNumeral fraction = true := by
      rw [isNumeral, Bool.and_eq_true, List.all_eq_true]
      exact ⟨by simpa using hne, hfraction⟩
    rw [List.cons_append, scanFraction]
    exact scanDigits_append hdigits fun c hc => (hrest c hc).1

theorem splitSign_numeral {digits : List Char} (h : isNumeral digits = true) (rest : List Char) :
    splitSign (digits ++ rest) = (false, digits ++ rest) := by
  obtain ⟨c, more, rfl, hdigit⟩ := exists_digit_of_isNumeral h
  rw [List.cons_append, splitSign]
  · rintro rest' heq
    rw [(List.cons.inj heq).1] at hdigit
    cases hdigit
  · rintro rest' heq
    rw [(List.cons.inj heq).1] at hdigit
    cases hdigit

theorem scanExponent_append {exponent : Option (Bool × List Char)} {text rest : List Char}
    (h : ExponentText exponent text) (hrest : Ends rest) :
    scanExponent (text ++ rest) = .ok (exponent, rest) := by
  have hscan {letter : Char} {negative : Bool} {digits after : List Char}
      (hletter : letter = 'e' ∨ letter = 'E') (hnumeral : isNumeral digits = true)
      (hsplit : splitSign after = (negative, digits ++ rest)) :
      scanExponent (letter :: after) = .ok (some (negative, digits), rest) := by
    rw [scanExponent, if_pos (by simpa using hletter), hsplit]
    dsimp only
    rw [scanDigits_append hnumeral fun c hc => (hrest c hc).1]
    rfl
  cases h with
  | none =>
    cases rest with
    | nil => rfl
    | cons c rest =>
      obtain ⟨-, -, he, hE⟩ := hrest c (by simp)
      rw [List.nil_append, scanExponent, if_neg (by simp [he, hE])]
  | signed hletter hsign hnumeral =>
    rcases hsign with rfl | rfl
    · exact hscan hletter hnumeral rfl
    · exact hscan hletter hnumeral rfl
  | unsigned hletter hnumeral => exact hscan hletter hnumeral (splitSign_numeral hnumeral rest)

theorem ends_exponent {exponent : Option (Bool × List Char)} {text rest : List Char}
    (h : ExponentText exponent text) (hrest : Ends rest) :
    ∀ c ∈ (text ++ rest).head?, c.isDigit = false ∧ c ≠ '.' := by
  have hletter {letter : Char} (h : letter = 'e' ∨ letter = 'E') :
      letter.isDigit = false ∧ letter ≠ '.' := by
    rcases h with rfl | rfl <;> decide
  cases h with
  | none => exact fun c hc => ⟨(hrest c hc).1, (hrest c hc).2.1⟩
  | signed h => simpa using hletter h
  | unsigned h => simpa using hletter h

/-- A number is read at the start of a text, if the reader can hold it. -/
theorem Number.scan_spells {number : Number} {text rest : List Char} (h : number.Spells text)
    (hrest : Ends rest) :
    Number.scan (text ++ rest) =
      if number.isReadable then .ok (number, rest) else .error .malformed := by
  obtain ⟨exponent, hexponent, rfl⟩ := h.parts
  have hafter := ends_exponent hexponent hrest
  have hpoint : ∀ c ∈ ((if number.fraction = [] then [] else '.' :: number.fraction) ++
      (exponent ++ rest)).head?, c.isDigit = false := by
    split
    · exact fun c hc => (hafter c hc).1
    · simp
  have hminus : splitMinus ((if number.negative then ['-'] else []) ++ (number.whole ++
      ((if number.fraction = [] then [] else '.' :: number.fraction) ++ (exponent ++ rest)))) =
      (number.negative, number.whole ++
        ((if number.fraction = [] then [] else '.' :: number.fraction) ++ (exponent ++ rest))) := by
    cases number.negative with
    | true => rfl
    | false =>
      obtain ⟨c, more, hwhole, hdigit⟩ := exists_digit_of_isNumeral h.whole
      rw [hwhole, if_neg (by decide), List.nil_append, List.cons_append, splitMinus]
      rintro rest' heq
      rw [(List.cons.inj heq).1] at hdigit
      cases hdigit
  simp only [List.append_assoc]
  unfold Number.scan
  rw [hminus]
  simp only [bind, Except.bind]
  rw [scanWhole_append h hpoint]
  dsimp only
  rw [scanFraction_append h.fraction hafter]
  dsimp only
  rw [scanExponent_append hexponent hrest]

@[simp] theorem natural?_ofNat (n : Nat) : (Number.ofNat n).natural? = some n := by
  simp [Number.natural?, Number.ofNat, Number.isIntegral]

theorem isReadable_of_natural? {number : Number} {n : Nat} (h : number.natural? = some n)
    (hn : n < UInt64.size) : number.isReadable = true := by
  unfold Number.natural? at h
  split at h
  · next hplain =>
    cases h
    rw [Bool.and_eq_true, Bool.not_eq_true'] at hplain
    have hlt : digitsValue number.whole < bound64 := hn
    simp [Number.isReadable, Number.fitsWord, hplain, hlt]
  · cases h

/-! ## The steps of the reader -/

section
variable {expect next : Expect} {stack outer : List OpenValue} {c : Char} {rest after : List Char}

theorem readFrom_step (hgap : isGap c = false)
    (h : advance expect stack c rest = .ok (next, outer, after)) :
    readFrom expect stack (c :: rest) = readFrom next outer after := by
  rw [readFrom, if_neg (by simp [hgap])]
  split
  · next hfault =>
    rw [h] at hfault
    cases hfault
  · next hfound =>
    rw [h] at hfound
    cases hfound
    rfl

theorem readFrom_fault {fault : Fault} (hgap : isGap c = false)
    (h : advance expect stack c rest = .error fault) :
    readFrom expect stack (c :: rest) = .error fault := by
  rw [readFrom, if_neg (by simp [hgap])]
  split
  · next hfault =>
    rw [h] at hfault
    cases hfault
    rfl
  · next hfound =>
    rw [h] at hfound
    cases hfound

/-- States in which the next character does the same read on alike. -/
theorem readFrom_congr {expect' : Expect} {stack' : List OpenValue} (hgap : isGap c = false)
    (h : advance expect stack c rest = advance expect' stack' c rest) :
    readFrom expect stack (c :: rest) = readFrom expect' stack' (c :: rest) := by
  cases hnext : advance expect stack c rest with
  | error fault => rw [readFrom_fault hgap hnext, readFrom_fault hgap (h.symm.trans hnext)]
  | ok p =>
    obtain ⟨next, outer, after⟩ := p
    rw [readFrom_step hgap hnext, readFrom_step hgap (h.symm.trans hnext)]

theorem readFrom_gap {gap : List Char} (hgap : Gap gap) (rest : List Char) :
    readFrom expect stack (gap ++ rest) = readFrom expect stack rest := by
  induction gap with
  | nil => rfl
  | cons c gap ih =>
    rw [List.cons_append, readFrom, if_pos (hgap c List.mem_cons_self)]
    exact ih fun other hother => hgap other (List.mem_cons_of_mem _ hother)

end

theorem not_isGap_of_isDigit {c : Char} (h : c.isDigit = true) : isGap c = false := by
  cases hgap : isGap c with
  | false => rfl
  | true =>
    rw [(not_isDigit_of_isGap hgap).1] at h
    cases h

theorem exists_head_of_spells {number : Number} {text : List Char} (h : number.Spells text) :
    ∃ c inside, text = c :: inside ∧ (c = '-' ∨ c.isDigit = true) := by
  obtain ⟨exponent, -, rfl⟩ := h.parts
  obtain ⟨c, more, hwhole, hdigit⟩ := exists_digit_of_isNumeral h.whole
  rw [hwhole]
  cases number.negative with
  | true => exact ⟨'-', _, rfl, .inl rfl⟩
  | false => exact ⟨c, _, rfl, .inr hdigit⟩

theorem exists_head_of_textOf {value : Json} {text : List Char} (h : TextOf value text) :
    ∃ c inside, text = c :: inside ∧ isGap c = false ∧ c ≠ ']' := by
  cases h with
  | null => exact ⟨'n', _, rfl, rfl, by decide⟩
  | true => exact ⟨'t', _, rfl, rfl, by decide⟩
  | false => exact ⟨'f', _, rfl, rfl, by decide⟩
  | number h =>
    obtain ⟨c, inside, rfl, hc⟩ := exists_head_of_spells h
    rcases hc with rfl | hdigit
    · exact ⟨_, _, rfl, rfl, by decide⟩
    · refine ⟨c, inside, rfl, not_isGap_of_isDigit hdigit, ?_⟩
      rintro rfl
      cases hdigit
  | text h =>
    obtain ⟨parts, -, rfl⟩ := h
    exact ⟨'"', _, rfl, rfl, by decide⟩
  | list => exact ⟨'[', _, rfl, rfl, by decide⟩
  | object => exact ⟨'\x7b', _, rfl, rfl, by decide⟩

theorem scanScalar_number {c : Char} (hc : c = '-' ∨ c.isDigit = true) (rest : List Char) :
    scanScalar c rest =
      (Number.scan (c :: rest)).map fun (n, after) => (.number n, after) := by
  have hother {letter : Char} (hminus : letter ≠ '-') (hdigit : letter.isDigit = false) :
      c ≠ letter := by
    rintro rfl
    rcases hc with hc | hc
    · exact hminus hc
    · rw [hdigit] at hc
      cases hc
  rw [scanScalar, if_neg (hother (by decide) rfl), if_neg (hother (by decide) rfl),
    if_neg (hother (by decide) rfl), if_neg (hother (by decide) rfl), if_pos (by simpa using hc)]

/-! ## Values -/

theorem ends_moreItems {items : List Json} {more : List Char} (h : MoreItems items more)
    (rest : List Char) : Ends (more ++ rest) := by
  cases h with
  | none hgap =>
    rw [List.append_assoc]
    exact ends_gap hgap (by simp [Ends])
  | some hbefore =>
    rw [List.append_assoc]
    exact ends_gap hbefore (by simp [Ends])

theorem ends_moreMembers {members : List (String × Json)} {more : List Char}
    (h : MoreMembers members more) (rest : List Char) : Ends (more ++ rest) := by
  cases h with
  | none hgap =>
    rw [List.append_assoc]
    exact ends_gap hgap (by simp [Ends])
  | some hbefore =>
    rw [List.append_assoc]
    exact ends_gap hbefore (by simp [Ends])

/-- What comes of reading some numbers and then going on. -/
def afterNumbers (found : List Number) (next : Except Fault Json) : Except Fault Json :=
  if found.all Number.isReadable then next else .error .malformed

theorem afterNumbers_append (found others : List Number) (next : Except Fault Json) :
    afterNumbers (found ++ others) next = afterNumbers found (afterNumbers others next) := by
  unfold afterNumbers
  rw [List.all_append]
  cases found.all Number.isReadable <;> rfl

theorem readFrom_number {number : Number} {text rest : List Char} (h : number.Spells text)
    (stack : List OpenValue) (hrest : Ends rest) :
    readFrom .value stack (text ++ rest) =
      afterNumbers [number] (readFrom (.next (.number number)) stack rest) := by
  obtain ⟨c, inside, rfl, hc⟩ := exists_head_of_spells h
  have hscan := Number.scan_spells h hrest
  have hgap : isGap c = false := by
    rcases hc with rfl | hdigit
    · rfl
    · exact not_isGap_of_isDigit hdigit
  have hopen : c ≠ '[' ∧ c ≠ '\x7b' := by
    constructor <;> rintro rfl <;> rcases hc with hc | hc <;> cases hc
  have hadvance : advance .value stack c (inside ++ rest) =
      (Number.scan (c :: (inside ++ rest))).map fun (n, after) =>
        (.next (.number n), stack, after) := by
    rw [advance, startValue, if_neg hopen.1, if_neg hopen.2, scanScalar_number hc]
    cases Number.scan (c :: (inside ++ rest)) <;> rfl
  rw [List.cons_append] at hscan ⊢
  rw [hscan] at hadvance
  rw [afterNumbers, List.all_cons, List.all_nil, Bool.and_true]
  split
  · next hreadable =>
    rw [if_pos hreadable] at hadvance
    exact readFrom_step hgap hadvance
  · next hreadable =>
    rw [if_neg hreadable] at hadvance
    exact readFrom_fault hgap hadvance

theorem readFrom_text {s : String} {text : List Char} (h : StringText s text)
    (stack : List OpenValue) (rest : List Char) :
    readFrom .value stack (text ++ rest) = readFrom (.next (.text s)) stack rest := by
  obtain ⟨inside, hinside, hscan⟩ := scanText_stringText h rest
  rw [hinside]
  refine readFrom_step rfl ?_
  rw [advance, startValue, if_neg (by decide), if_neg (by decide), scanScalar, if_pos rfl, hscan]
  simp only [Except.map, String.ofList_toList]

theorem readFrom_key {key : String} {text : List Char} (h : StringText key text)
    (before : List (String × Json)) (stack : List OpenValue) (rest : List Char) :
    readFrom (.key before) stack (text ++ rest) = readFrom (.colon before key) stack rest := by
  obtain ⟨inside, hinside, hscan⟩ := scanText_stringText h rest
  rw [hinside]
  refine readFrom_step rfl ?_
  rw [advance, startKey, if_pos rfl, hscan]
  simp only [Except.map, String.ofList_toList]

/-- The reader passes over any text of a value and has the value, if its numbers can be held. -/
def Readable (value : Json) : Prop :=
  ∀ {text : List Char}, TextOf value text → ∀ (stack : List OpenValue) {rest : List Char},
    Ends rest → readFrom .value stack (text ++ rest) =
      afterNumbers (numbers value) (readFrom (.next value) stack rest)

theorem exists_head_of_memberText {key : String} {value : Json} {text : List Char}
    (h : MemberText key value text) : ∃ inside, text = '"' :: inside := by
  cases h with
  | intro hkey =>
    obtain ⟨parts, -, rfl⟩ := hkey
    exact ⟨_, rfl⟩

theorem readFrom_memberText {key : String} {value : Json} {text rest : List Char}
    (hvalue : Readable value) (h : MemberText key value text) (before : List (String × Json))
    (stack : List OpenValue) (hrest : Ends rest) :
    readFrom (.key before) stack (text ++ rest) =
      afterNumbers (numbers value) (readFrom (.next value) (.object before key :: stack) rest) := by
  cases h with
  | intro hkey hbefore hafter htext =>
    rw [List.append_assoc, readFrom_key hkey, List.append_assoc, readFrom_gap hbefore,
      List.cons_append, readFrom_step rfl rfl, List.append_assoc, readFrom_gap hafter]
    exact hvalue htext _ hrest

mutual

/-- A value is read at the start of a text, if its numbers can be held. -/
theorem readFrom_textOf : (value : Json) → Readable value
  | .null, _, h, stack, rest, _ => by
    cases h
    exact readFrom_step rfl rfl
  | .bool b, _, h, stack, rest, _ => by
    cases h with
    | true => exact readFrom_step rfl rfl
    | false => exact readFrom_step rfl rfl
  | .number n, _, h, stack, rest, hrest => by
    cases h with
    | number h => exact readFrom_number h stack hrest
  | .text s, _, h, stack, rest, _ => by
    cases h with
    | text h => exact readFrom_text h stack rest
  | .list items, _, h, stack, rest, _ => by
    cases h with
    | list h =>
      rw [List.cons_append, readFrom_step rfl rfl]
      exact readFrom_itemsText items h stack rest
  | .object members, _, h, stack, rest, _ => by
    cases h with
    | object h =>
      rw [List.cons_append, readFrom_step rfl rfl]
      exact readFrom_membersText members h stack rest

theorem readFrom_itemsText : (items : List Json) → {inside : List Char} →
    ItemsText items inside → (stack : List OpenValue) → (rest : List Char) →
    readFrom .firstItem stack (inside ++ rest) =
      afterNumbers (itemNumbers items) (readFrom (.next (.list items)) stack rest)
  | [], _, h, stack, rest => by
    cases h with
    | none hgap =>
      rw [List.append_assoc, readFrom_gap hgap]
      exact readFrom_step rfl rfl
  | item :: items, _, h, stack, rest => by
    cases h with
    | @some gap text more _ _ hgap hitem hrest =>
      have hvalue := readFrom_textOf item hitem (.list [] :: stack) (ends_moreItems hrest rest)
      rw [readFrom_moreItems items hrest [] item stack rest] at hvalue
      obtain ⟨c, inside, rfl, hc, hclose⟩ := exists_head_of_textOf hitem
      rw [List.append_assoc, readFrom_gap hgap, List.append_assoc, List.cons_append]
      rw [List.cons_append] at hvalue
      rw [itemNumbers, afterNumbers_append]
      refine (readFrom_congr hc ?_).trans hvalue
      exact if_neg hclose

theorem readFrom_moreItems : (items : List Json) → {more : List Char} → MoreItems items more →
    (before : List Json) → (value : Json) → (stack : List OpenValue) → (rest : List Char) →
    readFrom (.next value) (.list before :: stack) (more ++ rest) =
      afterNumbers (itemNumbers items)
        (readFrom (.next (.list (before.reverse ++ value :: items))) stack rest)
  | [], _, h, before, value, stack, rest => by
    cases h with
    | none hgap =>
      rw [List.append_assoc, readFrom_gap hgap, ← List.reverse_cons]
      exact readFrom_step rfl rfl
  | item :: items, _, h, before, value, stack, rest => by
    cases h with
    | some hgap hgap' hitem hrest =>
      rw [List.append_assoc, readFrom_gap hgap, List.cons_append, readFrom_step rfl rfl,
        List.append_assoc, readFrom_gap hgap', List.append_assoc,
        readFrom_textOf item hitem _ (ends_moreItems hrest rest),
        readFrom_moreItems items hrest (value :: before) item stack rest, itemNumbers,
        afterNumbers_append, List.reverse_cons, List.append_assoc]
      rfl

theorem readFrom_membersText : (members : List (String × Json)) → {inside : List Char} →
    MembersText members inside → (stack : List OpenValue) → (rest : List Char) →
    readFrom .firstKey stack (inside ++ rest) =
      afterNumbers (memberNumbers members) (readFrom (.next (.object members)) stack rest)
  | [], _, h, stack, rest => by
    cases h with
    | none hgap =>
      rw [List.append_assoc, readFrom_gap hgap]
      exact readFrom_step rfl rfl
  | (key, value) :: members, _, h, stack, rest => by
    cases h with
    | @some gap text more _ _ _ hgap hmember hrest =>
      have hvalue := readFrom_memberText (readFrom_textOf value) hmember [] stack
        (ends_moreMembers hrest rest)
      rw [readFrom_moreMembers members hrest [] key value stack rest] at hvalue
      obtain ⟨inside, rfl⟩ := exists_head_of_memberText hmember
      rw [List.append_assoc, readFrom_gap hgap, List.append_assoc, List.cons_append]
      rw [List.cons_append] at hvalue
      rw [memberNumbers, afterNumbers_append]
      exact (@readFrom_congr .firstKey stack '"' _ (.key []) stack rfl rfl).trans hvalue

theorem readFrom_moreMembers : (members : List (String × Json)) → {more : List Char} →
    MoreMembers members more → (before : List (String × Json)) → (key : String) →
    (value : Json) → (stack : List OpenValue) → (rest : List Char) →
    readFrom (.next value) (.object before key :: stack) (more ++ rest) =
      afterNumbers (memberNumbers members)
        (readFrom (.next (.object (before.reverse ++ (key, value) :: members))) stack rest)
  | [], _, h, before, key, value, stack, rest => by
    cases h with
    | none hgap =>
      rw [List.append_assoc, readFrom_gap hgap, ← List.reverse_cons]
      exact readFrom_step rfl rfl
  | (key', value') :: members, _, h, before, key, value, stack, rest => by
    cases h with
    | some hgap hgap' hmember hrest =>
      rw [List.append_assoc, readFrom_gap hgap, List.cons_append, readFrom_step rfl rfl,
        List.append_assoc, readFrom_gap hgap', List.append_assoc,
        readFrom_memberText (readFrom_textOf value') hmember _ _ (ends_moreMembers hrest rest),
        readFrom_moreMembers members hrest ((key, value) :: before) key' value' stack rest,
        memberNumbers, afterNumbers_append, List.reverse_cons, List.append_assoc]
      rfl

end

/-- Reading any text of a value gives the value, if its numbers can be held. -/
theorem read_of_isText {value : Json} {text : String} (h : IsText value text) :
    read text = if (numbers value).all Number.isReadable then .ok value else .error .malformed := by
  obtain ⟨before, inside, after, hbefore, hinside, hafter, htext⟩ := h
  have hend : readFrom (.next value) [] after = .ok value := by
    have hgap := @readFrom_gap (.next value) [] after hafter []
    rw [List.append_nil] at hgap
    rw [hgap, readFrom]
  have hrest : Ends after := by
    have hgap := @ends_gap after [] hafter (by simp [Ends])
    rwa [List.append_nil] at hgap
  rw [read, htext, readFrom_gap hbefore, readFrom_textOf value hinside [] hrest, hend, afterNumbers]

end SchemaPlan.Json
