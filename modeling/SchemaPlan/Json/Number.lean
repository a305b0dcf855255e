import SchemaPlan.Decimal.Shortest

/-!
# JSON numbers

A JSON number as it is spelled: sign, whole digits, fractional digits and exponent. Spelled without
sign, fraction and exponent it is a natural number; what a reader with binary arithmetic makes of
the other spellings, and of numbers beyond 64 bits, is `toBinary64`.
-/
namespace SchemaPlan.Json

open Decimal

/-- What is wrong with a JSON text: it ends too early, it is not JSON, or it is JSON of another
shape than the one asked for. -/
inductive Fault where
  | ended
  | malformed
  | mismatch
  deriving DecidableEq

/-- A number as spelled; without a point there are no fractional digits. -/
structure Number where
  negative : Bool
  whole : List Char
  fraction : List Char
  exponent : Option (Bool × List Char)
  deriving DecidableEq

def Number.ofNat (n : Nat) : Number :=
  ⟨false, digits n, [], none⟩

def Number.isIntegral (number : Number) : Bool :=
  number.fraction.isEmpty && number.exponent.isNone

/-- The natural number that is spelled without sign, fraction and exponent. -/
def Number.natural? (number : Number) : Option Nat :=
  if !number.negative && number.isIntegral then some (digitsValue number.whole) else none

def Number.spelling (number : Number) : List Char :=
  let fraction := if number.fraction.isEmpty then [] else '.' :: number.fraction
  let exponent :=
    match number.exponent with
    | none => []
    | some (negative, power) => 'e' :: signed negative power
  signed number.negative (number.whole ++ fraction ++ exponent)

/-! ## Reading binary numbers

Digits are gathered in a word of 64 bits until the next one would not fit; the rest only scales the
number. The word is then scaled by one power of ten, so the result is not always the binary64 number
nearest to the spelled one.
-/

/-- Appends digits to a word while it stays below 64 bits, and gives the digits left over. -/
def gather : Nat → List Char → Nat × List Char
  | word, [] => (word, [])
  | word, c :: rest =>
    let next := 10 * word + (c.toNat - '0'.toNat)
    if next < bound64 then gather next rest else (word, c :: rest)

/-- The nearest binary64 number to a power of ten. -/
def powerOfTen (power : Nat) : Binary64 :=
  .nearest (Nat.pow 10 power) 1

def times : Binary64 → Binary64 → Binary64
  | .finite m e, .finite n f =>
    let (num, den) := binaryFraction (m * n) (e + f)
    .nearest num den
  | _, _ => .infinite

def dividedBy : Binary64 → Binary64 → Binary64
  | .finite m e, .finite n f =>
    let (num, den) := binaryFraction m (e - f)
    .nearest num (den * n)
  | x, _ => x

/-- Divides by `10 ^ power`, at most 308 powers at a time; three such steps empty any word. -/
def scaleBelow : Nat → Binary64 → Nat → Binary64
  | 0, x, _ => x
  | steps + 1, x, power =>
    if power ≤ 308 then dividedBy x (powerOfTen power)
    else scaleBelow steps (dividedBy x (powerOfTen 308)) (power - 308)

/-- The word scaled by a power of ten, `infinite` when that is out of range. -/
def scaleWord (word : Nat) (power : Int) : Binary64 :=
  if word = 0 then .finite 0 (-1074)
  else if power < 0 then scaleBelow 3 (.nearest word 1) (-power).toNat
  else if power ≤ 308 then times (.nearest word 1) (powerOfTen power.toNat)
  else .infinite

/-- The magnitude of a number in binary arithmetic, `infinite` when it is out of range. -/
def Number.toBinary64 (number : Number) : Binary64 :=
  let (word, wholeLeft) := gather 0 number.whole
  let (word, fractionLeft) := gather word number.fraction
  let power : Int :=
    wholeLeft.length - ((number.fraction.length : Int) - fractionLeft.length)
  match number.exponent with
  | none => scaleWord word power
  | some (negative, exponent) =>
    let shift := digitsValue exponent
    scaleWord word (if negative then power - shift else power + shift)

/-- Whether a number is a whole number that 64 bits hold, signed or not. -/
def Number.fitsWord (number : Number) : Bool :=
  number.isIntegral &&
    (if number.negative then
        0 < digitsValue number.whole && digitsValue number.whole ≤ bound64 / 2
      else digitsValue number.whole < bound64)

/-- Whether a reader with binary arithmetic can hold the number. -/
def Number.isReadable (number : Number) : Bool :=
  number.fitsWord || number.toBinary64 != .infinite

/-- The number as it is written after having been read: whole numbers in 64 bits by their digits,
all others by the shortest numeral of their binary64 value, of two equally near ones the one with
an even last digit. -/
def Number.canonical (number : Number) : List Char :=
  if number.fitsWord then signed number.negative (digits (digitsValue number.whole))
  else
    match number.toBinary64 with
    | .infinite => number.spelling
    | .finite mantissa exponent =>
      signed number.negative (shortest .toEven mantissa exponent).compact

/-! ## Scanning -/

/-- Whether a text is over. -/
def orEnded (rest : List Char) : Fault :=
  if rest.isEmpty then .ended else .malformed

/-- The digits at the start of a text, at least one, and the rest. -/
def scanDigits (cs : List Char) : Except Fault (List Char × List Char) :=
  let found := cs.takeWhile Char.isDigit
  let rest := cs.dropWhile Char.isDigit
  if found.isEmpty then .error (orEnded rest) else .ok (found, rest)

/-- The whole part of a number: a lone zero, or digits that do not start with one. -/
def scanWhole : List Char → Except Fault (List Char × List Char)
  | '0' :: rest =>
    if (rest.head?.any Char.isDigit) then .error .malformed else .ok (['0'], rest)
  | cs => scanDigits cs

/-- The fractional digits, if a point follows. -/
def scanFraction : List Char → Except Fault (List Char × List Char)
  | '.' :: rest => scanDigits rest
  | cs => .ok ([], cs)

/-- The sign and digits of the exponent, if a letter for it follows. -/
def scanExponent : List Char → Except Fault (Option (Bool × List Char) × List Char)
  | [] => .ok (none, [])
  | c :: rest =>
    if c = 'e' || c = 'E' then
      let (negative, power) := splitSign rest
      (scanDigits power).map fun (found, after) => (some (negative, found), after)
    else .ok (none, c :: rest)

def splitMinus : List Char → Bool × List Char
  | '-' :: rest => (true, rest)
  | cs => (false, cs)

def Number.scan (text : List Char) : Except Fault (Number × List Char) := do
  let (negative, cs) := splitMinus text
  let (whole, cs) ← scanWhole cs
  let (fraction, cs) ← scanFraction cs
  let (exponent, cs) ← scanExponent cs
  let number : Number := ⟨negative, whole, fraction, exponent⟩
  if number.isReadable then .ok (number, cs) else .error .malformed

theorem scanDigits_length {cs : List Char} {p : List Char × List Char}
    (h : scanDigits cs = .ok p) : p.2.length < cs.length := by
  simp only [scanDigits] at h
  split at h
  · cases h
  · next hne =>
    simp only [Except.ok.injEq] at h
    have hsum := congrArg List.length
      (List.takeWhile_append_dropWhile (p := Char.isDigit) (l := cs))
    have hpos : 0 < (cs.takeWhile Char.isDigit).length :=
      List.length_pos_iff.2 (by simpa using hne)
    rw [List.length_append] at hsum
    simp only [← h]
    omega

theorem scanWhole_length {cs : List Char} {p : List Char × List Char}
    (h : scanWhole cs = .ok p) : p.2.length < cs.length := by
  unfold scanWhole at h
  split at h
  · split at h
    · cases h
    · simp only [Except.ok.injEq] at h
      simp [← h]
  · exact scanDigits_length h

theorem scanFraction_length {cs : List Char} {p : List Char × List Char}
    (h : scanFraction cs = .ok p) : p.2.length ≤ cs.length := by
  unfold scanFraction at h
  split at h
  · have := scanDigits_length h
    simp only [List.length_cons]
    omega
  · simp only [Except.ok.injEq] at h
    simp [← h]

theorem splitSign_length (cs : List Char) : (splitSign cs).2.length ≤ cs.length := by
  unfold splitSign
  split <;> simp

theorem scanExponent_length {cs : List Char} {p : Option (Bool × List Char) × List Char}
    (h : scanExponent cs = .ok p) : p.2.length ≤ cs.length := by
  unfold scanExponent at h
  split at h
  · simp only [Except.ok.injEq] at h
    simp [← h]
  · next c tail =>
    split at h
    · cases hs : scanDigits (splitSign tail).2 with
      | error fault => simp [hs, Except.map] at h
      | ok found =>
        have := scanDigits_length hs
        have := splitSign_length tail
        simp only [hs, Except.map, Except.ok.injEq] at h
        simp only [← h, List.length_cons]
        omega
    · simp only [Except.ok.injEq] at h
      simp [← h]

theorem splitMinus_length (cs : List Char) : (splitMinus cs).2.length ≤ cs.length := by
  unfold splitMinus
  split <;> simp

theorem Number.scan_length {cs : List Char} {p : Number × List Char}
    (h : Number.scan cs = .ok p) : p.2.length < cs.length := by
  have h0 := splitMinus_length cs
  simp only [Number.scan, bind, Except.bind] at h
  cases hw : scanWhole (splitMinus cs).2 with
  | error => simp [hw] at h
  | ok w =>
    have h1 := scanWhole_length hw
    simp only [hw] at h
    cases hf : scanFraction w.2 with
    | error => simp [hf] at h
    | ok f =>
      have h2 := scanFraction_length hf
      simp only [hf] at h
      cases he : scanExponent f.2 with
      | error => simp [he] at h
      | ok e =>
        have h3 := scanExponent_length he
        simp only [he] at h
        split at h
        · simp only [Except.ok.injEq] at h
          rw [← h]
          dsimp only
          omega
        · simp at h

/-- Results are equal when both are the same value or both are the same error. -/
instance decidableEqExcept {ε α : Type} [DecidableEq ε] [DecidableEq α] :
    DecidableEq (Except ε α)
  | .ok x, .ok y => decidable_of_iff (x = y) ⟨fun h => h ▸ rfl, Except.ok.inj⟩
  | .error x, .error y => decidable_of_iff (x = y) ⟨fun h => h ▸ rfl, Except.error.inj⟩
  | .ok _, .error _ => isFalse nofun
  | .error _, .ok _ => isFalse nofun

example : (Number.scan "-0.50e+3,".toList).toOption.map Prod.snd = some [','] := by decide +kernel
example : Number.scan "01".toList = .error .malformed := by decide
example : Number.scan "1.".toList = .error .ended := by decide +kernel

end SchemaPlan.Json
