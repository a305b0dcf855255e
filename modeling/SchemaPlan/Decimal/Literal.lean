import SchemaPlan.Text.Pieces
import SchemaPlan.Decimal.Rounding

/-!
# Numeric literals

The texts that are numbers: an optional sign, digits with at most one point and at least one digit,
and optionally an exponent. A literal keeps its digits as a whole number and the power of ten that
scales it, so nothing is lost.
-/
namespace SchemaPlan.Decimal

/-- The number `± coefficient · 10 ^ exponent`. -/
structure Literal where
  negative : Bool
  coefficient : Nat
  exponent : Int
  deriving DecidableEq

def splitSign : List Char → Bool × List Char
  | '-' :: rest => (true, rest)
  | '+' :: rest => (false, rest)
  | cs => (false, cs)

def splitPoint (cs : List Char) : List Char × List Char :=
  (Text.cutAt '.' cs).getD (cs, [])

/-- Whether the parts around the point are digits, and at least one digit is there. -/
def areDigits (whole fraction : List Char) : Bool :=
  (!whole.isEmpty || !fraction.isEmpty) && whole.all Char.isDigit && fraction.all Char.isDigit

/-- The exponent that the digits behind the letter stand for. -/
def readExponent? (cs : List Char) : Option Int :=
  let (negative, numeral) := splitSign cs
  if isNumeral numeral then
    some (if negative then -(digitsValue numeral : Int) else digitsValue numeral)
  else none

def splitExponent (cs : List Char) : List Char × Option (List Char) :=
  match cs.span fun c => c != 'e' && c != 'E' with
  | (mantissa, []) => (mantissa, none)
  | (mantissa, _ :: exponent) => (mantissa, some exponent)

/-- Reads a plain numeral: a sign, digits and a point, but no exponent. -/
def Literal.plain? (cs : List Char) : Option Literal :=
  let (negative, rest) := splitSign cs
  let (whole, fraction) := splitPoint rest
  if areDigits whole fraction then
    some ⟨negative, digitsValue (whole ++ fraction), -(fraction.length : Int)⟩
  else none

/-- Reads a numeral with or without an exponent. -/
def Literal.read? (cs : List Char) : Option Literal :=
  let (mantissa, exponent) := splitExponent cs
  (plain? mantissa).bind fun number =>
    match exponent with
    | none => some number
    | some text =>
      (readExponent? text).map fun e => { number with exponent := number.exponent + e }

def isNumericLiteral (cs : List Char) : Bool :=
  (Literal.read? cs).isSome

example : Literal.read? "-1.50e3".toList = some ⟨true, 150, 1⟩ := by decide
example : Literal.read? ".".toList = none := by decide
example : Literal.read? "1e".toList = none := by decide
example : Literal.read? "5.".toList = some ⟨false, 5, 0⟩ := by decide

end SchemaPlan.Decimal
