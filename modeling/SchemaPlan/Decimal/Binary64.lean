import SchemaPlan.Decimal.Literal

/-!
# Binary64 numbers

The magnitudes that a 64-bit floating-point number can hold, as `mantissa · 2 ^ exponent` with a
mantissa below `2 ^ 53` and an exponent of at least `-1074`, and rounding of exact numbers to the
nearest of them. A tie goes to the even mantissa. Everything is exact arithmetic on natural numbers.
-/
namespace SchemaPlan.Decimal

/-- The magnitude of a binary64 number. -/
inductive Binary64 where
  | finite (mantissa : Nat) (exponent : Int)
  | infinite
  deriving DecidableEq

def mantissaBound : Nat := Nat.pow 2 53

/-- The first bit of a full mantissa, the least mantissa of 53 bits. -/
def leadingBit : Nat := Nat.pow 2 52

/-- The quotient `num / den` scaled by `2 ^ -exponent`, as a new numerator and denominator. -/
def scaleDown (num den : Nat) (exponent : Int) : Nat × Nat :=
  if 0 ≤ exponent then (num, den * Nat.pow 2 exponent.toNat)
  else (num * Nat.pow 2 (-exponent).toNat, den)

/-- The exponent at which the mantissa of `num / den` has 53 bits, or the least exponent. -/
def unitExponent (num den : Nat) : Int :=
  let low : Int := (num.log2 : Int) - den.log2 - 53
  let (n, d) := scaleDown num den low
  max (if n / d < mantissaBound then low else low + 1) (-1074)

def Binary64.nearest (num den : Nat) : Binary64 :=
  if num = 0 then .finite 0 (-1074)
  else
    let exponent := unitExponent num den
    let (n, d) := scaleDown num den exponent
    let mantissa := roundDiv .toEven n d
    let (mantissa, exponent) :=
      if mantissa < mantissaBound then (mantissa, exponent) else (leadingBit, exponent + 1)
    if exponent ≤ 971 then .finite mantissa exponent else .infinite

/-- The exact value of a finite binary64 number, as numerator and denominator. -/
def binaryFraction (mantissa : Nat) (exponent : Int) : Nat × Nat :=
  if 0 ≤ exponent then (mantissa * Nat.pow 2 exponent.toNat, 1)
  else (mantissa, Nat.pow 2 (-exponent).toNat)

/-- The binary64 number nearest to the magnitude of a literal. Literals far above or below the
range are settled by their order of magnitude alone. -/
def Literal.toBinary64 (number : Literal) : Binary64 :=
  let order := number.exponent + (digits number.coefficient).length
  if number.coefficient = 0 || order < -400 then .finite 0 (-1074)
  else if 400 < order then .infinite
  else if 0 ≤ number.exponent then
    .nearest (number.coefficient * Nat.pow 10 number.exponent.toNat) 1
  else .nearest number.coefficient (Nat.pow 10 (-number.exponent).toNat)

/-- The numeral of a finite binary64 number with exactly `scale` fractional digits; its exact value
is rounded, and a tie goes to the even neighbour. -/
def binaryFixedPlaces (scale mantissa : Nat) (exponent : Int) : List Char :=
  let (num, den) := binaryFraction mantissa exponent
  fixedPlaces scale (roundDiv .toEven (num * Nat.pow 10 scale) den)

example : Binary64.nearest 1 10 = .finite 7205759403792794 (-56) := by decide +kernel
example : Binary64.nearest 1 1 = .finite (2 ^ 52) (-52) := by decide +kernel
example : (⟨false, 25, -1⟩ : Literal).toBinary64 = .finite (5 * 2 ^ 50) (-51) := by decide +kernel

end SchemaPlan.Decimal
