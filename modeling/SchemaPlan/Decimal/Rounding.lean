import SchemaPlan.Decimal.Digits

/-!
# Rounded quotients and fixed places

A quotient of natural numbers rounded to the nearest whole number under a named rule for ties, and
the numeral of a number with a fixed count of fractional digits.
-/
namespace SchemaPlan.Decimal

/-- Which neighbour a number half-way between two whole numbers rounds to. -/
inductive Tie where
  | awayFromZero
  | toEven
  deriving DecidableEq

/-- Whether a quotient whose remainder is `remainder` of `den` rounds up from `floor`. -/
def Tie.roundsUp (tie : Tie) (floor remainder den : Nat) : Bool :=
  match tie with
  | .awayFromZero => den ≤ 2 * remainder
  | .toEven => den < 2 * remainder || (2 * remainder == den && floor % 2 == 1)

/-- The whole number nearest to `num / den`. -/
def roundDiv (tie : Tie) (num den : Nat) : Nat :=
  let floor := num / den
  if tie.roundsUp floor (num % den) den then floor + 1 else floor

def paddedDigits (width n : Nat) : List Char :=
  let plain := digits n
  List.replicate (width - plain.length) '0' ++ plain

/-- The numeral of `n / 10 ^ scale` with exactly `scale` fractional digits, and no point when there
are none. -/
def fixedPlaces (scale n : Nat) : List Char :=
  let whole := digits (n / Nat.pow 10 scale)
  if scale = 0 then whole else whole ++ '.' :: paddedDigits scale (n % Nat.pow 10 scale)

/-- A numeral behind a minus sign, if it needs one. -/
def signed (negative : Bool) (numeral : List Char) : List Char :=
  if negative then '-' :: numeral else numeral

example : [1, 3, 5].map (roundDiv .toEven · 2) = [0, 2, 2] := by decide
example : [1, 3, 5].map (roundDiv .awayFromZero · 2) = [1, 2, 3] := by decide
example : fixedPlaces 2 105 = "1.05".toList := by decide

end SchemaPlan.Decimal
