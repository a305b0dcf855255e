import SchemaPlan.Decimal.Rounding

/-!
# Plain numerals with a fixed count of places

A numeral that is nothing but digits around a point, brought to a fixed count of fractional digits
on its digits alone, however many there are: those behind the last place are cut off, missing ones
are zeros, and one is added in the last place if the first digit cut off is five or more.
-/
namespace SchemaPlan.Decimal

/-- Adds one to a numeral whose last digit comes first. Nines become zeros and carry the one on, and
a one that is carried past all digits becomes a digit of its own. -/
def addOne : List Char → List Char
  | [] => ['1']
  | c :: rest => if c = '9' then '0' :: addOne rest else Char.ofNat (c.toNat + 1) :: rest

/-- The digits of a numeral up to the place `scale` behind its point, rounded half away from zero. -/
def roundedDigits (scale : Nat) (whole fraction : List Char) : List Char :=
  let kept := whole ++ fraction.take scale ++ List.replicate (scale - fraction.length) '0'
  if fraction[scale]?.any fun c => '5' ≤ c then (addOne kept.reverse).reverse else kept

def withoutZeros (whole : List Char) : List Char :=
  match whole.dropWhile (· == '0') with
  | [] => ['0']
  | cs => cs

/-- A numeral with exactly `scale` fractional digits, and no point when there are none. Zero has no
sign. -/
def plainPlaces (scale : Nat) (negative : Bool) (whole fraction : List Char) : List Char :=
  let found := roundedDigits scale whole fraction
  let split := found.length - scale
  let point := if scale = 0 then [] else '.' :: found.drop split
  signed (negative && !found.all (· == '0')) (withoutZeros (found.take split) ++ point)

example : plainPlaces 2 true "0009".toList "995".toList = "-10.00".toList := by decide
example : plainPlaces 3 false [] "5".toList = "0.500".toList := by decide
example : plainPlaces 0 true "0".toList "4".toList = "0".toList := by decide

end SchemaPlan.Decimal
