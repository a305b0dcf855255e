import SchemaPlan.Decimal.Binary64

/-!
# Shortest numerals of binary64 numbers

The fewest decimal digits that read back as a given binary64 number, found by trying the two
neighbours of the number on each decimal grid from coarse to fine, and two ways of writing them:
always by position, or by position only for numbers of moderate size.
-/
namespace SchemaPlan.Decimal

/-- The number `coefficient · 10 ^ exponent`. -/
structure Scaled where
  coefficient : Nat
  exponent : Int
  deriving DecidableEq

/-- The largest `k` with `10 ^ k ≤ num / den`, for a positive quotient. -/
def floorLog10 (num den : Nat) : Int :=
  if den ≤ num then ((digits (num / den)).length : Int) - 1
  else -((digits ((den + num - 1) / num - 1)).length : Int)

/-- The numbers that round to a binary64 number, as an interval with a common denominator. -/
structure RoundingInterval where
  low : Nat
  value : Nat
  high : Nat
  den : Nat
  closed : Bool

/-- The interval around `mantissa · 2 ^ exponent`. Below a power of two the neighbours are twice as
dense as above it. -/
def RoundingInterval.around (mantissa : Nat) (exponent : Int) : RoundingInterval :=
  let below := if mantissa = leadingBit && decide (-1074 < exponent) then 1 else 2
  let (scale, den) := binaryFraction 1 (exponent - 2)
  ⟨(4 * mantissa - below) * scale, 4 * mantissa * scale, (4 * mantissa + 2) * scale, den,
    mantissa % 2 == 0⟩

def RoundingInterval.holds (interval : RoundingInterval) (num den : Nat) : Bool :=
  let x := num * interval.den
  if interval.closed then interval.low * den ≤ x && x ≤ interval.high * den
  else interval.low * den < x && x < interval.high * den

/-- The point of the grid of multiples of `10 ^ exponent` that is nearest to the interval's value
among those in the interval; `tie` chooses between two equally near ones. -/
def RoundingInterval.gridPoint? (tie : Tie) (interval : RoundingInterval) (exponent : Int) :
    Option Scaled :=
  let (unit, unitDen) :=
    if 0 ≤ exponent then (Nat.pow 10 exponent.toNat, 1) else (1, Nat.pow 10 (-exponent).toNat)
  let num := interval.value * unitDen
  let den := interval.den * unit
  let floor := num / den
  let lower := interval.holds (floor * unit) unitDen
  let upper := interval.holds ((floor + 1) * unit) unitDen
  if upper && (tie.roundsUp floor (num % den) den || !lower) then some ⟨floor + 1, exponent⟩
  else if lower then some ⟨floor, exponent⟩
  else none

def RoundingInterval.search (tie : Tie) (interval : RoundingInterval) (exponent : Int) :
    Nat → Scaled
  | 0 => ⟨interval.value / interval.den, 0⟩
  | tries + 1 =>
    match interval.gridPoint? tie exponent with
    | some point => point
    | none => interval.search tie (exponent - 1) tries

/-- The shortest numeral of a finite binary64 number; seventeen digits always suffice. -/
def shortest (tie : Tie) (mantissa : Nat) (exponent : Int) : Scaled :=
  if mantissa = 0 then ⟨0, 0⟩
  else
    let interval := RoundingInterval.around mantissa exponent
    interval.search tie (floorLog10 interval.value interval.den + 1) 18

/-- A scaled number without an exponent: zeros fill the places that its digits leave open. -/
def Scaled.positional (x : Scaled) : List Char :=
  if 0 ≤ x.exponent then digits (x.coefficient * Nat.pow 10 x.exponent.toNat)
  else fixedPlaces (-x.exponent).toNat x.coefficient

/-- A scaled number as data formats write it: by position with at least one fractional digit while
its first digit stands between the fifth place behind the point and the sixteenth before it, and
with an exponent otherwise, whose sign is always written. -/
def Scaled.compact (x : Scaled) : List Char :=
  let plain := digits x.coefficient
  let order := x.exponent + plain.length
  if x.coefficient = 0 then "0.0".toList
  else if -5 < order && order ≤ 16 then
    if 0 ≤ x.exponent then x.positional ++ ".0".toList else x.positional
  else
    let power := order - 1
    let tail := 'e' :: (if power < 0 then '-' else '+') :: digits power.natAbs
    match plain with
    | [only] => only :: tail
    | first :: rest => first :: '.' :: rest ++ tail
    | [] => tail

example : shortest .toEven 7205759403792794 (-56) = ⟨1, -1⟩ := by decide +kernel
example : shortest .toEven (Nat.pow 2 52 + 1) (-2) = ⟨11258999068426242, -1⟩ := by
  decide +kernel
example : shortest .awayFromZero (Nat.pow 2 52 + 1) (-2) = ⟨11258999068426243, -1⟩ := by
  decide +kernel
example : (Scaled.mk 1 16).compact = "1e+16".toList := by decide +kernel
example : (Scaled.mk 999 (-8)).compact = "9.99e-6".toList := by decide +kernel
example : (Scaled.mk 15 (-1)).compact = "1.5".toList := by decide +kernel

end SchemaPlan.Decimal
