import SchemaPlan.Plan

/-!
# Plans on a machine that counts in 64 bits

A number is laid out digit by digit, with as many places behind the point as the type of its column
has, and the digits are counted in machine words. A type may ask for any number of places that is a
word. `storedDefault?` lays out however many digits there are. Here they are counted first, and if a
count is no word, or a buffer cannot be as long, there is a fault instead of a default and of the
whole plan.

Only the digits of plain numbers are counted. A number with an exponent is laid out by the formatter
of numbers, which may have a lower limit of places of its own, and the fraction of a second is
padded one zero after the other; neither has a fault here. Nor is memory counted: a text may need
more of it than there is, or be a few characters too long for a buffer, before a fault is reached.
-/
namespace SchemaPlan

open Text Decimal Ddl

/-- Why the digits of a number cannot be laid out. -/
inductive CountFault where
  /-- The sum of two counts is no machine word. -/
  | overflow
  /-- The difference of two counts is negative. -/
  | underflow
  /-- A buffer cannot hold as many digits. -/
  | capacity
  deriving DecidableEq, Repr

namespace MySql

/-! ## Counted digits -/

/-- Buffers are shorter than this, half of what a machine word counts. -/
def capacityBound : Nat := bound64 / 2

def addCounts (a b : Nat) : Except CountFault Nat :=
  if a + b < bound64 then .ok (a + b) else .error .overflow

def subtractCounts (a b : Nat) : Except CountFault Nat :=
  if b ≤ a then .ok (a - b) else .error .underflow

/-- A buffer of `count` digits: superfluous ones are cut off, missing ones are zeros. -/
def resizeDigits (count : Nat) (buffer : List Char) : Except CountFault (List Char) :=
  if count < capacityBound then
    .ok (buffer.take count ++ List.replicate (count - buffer.length) '0')
  else .error .capacity

/-- `plainPlaces` with counted digits. -/
def countedPlaces (scale : Nat) (negative : Bool) (whole fraction : List Char) :
    Except CountFault (List Char) := do
  let count ← addCounts whole.length scale
  let kept ← resizeDigits count (whole ++ fraction.take scale)
  let found :=
    if fraction[scale]?.any fun c => '5' ≤ c then (addOne kept.reverse).reverse else kept
  let split ← subtractCounts found.length scale
  let point := if scale = 0 then [] else '.' :: found.drop split
  return signed (negative && !found.all (· == '0')) (withoutZeros (found.take split) ++ point)

/-- `decimalNumeral?` with counted digits. A literal with an exponent is left to the formatter, and
whatever limit that has is none here. -/
def countedNumeral? (scale : Nat) (value : List Char) :
    Except CountFault (Option (List Char)) :=
  let (negative, numeral) := splitSign value
  let (whole, fraction) := splitPoint numeral
  if areDigits whole fraction then (countedPlaces scale negative whole fraction).map some
  else .ok (decimalNumeral? scale value)

def countedColumnNumeral? (ddl : String) (value : List Char) :
    Except CountFault (Option (List Char)) :=
  let word := firstWord ddl
  if word = "DECIMAL" || word = "NUMERIC" then
    countedNumeral? ((typeArguments ddl)[1]?.getD 0) value
  else if word = "FLOAT" || word = "DOUBLE" || word = "REAL" then .ok (floatNumeral? value)
  else if word = "BIT" then .ok none
  else countedNumeral? 0 value

def countedDefault? (ddl : String) (value : List Char) : Except CountFault (Option (List Char)) :=
  let value := trim value
  let base := baseType ddl
  if sameLetters value "NULL".toList then .ok none
  else if isDateType base && isZeroDate value then .ok none
  else
    match currentTime? value with
    | some expression => .ok (some expression)
    | none =>
      if ddl = booleanType && sameLetters value "true".toList then .ok (some ['1'])
      else if ddl = booleanType && sameLetters value "false".toList then .ok (some ['0'])
      else do
        let number ←
          if isNumericType base && isNumericLiteral value then countedColumnNumeral? ddl value
          else .ok none
        let date :=
          if firstWord base = "DATETIME" || firstWord base = "TIMESTAMP" then
            dateTimeLiteral? ((typeArguments ddl).head?.getD 0) value
          else none
        return some ((number.or date).getD value)

/-- `normalizeDefault` with counted digits. -/
def countedDefault (dialect : MySql) (field : FieldDecl) : Except CountFault (Option String) :=
  match field.defaultValue with
  | none => .ok none
  | some value =>
    (countedDefault? (dialect.typeOf field) value.toList).map (Option.map String.ofList)

end MySql

namespace Dialect

/-! ## Counted plans -/

/-- The default of a field as the catalog would report it, with counted digits. -/
def countedDefault : Dialect → FieldDecl → Except CountFault (Option String)
  | .mysql d => d.countedDefault
  | .spanner _ => fun _ => .ok none

/-- The fields whose defaults a plan asks for: the declared ones, and those that the live columns of
their names stand for. -/
def plannedFields (dialect : Dialect) (declared : List TableDecl) (columns : List Column) :
    List FieldDecl :=
  let live := liveTables columns
  declared.flatMap fun table => table.fields.flatMap fun field =>
    let column := (live.find? table.name).bind fun existing => existing.column? field.columnName
    field :: ((column.filter fun column => !dialect.mismatched field column).map
      dialect.fieldOfColumn).toList

/-- The fault of a field's default. -/
def defaultFault? (dialect : Dialect) (field : FieldDecl) : Option CountFault :=
  match dialect.countedDefault field with
  | .ok _ => none
  | .error fault => some fault

/-- `plan` with counted digits: accepted tables are planned unless there is a fault. -/
def countedPlan (dialect : Dialect) (declared : List TableDecl) (columns : List Column) :
    Except CountFault (Except SchemaError (List Statement)) :=
  match validate dialect declared with
  | .error error => .ok (.error error)
  | .ok () =>
    match (dialect.plannedFields declared columns).findSome? dialect.defaultFault? with
    | some fault => .error fault
    | none => .ok (dialect.planValidated declared columns)

end Dialect

end SchemaPlan
