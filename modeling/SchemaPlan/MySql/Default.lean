import SchemaPlan.MySql.ColumnType
import SchemaPlan.MySql.Version
import SchemaPlan.Text.Quoted
import SchemaPlan.Decimal.Plain
import SchemaPlan.Decimal.Shortest

/-!
# Column defaults of MySQL

A default as the server stores it: numbers in the format of their column, dates with their time,
the functions for the current time by one name. The module also decides whether a default is written
as it is or as a string literal, and reads the defaults that a server reports.
-/
namespace SchemaPlan.MySql

open Text Decimal Ddl

/-! ## Numbers -/

/-- A number with exactly `scale` fractional digits. Plain literals are rounded half away from zero
on their digits and have no negative zero. A literal with an exponent goes through its binary64
value, which is rounded half to even and keeps its sign. -/
def decimalNumeral? (scale : Nat) (value : List Char) : Option (List Char) :=
  let (negative, numeral) := splitSign value
  let (whole, fraction) := splitPoint numeral
  if areDigits whole fraction then some (plainPlaces scale negative whole fraction)
  else
    (Literal.read? value).bind fun number =>
      match number.toBinary64 with
      | .infinite => none
      | .finite mantissa exponent =>
        some (signed number.negative (binaryFixedPlaces scale mantissa exponent))

/-- The shortest numeral of a number's binary64 value, of two equally near ones the greater. -/
def floatNumeral? (value : List Char) : Option (List Char) :=
  (Literal.read? value).bind fun number =>
    match number.toBinary64 with
    | .infinite => none
    | .finite mantissa exponent =>
      some (signed number.negative (shortest .awayFromZero mantissa exponent).positional)

def columnNumeral? (ddl : String) (value : List Char) : Option (List Char) :=
  let word := firstWord ddl
  if word = "DECIMAL" || word = "NUMERIC" then
    decimalNumeral? ((typeArguments ddl)[1]?.getD 0) value
  else if word = "FLOAT" || word = "DOUBLE" || word = "REAL" then floatNumeral? value
  else if word = "BIT" then none
  else decimalNumeral? 0 value

/-! ## Dates and times -/

/-- Whether a text has the shape of a pattern, in which `d` stands for any digit. -/
def matchesPattern : (pattern value : List Char) → Bool
  | [], [] => true
  | p :: pattern, v :: value =>
    (if p = 'd' then v.isDigit else v = p) && matchesPattern pattern value
  | _, _ => false

/-- Whether a text is the date without a day. -/
def isZeroDate (value : List Char) : Bool :=
  "0000-00-00".toList.isPrefixOf value &&
    value.all fun c => c = '0' || c = '-' || c = ':' || c = ' ' || c = '.'

/-- A date and time with exactly `precision` fractional digits of a second. A date alone means its
midnight. -/
def dateTimeLiteral? (precision : Nat) (value : List Char) : Option (List Char) :=
  let (date, time) := (cutAt ' ' value).getD (value, "00:00:00".toList)
  let (clock, fraction) := (cutAt '.' time).getD (time, [])
  if matchesPattern "dddd-dd-dd".toList date && matchesPattern "dd:dd:dd".toList clock &&
      fraction.all Char.isDigit then
    let seconds := date ++ ' ' :: clock
    if precision = 0 then some seconds
    else
      let kept := fraction.take precision
      some (seconds ++ '.' :: kept ++ List.replicate (precision - kept.length) '0')
  else none

def currentTimeNames : List (List Char) :=
  ["CURRENT_TIMESTAMP", "NOW", "LOCALTIMESTAMP", "LOCALTIME"].map String.toList

/-- The current time under its one name, with its precision unless that is zero. -/
def currentTime? (value : List Char) : Option (List Char) :=
  let text := upperAscii (trim value)
  let plain := "CURRENT_TIMESTAMP".toList
  match cutAt '(' text with
  | none => if currentTimeNames.contains text then some plain else none
  | some (name, rest) =>
    if rest.getLast? = some ')' then
      let argument := trim rest.dropLast
      if !currentTimeNames.contains (trim name) then none
      else if argument.isEmpty || argument = ['0'] then some plain
      else if argument.all Char.isDigit then some (plain ++ '(' :: argument ++ [')'])
      else none
    else none

/-! ## Defaults -/

/-- A default of a column of type `ddl`, as the server stores it. -/
def storedDefault? (ddl : String) (value : List Char) : Option (List Char) :=
  let value := trim value
  let base := baseType ddl
  if sameLetters value "NULL".toList then none
  else if isDateType base && isZeroDate value then none
  else
    match currentTime? value with
    | some expression => some expression
    | none =>
      if ddl = booleanType && sameLetters value "true".toList then some ['1']
      else if ddl = booleanType && sameLetters value "false".toList then some ['0']
      else
        let number :=
          if isNumericType base && isNumericLiteral value then columnNumeral? ddl value else none
        let date :=
          if firstWord base = "DATETIME" || firstWord base = "TIMESTAMP" then
            dateTimeLiteral? ((typeArguments ddl).head?.getD 0) value
          else none
        some ((number.or date).getD value)

/-- Whether a default is written without quotes: the current time, an expression in brackets, or a
number of a numeric column. -/
def isRawDefault (ddl : String) (value : List Char) : Bool :=
  "CURRENT_TIMESTAMP".toList.isPrefixOf value || value.head? = some '(' ||
    (isNumericType (baseType ddl) && isNumericLiteral value)

def quoteLiteral (text : String) : String :=
  Text.quoteLiteral .doubled text

/-- A stored default as it stands in a column definition. -/
def writtenDefault (ddl : String) (value : List Char) : String :=
  if isRawDefault ddl value then String.ofList value else quoteLiteral (String.ofList value)

/-- The default that a server reports, without quotes. -/
def reportedDefault? (version : Version) (raw : Option String) : Option String :=
  raw.bind fun text =>
    if !version.reportsLiterals then some text
    else
      let cs := text.toList
      if sameLetters cs "NULL".toList then none
      else
        match cs with
        | '\'' :: rest =>
          if rest.getLast? = some '\'' then some (String.ofList (literalValue rest.dropLast))
          else some text
        | _ => some text

example : storedDefault? "DECIMAL(12,2)" "1.005".toList = some "1.01".toList := by decide +kernel
example : storedDefault? "INT" "007".toList = some "7".toList := by decide +kernel
example : storedDefault? "DATETIME(3)" "2020-01-01".toList =
    some "2020-01-01 00:00:00.000".toList := by decide +kernel
example : storedDefault? "TIMESTAMP" "now()".toList = some "CURRENT_TIMESTAMP".toList := by
  decide +kernel

end SchemaPlan.MySql
