import SchemaPlan.Ddl.TypeText
import SchemaPlan.Registry

/-!
# MySQL column types

The normal form of a column type as the catalog would report it: integer types have no display
width, except the one-digit type that stores booleans. The module also has the families of types
that other rules ask for, and the types that source spellings are stored in.
-/
namespace SchemaPlan.MySql

open Ddl

def integerTypes : List String :=
  ["TINYINT", "SMALLINT", "MEDIUMINT", "INT", "INTEGER", "BIGINT"]

def numericTypes : List String :=
  integerTypes ++ ["DECIMAL", "NUMERIC", "FLOAT", "DOUBLE", "REAL", "BIT"]

def booleanType : String := "TINYINT(1)"

def normalizeColumnType (ddl : String) : String :=
  let ddl := normalize ddl
  if ddl = "BOOL" || ddl = "BOOLEAN" || ddl = booleanType then booleanType
  else
    let base := (baseType ddl).toList
    let head := base.takeWhile (· != ' ')
    if integerTypes.contains (String.ofList head) then
      let name := if head = "INTEGER".toList then "INT".toList else head
      String.ofList (name ++ base.drop head.length)
    else ddl

def isNumericType (ddl : String) : Bool :=
  numericTypes.contains (firstWord ddl)

def isDateType (ddl : String) : Bool :=
  ["DATE", "DATETIME", "TIMESTAMP"].contains (firstWord ddl)

/-- Whether a type, by its lower-case catalog name, has a length in characters or bytes. -/
def hasLength (dataType : String) : Bool :=
  ["char", "varchar", "binary", "varbinary", "tinytext", "text", "mediumtext", "longtext",
    "tinyblob", "blob", "mediumblob", "longblob"].contains dataType

/-- The types of MySQL and the source spellings that they store. The types after `JSON` are reached
through sizes and explicit types only. -/
def builtinTypes : List TypeEntry := [
  .ofSpellings "TINYINT(1)" ["bool"],
  .ofSpellings "TINYINT" ["i8"],
  .ofSpellings "TINYINT UNSIGNED" ["u8"],
  .ofSpellings "SMALLINT" ["i16"],
  .ofSpellings "SMALLINT UNSIGNED" ["u16"],
  .ofSpellings "INT" ["i32"],
  .ofSpellings "INT UNSIGNED" ["u32"],
  .ofSpellings "BIGINT" ["i64", "isize"],
  .ofSpellings "BIGINT UNSIGNED" ["u64", "usize"],
  .ofSpellings "FLOAT" ["f32"],
  .ofSpellings "DOUBLE" ["f64"],
  .ofSpellings "DECIMAL(10,0)" ["Decimal", "rust_decimal::Decimal"],
  .ofSpellings "VARCHAR(255)" ["String"],
  .ofSpellings "VARBINARY(255)" ["Vec<u8>"],
  .ofSpellings "DATETIME" ["NaiveDateTime", "chrono::NaiveDateTime", "DateTime<Utc>",
    "chrono::DateTime<Utc>", "chrono::DateTime<chrono::Utc>", "time::PrimitiveDateTime"],
  .ofSpellings "DATE" ["NaiveDate", "chrono::NaiveDate", "time::Date"],
  .ofSpellings "TIME" ["NaiveTime", "chrono::NaiveTime", "time::Time"],
  .ofSpellings "JSON" ["serde_json::Value", "Value"],
  .ofSpellings "CHAR" ["String"],
  .ofSpellings "TINYTEXT" ["String"],
  .ofSpellings "TEXT" ["String"],
  .ofSpellings "MEDIUMTEXT" ["String"],
  .ofSpellings "LONGTEXT" ["String"],
  .ofSpellings "BINARY" ["Vec<u8>"],
  .ofSpellings "TINYBLOB" ["Vec<u8>"],
  .ofSpellings "BLOB" ["Vec<u8>"],
  .ofSpellings "MEDIUMBLOB" ["Vec<u8>"],
  .ofSpellings "LONGBLOB" ["Vec<u8>"],
  .ofSpellings "TIMESTAMP" ["DateTime<Utc>", "chrono::DateTime<Utc>", "time::OffsetDateTime"]]

example : normalizeColumnType "bigint(20) unsigned" = "BIGINT UNSIGNED" := by decide +kernel
example : normalizeColumnType "integer" = "INT" := by decide +kernel
example : normalizeColumnType "boolean" = "TINYINT(1)" := by decide +kernel

end SchemaPlan.MySql
