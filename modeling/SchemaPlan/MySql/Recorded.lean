import SchemaPlan.Json.Reader
import SchemaPlan.Json.Record
import SchemaPlan.MySql.Session

/-!
# Recorded servers

A MySQL server that answers from recorded rows. It gives the same answers at any time, and it can be
told to fail at statements that contain a given text. A recording may be kept as JSON, with the rows
under the names that the catalog requests give to their values.
-/
namespace SchemaPlan.MySql

/-- A failure to give at statements with a text in them. -/
structure RecordedFailure where
  contains : String
  code : Nat := 1064
  state : String := "42000"
  message : String := ""

/-- What a recorded server knows. -/
structure Recorded where
  version : String := "8.0.36"
  columns : List ColumnRecord := []
  indexes : List IndexRecord := []
  failures : List RecordedFailure := []

/-- The answer to a request, unless it is to fail; the first failure that fits is given. -/
def Recorded.answer {α : Type} (recorded : Recorded) (request : Request) (reply : α) :
    Except DatabaseError α :=
  match recorded.failures.find? fun f => Text.occursIn f.contains.toList request.sql.toList with
  | some failure => .error (.server failure.code failure.state failure.message)
  | none => .ok reply

/-- The recording as a server, which has no state. -/
def Recorded.server (recorded : Recorded) : Server Unit where
  version request _ := (recorded.answer request recorded.version, ())
  columns request _ := (recorded.answer request recorded.columns, ())
  indexes request _ := (recorded.answer request recorded.indexes, ())
  execute request _ := (recorded.answer request (), ())

/-! ## Recordings as JSON -/

open Json

def optionalNatural (members : List (String × Json)) (key : String) :
    Except Fault (Option Nat) :=
  (optional members key readWord).map fun value => value.map UInt64.toNat

def ColumnRecord.ofJson : Json → Except Fault ColumnRecord :=
  readRecord (columnValues.map (·.label)) fun members => do
    let table ← optional members "table_name" readText
    let column ← optional members "column_name" readText
    let position ← optionalNatural members "position"
    let columnType ← optional members "column_type" readText
    let dataType ← optional members "data_type" readText
    let isNullable ← optional members "is_nullable" readText
    let defaultValue ← optional members "column_default" readText
    let extra ← optional members "extra" readText
    let comment ← optional members "column_comment" readText
    let charLength ← optional members "char_length" readWord
    let numericPrecision ← optional members "numeric_precision" readWord
    let numericScale ← optional members "numeric_scale" readWord
    let datetimePrecision ← optional members "datetime_precision" readWord
    .ok { table, column, position, columnType, dataType, isNullable, defaultValue, extra, comment,
          charLength, numericPrecision, numericScale, datetimePrecision }

def IndexRecord.ofJson : Json → Except Fault IndexRecord :=
  readRecord (indexValues.map (·.label)) fun members => do
    let table ← optional members "table_name" readText
    let index ← optional members "index_name" readText
    let column ← optional members "column_name" readText
    let position ← optionalNatural members "position"
    let nonUnique ← optionalNatural members "non_unique"
    .ok { table, index, column, position, nonUnique }

/-- Reads a recording, which says at least which server it is of. -/
def Recorded.ofJson : Json → Except Fault Recorded :=
  readRecord ["version", "columns", "indexes"] fun members => do
    let version ← required members "version" readText
    let columns ← optional members "columns" (readList ColumnRecord.ofJson)
    let indexes ← optional members "indexes" (readList IndexRecord.ofJson)
    .ok { version, columns := columns.getD [], indexes := indexes.getD [] }

def Recorded.read (text : String) : Except Fault Recorded :=
  (Json.read text).bind Recorded.ofJson

end SchemaPlan.MySql
