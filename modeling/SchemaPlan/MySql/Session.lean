import SchemaPlan.Apply
import SchemaPlan.Plan
import SchemaPlan.MySql.Rows

/-!
# MySQL sessions

Reading the catalog of a MySQL server and applying plans to it. A server is whatever answers
requests: it has a state of its own and may fail at any of them. A session keeps that state together
with the requests that reached the server, in their order.

A plan runs in one transaction. The first statement that fails ends it; then the transaction is
rolled back, and how that goes does not matter.
-/
namespace SchemaPlan.MySql

/-! ## Servers -/

/-- What is sent to a server. -/
structure Request where
  sql : String
  parameters : List String := []
  deriving DecidableEq

/-- An answer row about a column, in which any value may be null. -/
structure ColumnRecord where
  table : Option String := none
  column : Option String := none
  position : Option Nat := none
  columnType : Option String := none
  dataType : Option String := none
  isNullable : Option String := none
  defaultValue : Option String := none
  extra : Option String := none
  comment : Option String := none
  charLength : Option UInt64 := none
  numericPrecision : Option UInt64 := none
  numericScale : Option UInt64 := none
  datetimePrecision : Option UInt64 := none

/-- An answer row about a part of an index, in which any value may be null. -/
structure IndexRecord where
  table : Option String := none
  index : Option String := none
  column : Option String := none
  position : Option Nat := none
  nonUnique : Option Nat := none

/-- A server with a state of type `σ`: its answers to the four kinds of requests. -/
structure Server (σ : Type) where
  version : Request → σ → Except DatabaseError String × σ
  columns : Request → σ → Except DatabaseError (List ColumnRecord) × σ
  indexes : Request → σ → Except DatabaseError (List IndexRecord) × σ
  execute : Request → σ → Except DatabaseError Unit × σ

/-- The connections to a server. Once closed, every access fails before it reaches the server. -/
structure Pool (σ : Type) where
  server : Server σ
  closed : Bool := false

/-- The state of the server, and the requests that it has received. -/
structure Session (σ : Type) where
  state : σ
  log : List Request := []

/-- A computation that talks to a server. -/
abbrev Talk (σ : Type) := StateM (Session σ)

variable {σ α : Type}

/-- Sends a request. -/
def Pool.ask (pool : Pool σ) (request : Request)
    (answer : Server σ → Request → σ → Except DatabaseError α × σ) :
    Talk σ (Except DatabaseError α) := fun session =>
  if pool.closed then (.error .poolClosed, session)
  else
    let (reply, state) := answer pool.server request session.state
    (reply, ⟨state, session.log ++ [request]⟩)

def Pool.execute (pool : Pool σ) (sql : String) : Talk σ (Except DatabaseError Unit) :=
  pool.ask ⟨sql, []⟩ Server.execute

/-! ## Reading the catalog -/

def catalogFailure (error : DatabaseError) : CatalogError :=
  .driver (.database error)

/-- A value that must not be null. -/
def present (column : String) (value : Option α) : Except CatalogError α :=
  match value with
  | some x => .ok x
  | none => .error (catalogFailure (.unexpectedNull column))

/-- The position of a row about a column, which has to fit 32 bits. -/
def presentPosition (table : String) (column : Option String) (value : Option Nat) :
    Except CatalogError Nat := do
  let position ← present "position" value
  if position < Decimal.bound32 then .ok position
  else .error (.row table (column.getD "?") .positionRange)

def ColumnRecord.toRow (record : ColumnRecord) : Except CatalogError ColumnRow := do
  let table ← present "table_name" record.table
  let column := record.column
  let position ← presentPosition table column record.position
  let columnType ← present "column_type" record.columnType
  let dataType ← present "data_type" record.dataType
  let isNullable ← present "is_nullable" record.isNullable
  .ok { table, column, position, columnType, dataType, isNullable
        defaultValue := record.defaultValue
        extra := record.extra
        comment := record.comment
        charLength := record.charLength
        numericPrecision := record.numericPrecision
        numericScale := record.numericScale
        datetimePrecision := record.datetimePrecision }

def IndexRecord.toRow (record : IndexRecord) : Except CatalogError IndexRow := do
  let table ← present "table_name" record.table
  let column := record.column
  let position ← presentPosition table column record.position
  let nonUnique ← present "non_unique" record.nonUnique
  let index ← present "index_name" record.index
  .ok { table, index, column, position, nonUnique := nonUnique != 0 }

/-- A value of a catalog table: its name there, the type that it is cast to, and its name in the
answer. -/
structure Selected where
  source : String
  castType : String
  label : String

def columnValues : List Selected := [
  ⟨"TABLE_NAME", "CHAR", "table_name"⟩,
  ⟨"COLUMN_NAME", "CHAR", "column_name"⟩,
  ⟨"ORDINAL_POSITION", "UNSIGNED", "position"⟩,
  ⟨"COLUMN_TYPE", "CHAR", "column_type"⟩,
  ⟨"DATA_TYPE", "CHAR", "data_type"⟩,
  ⟨"IS_NULLABLE", "CHAR", "is_nullable"⟩,
  ⟨"COLUMN_DEFAULT", "CHAR", "column_default"⟩,
  ⟨"EXTRA", "CHAR", "extra"⟩,
  ⟨"COLUMN_COMMENT", "CHAR", "column_comment"⟩,
  ⟨"CHARACTER_MAXIMUM_LENGTH", "UNSIGNED", "char_length"⟩,
  ⟨"NUMERIC_PRECISION", "UNSIGNED", "numeric_precision"⟩,
  ⟨"NUMERIC_SCALE", "UNSIGNED", "numeric_scale"⟩,
  ⟨"DATETIME_PRECISION", "UNSIGNED", "datetime_precision"⟩]

def indexValues : List Selected := [
  ⟨"TABLE_NAME", "CHAR", "table_name"⟩,
  ⟨"INDEX_NAME", "CHAR", "index_name"⟩,
  ⟨"COLUMN_NAME", "CHAR", "column_name"⟩,
  ⟨"SEQ_IN_INDEX", "UNSIGNED", "position"⟩,
  ⟨"NON_UNIQUE", "UNSIGNED", "non_unique"⟩]

/-- The query for values of a catalog table, restricted to the current database. -/
def selection (values : List Selected) (source : String) : String :=
  let cast (value : Selected) : String :=
    "CAST(" ++ value.source ++ " AS " ++ value.castType ++ ") AS " ++ value.label
  "SELECT " ++ ", ".intercalate (values.map cast) ++ " FROM information_schema." ++ source ++
    " WHERE TABLE_SCHEMA = DATABASE()"

/-- The condition that keeps the rows of some tables, with a parameter for each name. -/
def tableFilter (tables : List String) : String :=
  if tables.isEmpty then ""
  else " AND TABLE_NAME IN (" ++ ", ".intercalate (tables.map fun _ => "?") ++ ")"

/-- The request for the columns of some tables, or of all when none are named. -/
def columnRequest (tables : List String) : Request :=
  ⟨selection columnValues "COLUMNS" ++ tableFilter tables ++
    " ORDER BY TABLE_NAME, ORDINAL_POSITION", tables⟩

/-- The request for the index parts of some tables, or of all when none are named. -/
def indexRequest (tables : List String) : Request :=
  ⟨selection indexValues "STATISTICS" ++ tableFilter tables ++
    " ORDER BY TABLE_NAME, INDEX_NAME, SEQ_IN_INDEX", tables⟩

def versionRequest : Request := ⟨"SELECT VERSION()", []⟩

def detect (pool : Pool σ) : Talk σ (Except CatalogError Version) := do
  match ← pool.ask versionRequest Server.version with
  | .error error => return .error (catalogFailure error)
  | .ok text =>
    match Version.read? text with
    | some version => return .ok version
    | none => return .error (.row "?" "?" (.version text))

/-- Reads the columns of some tables, or of all when none are named. The index parts are asked for
once all column rows have been read. -/
def introspect (dialect : MySql) (pool : Pool σ) (tables : List String) :
    Talk σ (Except CatalogError (List Column)) := do
  match ← pool.ask (columnRequest tables) Server.columns with
  | .error error => return .error (catalogFailure error)
  | .ok records =>
    match records.mapM ColumnRecord.toRow with
    | .error error => return .error error
    | .ok columns =>
      match ← pool.ask (indexRequest tables) Server.indexes with
      | .error error => return .error (catalogFailure error)
      | .ok records =>
        match records.mapM IndexRecord.toRow with
        | .error error => return .error error
        | .ok indexes => return dialect.columnsOfRows columns indexes

/-! ## Planning and applying -/

/-- The statements that bring the server's database to the declared schema. Declarations are
validated before anything is asked. -/
def diff (dialect : MySql) (pool : Pool σ) (tables : List TableDecl) :
    Talk σ (Except SchemaError (List Statement)) := do
  match validate (.mysql dialect) tables with
  | .error error => return .error error
  | .ok () =>
    match ← introspect dialect pool [] with
    | .error error => return .error (.catalog error)
    | .ok columns => return (Dialect.mysql dialect).planValidated tables columns

def begin (pool : Pool σ) : Talk σ (Except SchemaError Unit) := do
  return (← pool.execute "BEGIN").mapError fun error => .begin (.database error)

/-- Runs statements up to the first one that fails; `index` is the place of the first of them. -/
def runFrom (pool : Pool σ) (index : Nat) : List Statement → Talk σ (Except SchemaError Unit)
  | [] => return .ok ()
  | statement :: rest => do
    match ← pool.execute statement.sql with
    | .error error => return .error (statement.failure index (.database error))
    | .ok () => runFrom pool (index + 1) rest

/-- Applies a plan in one transaction. -/
def applyStatements (pool : Pool σ) (statements : List Statement) :
    Talk σ (Except SchemaError Unit) := do
  if h : statements = [] then return .ok ()
  else
    match ← begin pool with
    | .error error => return .error error
    | .ok () =>
      match ← runFrom pool 0 statements with
      | .error error =>
        let _ ← pool.execute "ROLLBACK"
        return .error error
      | .ok () =>
        match ← pool.execute "COMMIT" with
        | .error error => return .error (commitFailure statements h (.database error))
        | .ok () => return .ok ()

/-- Plans and applies the declared schema. -/
def apply (dialect : MySql) (pool : Pool σ) (tables : List TableDecl) :
    Talk σ (Except SchemaError Unit) := do
  match ← diff dialect pool tables with
  | .error error => return .error error
  | .ok statements => applyStatements pool statements

/-- Runs statements in a transaction of their own, whatever becomes of each, and ends it. -/
def transaction (pool : Pool σ) (statements : List String) (commit : Bool) :
    Talk σ (Except SchemaError (List (Except DatabaseError Unit))) := do
  match ← begin pool with
  | .error error => return .error error
  | .ok () =>
    let results ← statements.mapM pool.execute
    let ending ← pool.execute (if commit then "COMMIT" else "ROLLBACK")
    return .ok (results ++ [ending])

end SchemaPlan.MySql
