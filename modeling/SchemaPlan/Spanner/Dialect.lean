import SchemaPlan.Index
import SchemaPlan.Spanner.Options
import SchemaPlan.Text.Quoted

/-!
# The Spanner dialect

How Cloud Spanner stores declared fields, and the statements that change tables there. Columns have
no defaults and do not count, a primary key stays as it was created, and a new column of an existing
table has to accept null. Type, nullability and options of a column are changed one by one.
-/
namespace SchemaPlan

open Text Ddl

/-- A Spanner dialect: the types that its user added. -/
structure Spanner where
  registered : List TypeEntry := []
  deriving DecidableEq

namespace Spanner

def arrayForm : ArrayForm := ⟨"ARRAY<", ">"⟩

/-- The types of Spanner and the source spellings that they store. -/
def builtinTypes : List TypeEntry := [
  .ofSpellings "BOOL" ["bool"],
  .ofSpellings "INT64" ["i64", "i32", "i16", "i8", "u32", "u16", "u8", "isize"],
  .ofSpellings "FLOAT64" ["f64"],
  .ofSpellings "FLOAT32" ["f32"],
  .ofSpellings "STRING(MAX)" ["String"],
  .ofSpellings "BYTES(MAX)" ["Vec<u8>"],
  .ofSpellings "TIMESTAMP" ["DateTime<Utc>", "chrono::DateTime<Utc>",
    "chrono::DateTime<chrono::Utc>", "time::OffsetDateTime"],
  .ofSpellings "DATE" ["NaiveDate", "chrono::NaiveDate", "time::Date"],
  .ofSpellings "NUMERIC" ["Decimal", "rust_decimal::Decimal"],
  .ofSpellings "JSON" ["serde_json::Value", "Value"]]

def types (dialect : Spanner) : Registry :=
  ⟨builtinTypes, dialect.registered, some arrayForm⟩

/-! ## Types and column definitions -/

/-- A registered type with a length: strings and bytes up to their limits, lists in their
elements. -/
def sizedType (size : UInt64) (ddl : List Char) : String :=
  match _h : arrayForm.element? ddl with
  | some element => arrayForm.wrap (sizedType size element)
  | none =>
    let base := baseType (String.ofList ddl)
    if base = "STRING" && size ≤ 2621440 then
      "STRING(" ++ Decimal.decimal size.toNat ++ ")"
    else if base = "BYTES" && size ≤ 10485760 then
      "BYTES(" ++ Decimal.decimal size.toNat ++ ")"
    else String.ofList ddl
termination_by ddl.length
decreasing_by
  have h := congrArg List.length (ArrayForm.eq_of_element? _h)
  simp only [List.length_append] at h
  have : arrayForm.before.toList.length = 6 := by decide
  omega

def typeOf (dialect : Spanner) (field : FieldDecl) : String :=
  match field.ddlType with
  | some ddl => normalize ddl
  | none =>
    match dialect.types.resolve? field.type field.isNullable with
    | some (.canonical ddl) => (field.size.map fun size => sizedType size ddl.toList).getD ddl
    | some (.named ddl) => ddl
    | none => normalize field.type

/-- A type with its nullability, as a definition writes them. -/
def typeClause (ddl : String) (nullable : Bool) : String :=
  if nullable then ddl else ddl ++ " NOT NULL"

def columnDefinition (dialect : Spanner) (field : FieldDecl) : String :=
  quoteName field.columnName ++ " " ++ typeClause (dialect.typeOf field) field.isNullable ++
    match normalizeExtra field.extra with
    | some options => " OPTIONS (" ++ options ++ ")"
    | none => ""

def quoteLiteral (text : String) : String :=
  Text.quoteLiteral .backslashed text

/-! ## Statements -/

/-- The text without blanks and commas at its start and blanks at its end. -/
def tableOption (option : String) : String :=
  String.ofList (trim ((trim option.toList).dropWhile (· == ',')))

/-- The statements that create a table with its key, and then its indexes. -/
def createTable (dialect : Spanner) (table : TableDecl) (indexes : List Index) : List String :=
  let option := (table.option.map tableOption).getD ""
  let body := ",\n  ".intercalate (table.fields.map dialect.columnDefinition)
  let create :=
    "CREATE TABLE " ++ quoteName table.name ++ " (\n  " ++ body ++ "\n) PRIMARY KEY (" ++
      quoteNames table.primaryKey ++ ")" ++ (if option = "" then "" else ", " ++ option)
  create :: indexes.map (Index.createStatement table.name)

/-- The statement that adds a column, which has to accept null. -/
def addColumn (dialect : Spanner) (table : String) (field : FieldDecl) :
    Except SchemaError (List String) :=
  if field.isNullable then
    .ok ["ALTER TABLE " ++ quoteName table ++ " ADD COLUMN " ++ dialect.columnDefinition field]
  else .error (.unsupported "spanner" table (some field.columnName) .addRequiredColumn)

/-- The statements that turn one column into another. A change of type keeps the old nullability;
nullability and options are changed by statements of their own. -/
def alterColumn (dialect : Spanner) (table : String) (old new : FieldDecl) : List String :=
  let alter :=
    "ALTER TABLE " ++ quoteName table ++ " ALTER COLUMN " ++ quoteName new.columnName ++ " "
  let ddl := dialect.typeOf new
  let type :=
    if normalize (dialect.typeOf old) = normalize ddl then []
    else [alter ++ typeClause ddl old.isNullable]
  let nullability :=
    if old.isNullable = new.isNullable then [] else [alter ++ typeClause ddl new.isNullable]
  let changes := (Options.ofExtra old.extra).changes (Options.ofExtra new.extra)
  let options :=
    if changes.entries.isEmpty then [] else [alter ++ "SET OPTIONS (" ++ changes.render ++ ")"]
  type ++ nullability ++ options

def dropColumn (table column : String) : String :=
  "ALTER TABLE " ++ quoteName table ++ " DROP COLUMN " ++ quoteName column

/-- The statement that drops an index; index names belong to the whole database. -/
def dropIndex (name : String) : String :=
  "DROP INDEX " ++ quoteName name

/-- The statements that drop a table after its indexes. -/
def dropTable (table : String) (indexes : List Index) : List String :=
  indexes.map (fun index => dropIndex index.name) ++ ["DROP TABLE " ++ quoteName table]

/-! ## Limits -/

def validateField (table : String) (field : FieldDecl) : Except SchemaError Unit :=
  let column := field.columnName
  if field.defaultValue.isSome then
    .error (.unsupported "spanner" table (some column) .defaultValue)
  else if field.autoIncrement then
    .error (.unsupported "spanner" table (some column) .autoIncrement)
  else
    match field.extra.map Options.read with
    | some (.error fault) => .error (.input (.conflict table column (.options fault)))
    | _ => .ok ()

def validateTable (table : TableDecl) : Except SchemaError Unit :=
  if table.primaryKey.isEmpty then .error (.unsupported "spanner" table.name none .noPrimaryKey)
  else .ok ()

end Spanner

end SchemaPlan
