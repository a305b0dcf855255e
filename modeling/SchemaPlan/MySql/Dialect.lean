import SchemaPlan.Index
import SchemaPlan.MySql.Clause
import SchemaPlan.MySql.Default

/-!
# The MySQL dialect

How MySQL and MariaDB store declared fields, and the statements that change tables there: the type
of a field with its size and precision, column definitions, and one statement text for each kind of
change.
-/
namespace SchemaPlan

open Text Ddl

/-- A MySQL dialect: the server it is for, and the types that its user added. -/
structure MySql where
  version : MySql.Version := {}
  registered : List TypeEntry := []
  deriving DecidableEq

namespace MySql

def types (dialect : MySql) : Registry :=
  ⟨builtinTypes, dialect.registered, none⟩

/-! ## Types and column definitions -/

def withArgument (name : String) (argument : UInt64) : String :=
  name ++ "(" ++ Decimal.decimal argument.toNat ++ ")"

/-- The type for a length: the plain type up to a limit, then the medium and the long one. -/
def typeForLength (name : String) (limit : UInt64) (medium long : String) (length : UInt64) :
    String :=
  if length ≤ limit then withArgument name length
  else if length ≤ 16777215 then medium
  else long

/-- A registered type with the size, precision and scale that a field asks for. -/
def sizedType (ddl : String) (field : FieldDecl) : String :=
  let base := baseType ddl
  if base = "VARCHAR" then
    (field.size.map (typeForLength "VARCHAR" 16383 "MEDIUMTEXT" "LONGTEXT")).getD ddl
  else if base = "VARBINARY" then
    (field.size.map (typeForLength "VARBINARY" 65532 "MEDIUMBLOB" "LONGBLOB")).getD ddl
  else if base = "DECIMAL" then
    match field.precision with
    | some precision =>
      "DECIMAL(" ++ Decimal.decimal precision.toNat ++ "," ++
        Decimal.decimal (field.scale.getD 0).toNat ++ ")"
    | none => ddl
  else if base = "DATETIME" || base = "TIMESTAMP" || base = "TIME" then
    match field.precision with
    | some precision => if 0 < precision then withArgument ddl precision else ddl
    | none => ddl
  else ddl

def typeOf (dialect : MySql) (field : FieldDecl) : String :=
  match field.ddlType with
  | some ddl => normalizeColumnType ddl
  | none =>
    match dialect.types.resolve? field.type field.isNullable with
    | some (.canonical ddl) => sizedType ddl field
    | some (.named ddl) => normalizeColumnType ddl
    | none => normalizeColumnType field.type

/-- The default of a field as the server stores it. -/
def normalizeDefault (dialect : MySql) (field : FieldDecl) : Option String :=
  (field.defaultValue.bind fun value =>
    storedDefault? (dialect.typeOf field) value.toList).map String.ofList

/-- The comment of a field as the server stores it. -/
def normalizeComment (comment : Option String) : Option String :=
  comment.filter fun c => c != ""

def columnDefinition (dialect : MySql) (field : FieldDecl) : String :=
  let ddl := dialect.typeOf field
  let nullability := if field.isNullable then "NULL" else "NOT NULL"
  let counter := if field.autoIncrement then ["AUTO_INCREMENT"] else []
  let default := (dialect.normalizeDefault field).toList.map fun value =>
    "DEFAULT " ++ writtenDefault ddl value.toList
  let extra := (normalizeExtra field.extra).toList
  let comment := (normalizeComment field.comment).toList.map fun text =>
    "COMMENT " ++ quoteLiteral text
  " ".intercalate
    ([quoteName field.columnName, ddl, nullability] ++ counter ++ default ++ extra ++ comment)

/-! ## Statements -/

def alterTable (table change : String) : String :=
  "ALTER TABLE " ++ quoteName table ++ " " ++ change

def keyClause (columns : List String) : String :=
  "PRIMARY KEY (" ++ quoteNames columns ++ ")"

def indexClause (index : Index) : String :=
  (if index.unique then "UNIQUE " else "") ++ "INDEX " ++ quoteName index.name ++ " (" ++
    quoteNames index.columns ++ ")"

def createTable (dialect : MySql) (table : TableDecl) (indexes : List Index) : String :=
  let key := if table.primaryKey.isEmpty then [] else [keyClause table.primaryKey]
  let lines := table.fields.map dialect.columnDefinition ++ key ++ indexes.map indexClause
  let option := (table.option.map trimmed).getD ""
  "CREATE TABLE " ++ quoteName table.name ++ " (\n  " ++ ",\n  ".intercalate lines ++ "\n)" ++
    (if option = "" then "" else " " ++ option)

def addColumn (dialect : MySql) (table : String) (field : FieldDecl) : String :=
  alterTable table ("ADD " ++ dialect.columnDefinition field)

def modifyColumn (dialect : MySql) (table : String) (field : FieldDecl) : String :=
  alterTable table ("MODIFY " ++ dialect.columnDefinition field)

def dropColumn (table column : String) : String :=
  alterTable table ("DROP " ++ quoteName column)

def dropIndex (table name : String) : String :=
  "DROP INDEX " ++ quoteName name ++ " ON " ++ quoteName table

def dropTable (table : String) : String :=
  "DROP TABLE " ++ quoteName table

/-- The statement that replaces a primary key, if there is anything to replace. The new columns of
the key are added in the same statement, since a counting column has to be a key at every step. -/
def changePrimaryKey (dialect : MySql) (table : String) (old new : List String)
    (added : List FieldDecl) : List String :=
  let drop := if old.isEmpty then [] else ["DROP PRIMARY KEY"]
  let columns := added.map fun field => "ADD " ++ dialect.columnDefinition field
  let add := if new.isEmpty then [] else ["ADD " ++ keyClause new]
  match drop ++ columns ++ add with
  | [] => []
  | clauses => [alterTable table (", ".intercalate clauses)]

end MySql

end SchemaPlan
