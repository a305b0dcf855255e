import SchemaPlan.Dialect

/-!
# Schema operations

The changes that a plan is made of, said without SQL, and the statements that express each of them
in a dialect. One operation may take several statements, or none.
-/
namespace SchemaPlan

/-- A change to the schema of a database. -/
inductive Operation where
  | createTable (table : TableDecl) (indexes : List Index)
  /-- Replaces the primary key of a table; `added` are the new columns that the new key covers. -/
  | changeKey (table : String) (old new : List String) (added : List FieldDecl)
  | dropIndex (table name : String)
  | dropColumn (table column : String)
  | addColumn (table : String) (field : FieldDecl)
  | alterColumn (table : String) (old new : FieldDecl)
  | createIndex (table : String) (index : Index)
  | dropTable (table : String) (indexes : List Index)
  deriving DecidableEq

def Operation.table : Operation → String
  | .createTable table _ => table.name
  | .changeKey table _ _ _ => table
  | .dropIndex table _ => table
  | .dropColumn table _ => table
  | .addColumn table _ => table
  | .alterColumn table _ _ => table
  | .createIndex table _ => table
  | .dropTable table _ => table

/-- One DDL statement, with the table it is about. -/
structure Statement where
  table : String
  sql : String
  deriving DecidableEq

namespace Dialect

def render (dialect : Dialect) : Operation → Except SchemaError (List String)
  | .createTable table indexes =>
    match dialect with
    | .mysql d => .ok [d.createTable table indexes]
    | .spanner d => .ok (d.createTable table indexes)
  | .changeKey table old new added =>
    match dialect with
    | .mysql d => .ok (d.changePrimaryKey table old new added)
    | .spanner _ => .error (.unsupported "spanner" table none .changePrimaryKey)
  | .dropIndex table name =>
    match dialect with
    | .mysql _ => .ok [MySql.dropIndex table name]
    | .spanner _ => .ok [Spanner.dropIndex name]
  | .dropColumn table column =>
    match dialect with
    | .mysql _ => .ok [MySql.dropColumn table column]
    | .spanner _ => .ok [Spanner.dropColumn table column]
  | .addColumn table field =>
    match dialect with
    | .mysql d => .ok [d.addColumn table field]
    | .spanner d => d.addColumn table field
  | .alterColumn table old new =>
    match dialect with
    | .mysql d => .ok [d.modifyColumn table new]
    | .spanner d => .ok (d.alterColumn table old new)
  | .createIndex table index => .ok [index.createStatement table]
  | .dropTable table indexes =>
    match dialect with
    | .mysql _ => .ok [MySql.dropTable table]
    | .spanner _ => .ok (Spanner.dropTable table indexes)

/-- The statements of an operation. -/
def statementsOf (dialect : Dialect) (operation : Operation) :
    Except SchemaError (List Statement) :=
  (dialect.render operation).map fun texts => texts.map (Statement.mk operation.table)

/-- The statements of several operations, one after the other. -/
def statements (dialect : Dialect) (operations : List Operation) :
    Except SchemaError (List Statement) :=
  (operations.mapM dialect.statementsOf).map List.flatten

end Dialect

end SchemaPlan
