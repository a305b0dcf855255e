import SchemaPlan.Operation
import SchemaPlan.Validation

/-!
# Plans

The operations, and then the statements, that turn a live schema into the declared one. Declared
tables come first, in name order, and then the live tables that are not declared are dropped. The
operations on one live table are ordered so that a key or an index name is free before it is used
again: key, dropped indexes, dropped columns, new columns, changed columns, new indexes.
-/
namespace SchemaPlan

namespace Dialect

/-- The change of a table's primary key, with the new columns that the new key covers. -/
def keyOperations (table : TableDecl) (live : LiveTable) : List Operation :=
  if table.primaryKey = live.primaryKey then []
  else
    let added := table.fields.filter fun field =>
      table.primaryKey.contains field.columnName && (live.column? field.columnName).isNone
    [.changeKey table.name live.primaryKey table.primaryKey added]

/-- The columns that an operation on a key adds. -/
def addedByKey (operations : List Operation) : List String :=
  operations.flatMap fun
    | .changeKey _ _ _ added => added.map (·.columnName)
    | _ => []

/-- The operations that turn a live table into the declared one. -/
def tableOperations (dialect : Dialect) (table : TableDecl) (live : LiveTable) : List Operation :=
  let key := keyOperations table live
  let wanted := table.indexes
  let uniqueColumns := soleUniqueColumns wanted
  let changes := diffIndexes wanted live.indexes
  let dropIndexes := changes.drop.map (Operation.dropIndex table.name)
  let dropColumns :=
    (live.columns.filter fun column => !table.columnNames.contains column.name).map fun column =>
      Operation.dropColumn table.name column.name
  let addColumns :=
    (table.fields.filter fun field =>
      (live.column? field.columnName).isNone && !(addedByKey key).contains field.columnName).map
        (Operation.addColumn table.name)
  let alterColumns := table.fields.filterMap fun field =>
    (live.column? field.columnName).bind fun column =>
      if dialect.columnChanged field (uniqueColumns.contains field.columnName) column then
        some (Operation.alterColumn table.name (dialect.fieldOfColumn column) field)
      else none
  let createIndexes := changes.create.map (Operation.createIndex table.name)
  key ++ dropIndexes ++ dropColumns ++ addColumns ++ alterColumns ++ createIndexes

def declaredOperations (dialect : Dialect) (live : NameMap LiveTable) (table : TableDecl) :
    List Operation :=
  match live.find? table.name with
  | none => [.createTable table table.indexes.values]
  | some existing => dialect.tableOperations table existing

/-- The operations that turn a live schema into the declared one. -/
def operations (dialect : Dialect) (declared : List TableDecl) (columns : List Column) :
    List Operation :=
  let live := liveTables columns
  let ordered := declared.mergeSort fun a b => decide (a.name ≤ b.name)
  let names := declared.map (·.name)
  let leftOver := (live.filter fun name _ => !names.contains name).values
  ordered.flatMap (dialect.declaredOperations live) ++
    leftOver.map fun table => .dropTable table.name table.indexes.values

/-- The statements that turn a live schema into the declared one. -/
def planValidated (dialect : Dialect) (declared : List TableDecl) (columns : List Column) :
    Except SchemaError (List Statement) :=
  dialect.statements (dialect.operations declared columns)

/-- Validates the declared tables and plans the statements that lead to them. -/
def plan (dialect : Dialect) (declared : List TableDecl) (columns : List Column) :
    Except SchemaError (List Statement) := do
  validate dialect declared
  dialect.planValidated declared columns

end Dialect

end SchemaPlan
