import SchemaPlan.Dialect

/-!
# Validation

Whether declared tables make sense, by themselves and in a dialect. It needs no database. The first
fault counts: tables and fields are looked at in their order, and a table's indexes after its
fields.
-/
namespace SchemaPlan

/-- The fault of a field by itself, given the columns that come before it. -/
def fieldFault (dialect : Dialect) (table : String) (before : List String) (field : FieldDecl) :
    Except SchemaError Unit :=
  let column := field.columnName
  if before.contains column then .error (.input (.duplicateColumn table column))
  else if field.ddlType.isNone &&
      (dialect.types.resolve? field.type field.isNullable).isNone then
    .error (.input (.unresolvedType table column field.type))
  else if field.uniqueIndex.isSome && !field.unique then
    .error (.input (.conflict table column .indexNameWithoutUnique))
  else if field.scale.isSome && field.precision.isNone then
    .error (.input (.conflict table column .scaleWithoutPrecision))
  else if field.autoIncrement && field.defaultValue.isSome then
    .error (.input (.conflict table column .defaultOnAutoIncrement))
  else dialect.validateField table field

/-- Validates the fields of a table; `before` are the columns that have come up. -/
def validateFields (dialect : Dialect) (table : String) (before : List String) :
    List FieldDecl → Except SchemaError Unit
  | [] => .ok ()
  | field :: rest => do
    fieldFault dialect table before field
    validateFields dialect table (field.columnName :: before) rest

/-- Fields that share an index have to agree on its uniqueness; `known` are the uses that have come
up. -/
def validateIndexUses (table : String) (known : List IndexUse) :
    List IndexUse → Except SchemaError Unit
  | [] => .ok ()
  | use :: rest =>
    if known.any fun other => other.index = use.index && other.unique != use.unique then
      .error (.input (.conflict table use.column (.mixedUniqueness use.index)))
    else validateIndexUses table (use :: known) rest

def validateTable (dialect : Dialect) (table : TableDecl) : Except SchemaError Unit := do
  if table.fields.isEmpty then .error (.input (.emptyTable table.name))
  validateFields dialect table.name [] table.fields
  validateIndexUses table.name [] table.indexUses
  dialect.validateTable table

def validateTables (dialect : Dialect) (before : List String) :
    List TableDecl → Except SchemaError Unit
  | [] => .ok ()
  | table :: rest => do
    if before.contains table.name then .error (.input (.duplicateTable table.name))
    validateTable dialect table
    validateTables dialect (table.name :: before) rest

def validate (dialect : Dialect) (tables : List TableDecl) : Except SchemaError Unit :=
  validateTables dialect [] tables

end SchemaPlan
