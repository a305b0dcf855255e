import SchemaPlan.Registry
import SchemaPlan.Text.SnakeCase

/-!
# Declared schemas

The tables that a schema should have: fields with their options, tables, and whole documents. A
field is a column of its table; its name may differ from the column's, and its type is a source
spelling rather than a DDL type.
-/
namespace SchemaPlan

/-- A secondary index that a field takes part in. Fields that name the same index share it. -/
structure IndexDecl where
  name : Option String := none
  unique : Bool := false
  deriving DecidableEq

/-- A declared column. -/
structure FieldDecl where
  name : String
  /-- Source spelling of the type. -/
  type : String
  nullable : Bool := false
  /-- Column name, if it is not the field's name in snake case. -/
  column : Option String := none
  comment : Option String := none
  unique : Bool := false
  /-- Name of the index that enforces uniqueness. -/
  uniqueIndex : Option String := none
  primaryKey : Bool := false
  autoIncrement : Bool := false
  /-- Default literal, without quotes. -/
  defaultValue : Option String := none
  /-- DDL type, if it is not the one of the source spelling. -/
  ddlType : Option String := none
  size : Option UInt64 := none
  precision : Option UInt64 := none
  scale : Option UInt64 := none
  /-- Clause behind the column definition (MySQL) or column options (Spanner). -/
  extra : Option String := none
  index : Option IndexDecl := none
  deriving DecidableEq

/-- A declared table. -/
structure TableDecl where
  name : String
  fields : List FieldDecl := []
  /-- Clause behind the table body. -/
  option : Option String := none
  deriving DecidableEq

/-- The tables of a schema. -/
structure Document where
  tables : List TableDecl := []
  deriving DecidableEq

namespace FieldDecl

/-- The field with a uniqueness constraint that a named index enforces. -/
def uniqueUnder (field : FieldDecl) (index : String) : FieldDecl :=
  { field with unique := true, uniqueIndex := some index }

def withPrecision (field : FieldDecl) (precision : UInt64) (scale : Option UInt64) : FieldDecl :=
  { field with precision := some precision, scale := scale }

def columnName (field : FieldDecl) : String :=
  field.column.getD (Text.snakeCase field.name)

/-- Whether the column accepts null: it is declared so or its type is optional, and it is not part
of the primary key. -/
def isNullable (field : FieldDecl) : Bool :=
  (field.nullable || (stripOption (Text.withoutBlanks field.type.toList)).2) && !field.primaryKey

end FieldDecl

namespace TableDecl

/-- The columns of the primary key, in declaration order. -/
def primaryKey (table : TableDecl) : List String :=
  (table.fields.filter (·.primaryKey)).map (·.columnName)

def columnNames (table : TableDecl) : List String :=
  table.fields.map (·.columnName)

end TableDecl

end SchemaPlan
