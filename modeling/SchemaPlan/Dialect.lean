import SchemaPlan.MySql.Dialect
import SchemaPlan.Spanner.Dialect

/-!
# Dialects

The two families of databases behind one interface: how each stores a field, what of a field can be
compared with a live column (`attributes`), and the field that a live column stands for
(`fieldOfColumn`).
-/
namespace SchemaPlan

open Ddl

/-- The dialect that statements are written in. -/
inductive Dialect where
  | mysql (dialect : MySql)
  | spanner (dialect : Spanner)
  deriving DecidableEq

/-- What of a column is compared: two fields with the same attributes need no change. -/
structure Attributes where
  /-- Type in normal form, with size, precision and scale. -/
  ddlType : String
  nullable : Bool
  defaultValue : Option String
  primaryKey : Bool
  autoIncrement : Bool
  unique : Bool
  extra : Option String
  comment : Option String
  deriving DecidableEq

namespace Dialect

def name : Dialect → String
  | .mysql _ => "mysql"
  | .spanner _ => "spanner"

def types : Dialect → Registry
  | .mysql d => d.types
  | .spanner d => d.types

def quoteLiteral : Dialect → String → String
  | .mysql _ => MySql.quoteLiteral
  | .spanner _ => Spanner.quoteLiteral

def typeOf : Dialect → FieldDecl → String
  | .mysql d => d.typeOf
  | .spanner d => d.typeOf

def columnDefinition : Dialect → FieldDecl → String
  | .mysql d => d.columnDefinition
  | .spanner d => d.columnDefinition

/-! ## Comparing fields and columns -/

/-- The default of a field as the catalog would report it. -/
def normalizeDefault : Dialect → FieldDecl → Option String
  | .mysql d => d.normalizeDefault
  | .spanner _ => fun _ => none

/-- The clause or options of a field as the catalog would report them. -/
def normalizeExtra : Dialect → Option String → Option String
  | .mysql _ => MySql.normalizeExtra
  | .spanner _ => Spanner.normalizeExtra

/-- The comment of a field as the catalog would report it; Spanner stores none. -/
def normalizeComment : Dialect → Option String → Option String
  | .mysql _ => MySql.normalizeComment
  | .spanner _ => fun _ => none

def attributes (dialect : Dialect) (field : FieldDecl) : Attributes where
  ddlType := normalize (dialect.typeOf field)
  nullable := field.isNullable
  defaultValue := dialect.normalizeDefault field
  primaryKey := field.primaryKey
  autoIncrement := field.autoIncrement
  unique := field.unique
  extra := dialect.normalizeExtra field.extra
  comment := dialect.normalizeComment field.comment

/-- The field that a live column stands for. Its source type is the canonical spelling of the stored
type; if that spelling would not be stored in the same type, the type is kept as it is. -/
def fieldOfColumn (dialect : Dialect) (column : Column) : FieldDecl :=
  let field : FieldDecl :=
    { name := column.name
      type := (dialect.types.canonicalSource? column.dataType column.nullable).getD column.dataType
      column := some column.name
      nullable := column.nullable
      comment := column.comment
      unique := column.unique
      primaryKey := column.primaryKey
      autoIncrement := column.autoIncrement
      defaultValue := column.defaultValue
      size := column.size
      precision := column.precision
      scale := column.scale
      extra := column.extra }
  if normalize (dialect.typeOf field) = normalize column.dataType then field
  else { field with ddlType := some column.dataType }

/-- Whether the stored type of a column does not accept a field's source spelling. Then the field
has changed, and nothing else of the column is looked at. -/
def mismatched (dialect : Dialect) (field : FieldDecl) (column : Column) : Bool :=
  field.ddlType.isNone &&
    match dialect.types.resolve? field.type field.isNullable with
    | some (.canonical _) => !dialect.types.equivalent field.type column.dataType
    | _ => false

/-- Whether a declared field differs from the live column of its name. The stored type has to accept
the source spelling, and all other attributes have to agree with those of the field that the column
stands for; uniqueness is that of the indexes on both sides. -/
def columnChanged (dialect : Dialect) (field : FieldDecl) (unique : Bool) (column : Column) :
    Bool :=
  let wanted := { dialect.attributes field with unique }
  let stored := { dialect.attributes (dialect.fieldOfColumn column) with unique := column.unique }
  dialect.mismatched field column || wanted != stored

/-! ## Limits -/

/-- Refuses a field that the dialect cannot store. -/
def validateField : Dialect → String → FieldDecl → Except SchemaError Unit
  | .mysql _ => fun _ _ => .ok ()
  | .spanner _ => Spanner.validateField

/-- Refuses a table that the dialect cannot store. -/
def validateTable : Dialect → TableDecl → Except SchemaError Unit
  | .mysql _ => fun _ => .ok ()
  | .spanner _ => Spanner.validateTable

end Dialect

end SchemaPlan
