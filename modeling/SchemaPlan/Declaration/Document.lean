import SchemaPlan.Declaration.Basic
import SchemaPlan.Json.Reader
import SchemaPlan.Json.Record
import SchemaPlan.Json.Writer

/-!
# Schema documents

Declared schemas as JSON. Every declaration is an object whose keys are fixed; options that are not
set are left out, flags are always written. A declaration may also be read from a list of its values
in the order of its keys, where a tail of optional ones may be missing. Unknown, repeated and
missing keys are faults, and so is `null` for a value that must be there.
-/
namespace SchemaPlan

open Json

/-! ## Declarations -/

def IndexDecl.keys : List String := ["name", "unique"]

def FieldDecl.keys : List String :=
  ["name", "type", "nullable", "column", "comment", "unique", "unique_index", "primary_key",
    "auto_increment", "default", "db_type", "size", "precision", "scale", "extra", "index"]

def TableDecl.keys : List String := ["name", "fields", "option"]

def Document.keys : List String := ["tables"]

def IndexDecl.ofJson : Json → Except Fault IndexDecl :=
  readRecord IndexDecl.keys fun members => do
    let name ← optional members "name" readText
    let unique ← flag members "unique"
    .ok { name, unique }

def FieldDecl.ofJson : Json → Except Fault FieldDecl :=
  readRecord FieldDecl.keys fun members => do
    let name ← required members "name" readText
    let type ← required members "type" readText
    let nullable ← flag members "nullable"
    let column ← optional members "column" readText
    let comment ← optional members "comment" readText
    let unique ← flag members "unique"
    let uniqueIndex ← optional members "unique_index" readText
    let primaryKey ← flag members "primary_key"
    let autoIncrement ← flag members "auto_increment"
    let defaultValue ← optional members "default" readText
    let ddlType ← optional members "db_type" readText
    let size ← optional members "size" readWord
    let precision ← optional members "precision" readWord
    let scale ← optional members "scale" readWord
    let extra ← optional members "extra" readText
    let index ← optional members "index" IndexDecl.ofJson
    .ok { name, type, nullable, column, comment, unique, uniqueIndex, primaryKey, autoIncrement,
          defaultValue, ddlType, size, precision, scale, extra, index }

def TableDecl.ofJson : Json → Except Fault TableDecl :=
  readRecord TableDecl.keys fun members => do
    let name ← required members "name" readText
    let fields ← required members "fields" (readList FieldDecl.ofJson)
    let option ← optional members "option" readText
    .ok { name, fields, option }

def Document.ofJson : Json → Except Fault Document :=
  readRecord Document.keys fun members => do
    let tables ← required members "tables" (readList TableDecl.ofJson)
    .ok { tables }

/-- Reads a document from JSON text. -/
def Document.read (text : String) : Except Fault Document :=
  (Json.read text).bind Document.ofJson

def IndexDecl.toJson (index : IndexDecl) : Json :=
  .object (optionMember "name" .text index.name ++ [("unique", .bool index.unique)])

def FieldDecl.toJson (field : FieldDecl) : Json :=
  .object (
    [("name", .text field.name), ("type", .text field.type), ("nullable", .bool field.nullable)] ++
    optionMember "column" .text field.column ++
    optionMember "comment" .text field.comment ++
    [("unique", .bool field.unique)] ++
    optionMember "unique_index" .text field.uniqueIndex ++
    [("primary_key", .bool field.primaryKey), ("auto_increment", .bool field.autoIncrement)] ++
    optionMember "default" .text field.defaultValue ++
    optionMember "db_type" .text field.ddlType ++
    optionMember "size" word field.size ++
    optionMember "precision" word field.precision ++
    optionMember "scale" word field.scale ++
    optionMember "extra" .text field.extra ++
    optionMember "index" IndexDecl.toJson field.index)

def TableDecl.toJson (table : TableDecl) : Json :=
  .object (
    [("name", .text table.name), ("fields", .list (table.fields.map FieldDecl.toJson))] ++
    optionMember "option" .text table.option)

def Document.toJson (document : Document) : Json :=
  .object [("tables", .list (document.tables.map TableDecl.toJson))]

end SchemaPlan
