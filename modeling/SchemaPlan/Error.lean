import SchemaPlan.Json.Writer
import SchemaPlan.Text.Display

/-!
# Errors

What can go wrong between a schema document and a changed database, each cause as a constructor of
its own, and the wording of each in one `message` function.
-/
namespace SchemaPlan

/-- Text between backticks in a message. -/
def ticked (s : String) : String :=
  "`" ++ s ++ "`"

/-! ## Malformed declarations -/

/-- What is wrong with the text of column options. -/
inductive OptionFault where
  | brackets (text : String)
  | notAssignment (entry : String)
  deriving DecidableEq

def OptionFault.message : OptionFault → String
  | .brackets text => "malformed option list " ++ ticked text
  | .notAssignment entry => "option " ++ ticked entry ++ " is not of the form name=value"

/-- Field options that cannot stand together. -/
inductive FieldConflict where
  | indexNameWithoutUnique
  | scaleWithoutPrecision
  | defaultOnAutoIncrement
  | mixedUniqueness (index : String)
  | options (fault : OptionFault)
  deriving DecidableEq

def FieldConflict.message : FieldConflict → String
  | .indexNameWithoutUnique => "unique index name given without unique"
  | .scaleWithoutPrecision => "scale given without precision"
  | .defaultOnAutoIncrement => "auto-increment column cannot have a default"
  | .mixedUniqueness index => "index " ++ ticked index ++ " is declared both unique and non-unique"
  | .options fault => fault.message

/-- What is wrong with a declared schema. -/
inductive InputError where
  | unresolvedType (table column type : String)
  | duplicateTable (table : String)
  | duplicateColumn (table column : String)
  | emptyTable (table : String)
  | conflict (table column : String) (reason : FieldConflict)
  deriving DecidableEq

def InputError.message : InputError → String
  | .unresolvedType table column type =>
    table ++ "." ++ column ++ ": cannot resolve type " ++ ticked type
  | .duplicateTable table => "table " ++ ticked table ++ " is declared more than once"
  | .duplicateColumn table column =>
    table ++ "." ++ column ++ ": column is declared more than once"
  | .emptyTable table => "table " ++ ticked table ++ " declares no columns"
  | .conflict table column reason => table ++ "." ++ column ++ ": " ++ reason.message

/-- Constructs that a dialect cannot express. -/
inductive Feature where
  | addRequiredColumn
  | changePrimaryKey
  | noPrimaryKey
  | defaultValue
  | autoIncrement
  deriving DecidableEq

def Feature.message : Feature → String
  | .addRequiredColumn => "adding a NOT NULL column to an existing table"
  | .changePrimaryKey => "changing the primary key"
  | .noPrimaryKey => "a table without a primary key"
  | .defaultValue => "default values"
  | .autoIncrement => "auto-increment"

/-! ## Failing servers -/

/-- A failed access to a MySQL server. -/
inductive DatabaseError where
  | server (code : Nat) (state message : String)
  | poolClosed
  | unexpectedNull (column : String)
  | badAddress
  deriving DecidableEq

def DatabaseError.message : DatabaseError → String
  | .server code state message =>
    "error returned from database: " ++ Decimal.decimal code ++ " (" ++ state ++ "): " ++ message
  | .poolClosed => "attempted to acquire a connection on a closed pool"
  | .unexpectedNull column =>
    "error occurred while decoding column \"" ++ column ++
      "\": unexpected null; try decoding as an `Option`"
  | .badAddress => "error with configuration: relative URL without a base"

/-- A failed call of a Spanner admin client. -/
inductive AdminError where
  | request (message : String)
  /-- A batch failed after some of its statements had been applied. -/
  | batch (completed : Nat) (message : String)
  deriving DecidableEq

def AdminError.message : AdminError → String
  | .request message => "request failed: " ++ message
  | .batch completed message =>
    "DDL batch failed after " ++ Decimal.decimal completed ++ " statement(s): " ++ message

/-- A failure while statements are executed. -/
inductive DriverError where
  | database (error : DatabaseError)
  | admin (error : AdminError)
  deriving DecidableEq

def DriverError.message : DriverError → String
  | .database error => "Database error: " ++ error.message
  | .admin error => "Spanner admin error: " ++ error.message

/-- How many statements of a batch had been applied, when the server says so. -/
def DriverError.completed? : DriverError → Option Nat
  | .admin (.batch completed _) => some completed
  | _ => none

/-! ## Unreadable catalogs -/

/-- What is wrong with a catalog row. -/
inductive RowFault where
  | missing (cell : String)
  | nullability (value : String)
  | nullabilityCell (value : Option String)
  | positionRange
  | position (value : String)
  | cellValue (value : Json)
  | version (text : String)

def RowFault.message : RowFault → String
  | .missing cell => "missing " ++ cell
  | .nullability value => "unexpected IS_NULLABLE value " ++ ticked value
  | .nullabilityCell none => "unexpected IS_NULLABLE value None"
  | .nullabilityCell (some value) =>
    "unexpected IS_NULLABLE value Some(" ++ Text.displayed value ++ ")"
  | .positionRange => "position out of range"
  | .position value => ticked value ++ " is not a valid position"
  | .cellValue value => "unexpected value " ++ Json.canonical value
  | .version text => "unrecognized server version " ++ ticked text

/-- Why a catalog could not be read. -/
inductive CatalogError where
  | driver (error : DriverError)
  /-- A row could not be understood; an unknown table or column is `?`. -/
  | row (table column : String) (fault : RowFault)

def CatalogError.message : CatalogError → String
  | .driver error => error.message
  | .row table column fault =>
    "malformed catalog row for " ++ table ++ "." ++ column ++ ": " ++ fault.message

/-! ## All errors -/

/-- Why a document could not be read from its file. -/
inductive FileFault where
  | notFound
  | notText
  deriving DecidableEq

def FileFault.message : FileFault → String
  | .notFound => "No such file or directory (os error 2)"
  | .notText => "stream did not contain valid UTF-8"

/-- Why a schema could not be planned or applied. -/
inductive SchemaError where
  | input (error : InputError)
  | catalog (error : CatalogError)
  | begin (error : DriverError)
  /-- A statement of a plan failed; statements are counted from zero. -/
  | apply (index : Nat) (table statement : String) (cause : DriverError)
  | unsupported (dialect table : String) (column : Option String) (feature : Feature)
  | file (fault : FileFault)
  | document (fault : Json.Fault)

/-- Where an unsupported construct was declared. -/
def location (table : String) : Option String → String
  | some column => "column " ++ ticked (table ++ "." ++ column)
  | none => "table " ++ ticked table

def SchemaError.message : SchemaError → String
  | .input error => "Invalid desired schema: " ++ error.message
  | .catalog error => "Failed to introspect current schema: " ++ error.message
  | .begin error => "Failed to begin DDL application: " ++ error.message
  | .apply index table statement cause =>
    "Statement #" ++ Decimal.decimal index ++ " on table " ++ ticked table ++ " failed: " ++
      cause.message ++ " (statement: " ++ statement ++ ")"
  | .unsupported dialect table column feature =>
    feature.message ++ " is not supported by " ++ dialect ++ " (" ++ location table column ++ ")"
  | .file fault => "IO error: " ++ fault.message
  | .document _ => "Serialization error"

end SchemaPlan
