import SchemaPlan.Catalog
import SchemaPlan.Error
import SchemaPlan.MySql.Dialect

/-!
# MySQL catalog rows

The rows in which a MySQL server describes its columns and the parts of its indexes, and the columns
that they describe.
-/
namespace SchemaPlan.MySql

open Text

/-- A row about a column. -/
structure ColumnRow where
  table : String := ""
  column : Option String := none
  position : Nat := 0
  /-- Full type, such as `bigint(20) unsigned`. -/
  columnType : String := ""
  /-- Name of the type, such as `bigint`. -/
  dataType : String := ""
  /-- `YES` or `NO`. -/
  isNullable : String := ""
  defaultValue : Option String := none
  extra : Option String := none
  comment : Option String := none
  charLength : Option UInt64 := none
  numericPrecision : Option UInt64 := none
  numericScale : Option UInt64 := none
  datetimePrecision : Option UInt64 := none
  deriving DecidableEq

/-- A row about a part of an index. A part that is an expression has no column. -/
structure IndexRow where
  table : String := ""
  index : String := ""
  column : Option String := none
  position : Nat := 0
  nonUnique : Bool := false
  deriving DecidableEq

/-- The name under which the primary key is reported. -/
def primaryIndex : String := "PRIMARY"

/-- The memberships of a column, in the order of the rows. -/
def membershipsOf (rows : List IndexRow) (table column : String) : List Membership :=
  (rows.filter fun row => row.table = table && row.column = some column).map fun row =>
    ⟨row.index, row.position, !row.nonUnique, row.index = primaryIndex⟩

/-- Whether an index has exactly one part with a column. -/
def hasOneColumn (rows : List IndexRow) (table index : String) : Bool :=
  (rows.filter fun row => row.table = table && row.index = index && row.column.isSome).length == 1

def readNullability (row : ColumnRow) (name : String) : Except CatalogError Bool :=
  if row.isNullable = "YES" then .ok true
  else if row.isNullable = "NO" then .ok false
  else .error (.row row.table name (.nullability row.isNullable))

/-- The column that a row describes, with its name and memberships. -/
def columnOfRow (version : Version) (rows : List IndexRow) (row : ColumnRow) (name : String)
    (memberships : List Membership) : Except CatalogError Column :=
  (readNullability row name).map fun nullable =>
    let dataType := lowerAscii row.dataType.toList
    let isDecimal := dataType = "decimal".toList || dataType = "numeric".toList
    let isTime := dataType = "datetime".toList || dataType = "timestamp".toList ||
      dataType = "time".toList
    let counts := (row.extra.map fun e => lowerAscii e.toList).any
      (occursIn "auto_increment".toList)
    { table := row.table
      name
      dataType := normalizeColumnType row.columnType
      position := row.position
      nullable
      defaultValue := reportedDefault? version row.defaultValue
      primaryKey := memberships.any (·.primary)
      autoIncrement := counts
      unique := memberships.any fun m =>
        m.unique && !m.primary && hasOneColumn rows row.table m.name
      size := if hasLength (String.ofList dataType) then row.charLength else none
      precision :=
        if isDecimal then row.numericPrecision else if isTime then row.datetimePrecision else none
      scale := if isDecimal then row.numericScale else none
      extra := normalizeExtra row.extra
      comment := normalizeComment row.comment
      memberships }

/-- The columns that rows describe. Rows without a column name are passed over, and of several rows
about one column the first has its memberships. -/
def columnsFrom (version : Version) (rows : List IndexRow) (seen : List (String × String)) :
    List ColumnRow → Except CatalogError (List Column)
  | [] => .ok []
  | row :: rest =>
    match row.column with
    | none => columnsFrom version rows seen rest
    | some name => do
      let memberships :=
        if seen.contains (row.table, name) then [] else membershipsOf rows row.table name
      let column ← columnOfRow version rows row name memberships
      let others ← columnsFrom version rows ((row.table, name) :: seen) rest
      .ok (column :: others)

/-- The columns that a server's rows describe. -/
def columnsOfRows (dialect : MySql) (columns : List ColumnRow) (indexes : List IndexRow) :
    Except CatalogError (List Column) :=
  columnsFrom dialect.version indexes [] columns

end SchemaPlan.MySql
