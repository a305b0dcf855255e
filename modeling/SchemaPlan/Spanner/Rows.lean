import SchemaPlan.Catalog
import SchemaPlan.Spanner.Dialect

/-!
# Spanner catalog rows

The rows in which Spanner describes its columns, and the columns that they describe. The catalog
joins columns with their indexes and their options, so a column has one row for each pair of an
index and an option; the rows of a column are merged. Cells are JSON, with whole numbers as strings.
-/
namespace SchemaPlan.Spanner

open Text Ddl

/-- A row of the catalog: table, column, position, nullability, type, index, position in the index,
kind of index, uniqueness, option and its value. A row may end early. -/
abbrev Row := List Json

/-! ## The query -/

/-- The catalog query, up to the names of the tables. -/
def catalogSelection : String :=
  " ".intercalate [
    "SELECT c.TABLE_NAME, c.COLUMN_NAME, c.ORDINAL_POSITION, c.IS_NULLABLE, c.SPANNER_TYPE,",
    "i.INDEX_NAME, ic.ORDINAL_POSITION, i.INDEX_TYPE, i.IS_UNIQUE, o.OPTION_NAME, o.OPTION_VALUE",
    "FROM INFORMATION_SCHEMA.COLUMNS AS c",
    "LEFT JOIN INFORMATION_SCHEMA.INDEX_COLUMNS AS ic",
    "ON ic.TABLE_SCHEMA = c.TABLE_SCHEMA AND ic.TABLE_NAME = c.TABLE_NAME",
    "AND ic.COLUMN_NAME = c.COLUMN_NAME",
    "LEFT JOIN INFORMATION_SCHEMA.INDEXES AS i",
    "ON i.TABLE_SCHEMA = ic.TABLE_SCHEMA AND i.TABLE_NAME = ic.TABLE_NAME",
    "AND i.INDEX_NAME = ic.INDEX_NAME AND i.SPANNER_IS_MANAGED = FALSE",
    "LEFT JOIN INFORMATION_SCHEMA.COLUMN_OPTIONS AS o",
    "ON o.TABLE_SCHEMA = c.TABLE_SCHEMA AND o.TABLE_NAME = c.TABLE_NAME",
    "AND o.COLUMN_NAME = c.COLUMN_NAME",
    "WHERE c.TABLE_SCHEMA = ''"]

def catalogQuery (tables : List String) : String :=
  let filter :=
    if tables.isEmpty then ""
    else " AND c.TABLE_NAME IN (" ++ ", ".intercalate (tables.map quoteLiteral) ++ ")"
  catalogSelection ++ filter ++ " ORDER BY c.TABLE_NAME, c.ORDINAL_POSITION, i.INDEX_NAME"

/-! ## Cells -/

def textCell (row : Row) (i : Nat) : Option String :=
  (row[i]?).bind Json.asText?

/-- The flag in a cell, which may be spelled out. -/
def flagCell (row : Row) (i : Nat) : Bool :=
  match row[i]? with
  | some (.bool b) => b
  | some (.text s) => sameLetters s.toList "true".toList
  | _ => false

/-- The position in a cell; a missing cell has none. -/
def positionCell (row : Row) (i : Nat) : Except RowFault (Option Nat) :=
  match row[i]? with
  | none => .ok none
  | some .null => .ok none
  | some (.text s) =>
    match Decimal.readBelow? Decimal.bound32 s.toList with
    | some n => .ok (some n)
    | none => .error (.position s)
  | some (.number n) =>
    match n.natural?.filter (· < Decimal.bound32) with
    | some value => .ok (some value)
    | none => .error (.position (String.ofList n.canonical))
  | some other => .error (.cellValue other)

/-- The length of the innermost `STRING(n)` or `BYTES(n)`. -/
def declaredSize? (ddl : String) : Option UInt64 :=
  (cutAtLast '(' ddl.toList).bind fun (_, rest) =>
    (cutAt ')' rest).bind fun (inside, _) =>
      (Decimal.readBelow? Decimal.bound64 inside).map UInt64.ofNat

/-! ## Merging -/

/-- A column whose rows are being merged, with the options found so far. -/
structure Draft where
  column : Column
  options : Options

def Draft.isAbout (draft : Draft) (table name : String) : Bool :=
  draft.column.table = table && draft.column.name = name

/-- The draft of a column that a row is the first one about. -/
def newDraft (table name : String) (row : Row) : Except CatalogError Draft := do
  let malformed {α : Type} (fault : RowFault) : Except CatalogError α :=
    .error (.row table name fault)
  let position ←
    match positionCell row 2 with
    | .ok (some n) => .ok n
    | .ok none => malformed (.missing "ORDINAL_POSITION")
    | .error fault => malformed fault
  let nullable ←
    match textCell row 3 with
    | some "YES" => .ok true
    | some "NO" => .ok false
    | other => malformed (.nullabilityCell other)
  let dataType ←
    match textCell row 4 with
    | some ddl => .ok (normalize ddl)
    | none => malformed (.missing "SPANNER_TYPE")
  .ok ⟨{ table, name, dataType, position, nullable, size := declaredSize? dataType }, NameMap.empty⟩

/-- The membership that a row reports, if its index and position are there. -/
def membershipCell (row : Row) (position : Option Nat) : Option Membership :=
  (textCell row 5).bind fun index =>
    position.map fun position =>
      ⟨index, position, flagCell row 8, textCell row 7 == some "PRIMARY_KEY"⟩

/-- The draft with what a row adds to it: a membership that it has not yet, and an option. -/
def Draft.add (draft : Draft) (membership : Option Membership) (row : Row) : Draft :=
  let known := draft.column.memberships
  let memberships :=
    match membership with
    | some m => if known.contains m then known else known ++ [m]
    | none => known
  let options :=
    match textCell row 9, textCell row 10 with
    | some name, some value =>
      draft.options.insert (String.ofList (lowerAscii name.toList)) value
    | _, _ => draft.options
  ⟨{ draft.column with memberships }, options⟩

def mergeRow (drafts : List Draft) (row : Row) : Except CatalogError (List Draft) := do
  let table ←
    match textCell row 0 with
    | some table => .ok table
    | none => .error (.row "?" "?" (.missing "TABLE_NAME"))
  let name ←
    match textCell row 1 with
    | some name => .ok name
    | none => .error (.row table "?" (.missing "COLUMN_NAME"))
  let drafts ←
    if drafts.any fun draft => draft.isAbout table name then .ok drafts
    else (newDraft table name row).map fun draft => drafts ++ [draft]
  let position ← (positionCell row 6).mapError (.row table name)
  let membership := membershipCell row position
  .ok (drafts.map fun draft =>
    if draft.isAbout table name then draft.add membership row else draft)

def hasOneMember (columns : List Column) (table index : String) : Bool :=
  let members := (columns.filter (·.table = table)).flatMap fun column =>
    column.memberships.filter (·.name = index)
  members.length == 1

/-- The column of a draft among all columns of the catalog. -/
def Draft.finish (draft : Draft) (columns : List Column) : Column :=
  let column := draft.column
  { column with
    unique := column.memberships.any fun m =>
      m.unique && !m.primary && hasOneMember columns column.table m.name
    primaryKey := column.memberships.any (·.primary)
    extra := normalizeExtra (some draft.options.render) }

/-- Whether a column stands before another: by table, then by position. -/
def columnBefore (a b : Column) : Bool :=
  decide (a.table < b.table) || (a.table == b.table && decide (a.position ≤ b.position))

/-- The columns that the rows of the catalog describe. -/
def columnsOfRows (rows : List Row) : Except CatalogError (List Column) := do
  let drafts ← rows.foldlM mergeRow []
  let columns := drafts.map (·.column)
  .ok ((drafts.map (·.finish columns)).mergeSort columnBefore)

end SchemaPlan.Spanner
