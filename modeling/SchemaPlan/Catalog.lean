import SchemaPlan.NameMap
import SchemaPlan.Decimal.Digits

/-!
# Live catalogs

The columns that a database has, as its catalog reports them, and the tables that they form. A
catalog is read anew for every plan and never kept.
-/
namespace SchemaPlan

/-- The place of a column in an index. -/
structure Membership where
  name : String
  /-- Position within the index, counted from one. -/
  position : Nat
  unique : Bool
  /-- Whether the index is the primary key. -/
  primary : Bool
  deriving DecidableEq

/-- A column of a live table, in the dialect's normal form. -/
structure Column where
  table : String
  name : String
  /-- DDL type in normal form. -/
  dataType : String
  /-- Position within the table, counted from one. -/
  position : Nat := 0
  nullable : Bool := true
  /-- Default literal, without quotes. -/
  defaultValue : Option String := none
  primaryKey : Bool := false
  autoIncrement : Bool := false
  /-- Whether a unique secondary index covers this column alone. -/
  unique : Bool := false
  size : Option UInt64 := none
  precision : Option UInt64 := none
  scale : Option UInt64 := none
  extra : Option String := none
  comment : Option String := none
  memberships : List Membership := []
  deriving DecidableEq

/-- A live table: its columns in the order of their positions. -/
structure LiveTable where
  name : String
  columns : List Column
  deriving DecidableEq

/-- Whether one pair of a position and a name stands before another. -/
def keyPartBefore (a b : Nat × String) : Bool :=
  a.1 < b.1 || (a.1 == b.1 && decide (a.2 ≤ b.2))

namespace LiveTable

def column? (table : LiveTable) (name : String) : Option Column :=
  table.columns.find? fun column => column.name = name

/-- The columns of the primary key, in key order. -/
def primaryKey (table : LiveTable) : List String :=
  let parts := table.columns.flatMap fun column =>
    (column.memberships.filter (·.primary)).map fun m => (m.position, column.name)
  (parts.mergeSort keyPartBefore).map Prod.snd

end LiveTable

/-- The tables that columns form, by name. -/
def liveTables (columns : List Column) : NameMap LiveTable :=
  (NameMap.group (columns.map fun column => (column.table, column))).mapValues fun name found =>
    ⟨name, found.mergeSort fun a b => a.position ≤ b.position⟩

end SchemaPlan
