import SchemaPlan.Declaration.Basic
import SchemaPlan.Catalog
import SchemaPlan.Text.Quoted

/-!
# Secondary indexes

The secondary indexes that a table declares and those that a live table has, both by name, and the
changes that lead from one set to the other. The columns of an index are ordered; an index that
differs in columns or uniqueness is dropped and created anew.
-/
namespace SchemaPlan

/-- A secondary index. -/
structure Index where
  name : String
  columns : List String
  unique : Bool
  deriving DecidableEq

def Index.createStatement (table : String) (index : Index) : String :=
  "CREATE " ++ (if index.unique then "UNIQUE " else "") ++ "INDEX " ++ Text.quoteName index.name ++
    " ON " ++ Text.quoteName table ++ " (" ++ Text.quoteNames index.columns ++ ")"

/-- One field's part in an index. -/
structure IndexUse where
  index : String
  column : String
  unique : Bool
  deriving DecidableEq

/-- The name of an index that has not been given one. -/
def defaultIndexName (table column : String) : String :=
  table ++ "_" ++ column

/-- The indexes that a field takes part in: the one that makes it unique, then the declared one. -/
def FieldDecl.indexUses (table : String) (field : FieldDecl) : List IndexUse :=
  let column := field.columnName
  let fallback := defaultIndexName table column
  let asUnique :=
    if field.unique then [⟨field.uniqueIndex.getD fallback, column, true⟩] else []
  let asMember :=
    match field.index with
    | some index => [⟨index.name.getD fallback, column, index.unique⟩]
    | none => []
  asUnique ++ asMember

/-- Every field's part in an index, in declaration order. -/
def TableDecl.indexUses (table : TableDecl) : List IndexUse :=
  table.fields.flatMap fun field => field.indexUses table.name

/-- Adds a field's part to what is known of its index. A column counts once, and one unique use
makes the index unique. -/
def Index.addUse (use : IndexUse) (known : Option Index) : Index :=
  let index := known.getD ⟨use.index, [], use.unique⟩
  { index with
    unique := index.unique || use.unique
    columns :=
      if index.columns.contains use.column then index.columns else index.columns ++ [use.column] }

/-- The secondary indexes that a table declares. -/
def TableDecl.indexes (table : TableDecl) : NameMap Index :=
  table.indexUses.foldl (fun map use => map.alter use.index (Index.addUse use)) NameMap.empty

/-- The secondary indexes of a live table. The first membership decides whether one is unique. -/
def LiveTable.indexes (table : LiveTable) : NameMap Index :=
  let parts := table.columns.flatMap fun column =>
    (column.memberships.filter fun m => !m.primary).map fun m =>
      (m.name, (m.unique, m.position, column.name))
  (NameMap.group parts).mapValues fun name found =>
    { name
      columns := ((found.map Prod.snd).mergeSort keyPartBefore).map Prod.snd
      unique := found.head?.any Prod.fst }

/-- The columns that a unique index covers alone, in name order. -/
def soleUniqueColumns (indexes : NameMap Index) : List String :=
  let alone := indexes.values.filter fun index => index.unique && index.columns.length == 1
  NameMap.sortNames (alone.flatMap (·.columns))

/-- What turns one set of indexes into another: names to drop, then indexes to create. -/
structure IndexChanges where
  drop : List String
  create : List Index
  deriving DecidableEq

def IndexChanges.isEmpty (changes : IndexChanges) : Bool :=
  changes.drop.isEmpty && changes.create.isEmpty

/-- The changes from the present indexes to the wanted ones, in name order. -/
def diffIndexes (wanted present : NameMap Index) : IndexChanges where
  drop := (present.filter fun name index => wanted.find? name != some index).names
  create := (wanted.filter fun name index => present.find? name != some index).values

end SchemaPlan
