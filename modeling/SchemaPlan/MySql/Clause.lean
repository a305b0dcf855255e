import SchemaPlan.Ddl.TypeText

/-!
# Trailing clauses of MySQL columns

The clause behind a column definition, such as `ON UPDATE CURRENT_TIMESTAMP`, in the form in which
the catalog would report it: without the words that other parts of the definition express.
-/
namespace SchemaPlan.MySql

open Text

/-- Whether a word of the clause is expressed elsewhere. -/
def isImpliedWord (word : List Char) : Bool :=
  word = "AUTO_INCREMENT".toList || word = "DEFAULT_GENERATED".toList

def normalizeClause (clause : List Char) : List Char :=
  let words := (pieces (· == ' ') (Ddl.normalizeChars clause)).filter fun w => !isImpliedWord w
  replaceWord "CURRENT_TIMESTAMP()".toList "CURRENT_TIMESTAMP".toList (joinWith [' '] words)

/-- The normal form of a column's clause; an empty one is none. -/
def normalizeExtra (extra : Option String) : Option String :=
  extra.bind fun clause =>
    let found := normalizeClause clause.toList
    if found.isEmpty then none else some (String.ofList found)

example : normalizeExtra (some "default_generated on update current_timestamp()") =
    some "ON UPDATE CURRENT_TIMESTAMP" := by decide +kernel
example : normalizeExtra (some " auto_increment ") = none := by decide +kernel

end SchemaPlan.MySql
