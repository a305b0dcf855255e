import SchemaPlan.Spanner.Session

/-!
# In-memory clients

A Spanner admin client that keeps its rows in memory: every query gives the current rows, and every
batch succeeds. A failure can be set for the next call of either kind; that call uses it up.
-/
namespace SchemaPlan.Spanner

/-- What an in-memory client holds. -/
structure InMemory where
  rows : List Row := []
  queryFailure : Option AdminError := none
  submitFailure : Option AdminError := none

def InMemory.client : Client InMemory where
  query _ memory :=
    match memory.queryFailure with
    | some error => (.error error, { memory with queryFailure := none })
    | none => (.ok memory.rows, memory)
  submit _ memory :=
    match memory.submitFailure with
    | some error => (.error error, { memory with submitFailure := none })
    | none => (.ok (), memory)

end SchemaPlan.Spanner
