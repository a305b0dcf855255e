import SchemaPlan.Operation

/-!
# Failed applications

A plan is applied statement by statement or as one batch. Either way a failure names one statement
of the plan: the one that failed, or the one that the server's count of completed statements points
at.
-/
namespace SchemaPlan

def Statement.failure (statement : Statement) (index : Nat) (cause : DriverError) : SchemaError :=
  .apply index statement.table statement.sql cause

/-- The statement that the failure of a plan's last step is put down to: the one behind the
completed statements when their number is known, and in any case one of the plan's. -/
def failedIndex (statements : List Statement) (cause : DriverError) : Nat :=
  let last := statements.length - 1
  min (cause.completed?.getD last) last

theorem failedIndex_lt {statements : List Statement} (h : statements ≠ []) (cause : DriverError) :
    failedIndex statements cause < statements.length := by
  have := List.length_pos_iff.2 h
  simp only [failedIndex]
  omega

def commitFailure (statements : List Statement) (h : statements ≠ []) (cause : DriverError) :
    SchemaError :=
  have := failedIndex_lt h cause
  statements[failedIndex statements cause].failure (failedIndex statements cause) cause

theorem commitFailure_of_uncounted {statements : List Statement} (h : statements ≠ [])
    {cause : DriverError} (hcause : cause.completed? = none) :
    commitFailure statements h cause =
      .apply (statements.length - 1) (statements.getLast h).table (statements.getLast h).sql
        cause := by
  have hplace : failedIndex statements cause = statements.length - 1 := by
    simp [failedIndex, hcause]
  simp only [commitFailure, Statement.failure, hplace, List.getLast_eq_getElem]

end SchemaPlan
