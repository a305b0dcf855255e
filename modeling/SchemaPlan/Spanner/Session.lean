import SchemaPlan.Apply
import SchemaPlan.Plan
import SchemaPlan.Spanner.Rows

/-!
# Spanner sessions

Reading a Spanner catalog and applying plans through an admin client. A client is whatever answers
the two kinds of calls: it has a state of its own and may fail at any of them. A session keeps that
state, the calls that were made, and the open transaction.

A transaction is a queue of statements. Nothing is sent before it is committed; then the whole queue
is submitted as one batch, unless it is empty.
-/
namespace SchemaPlan.Spanner

/-! ## Clients -/

/-- An admin client with a state of type `σ`. -/
structure Client (σ : Type) where
  query : String → σ → Except AdminError (List Row) × σ
  submit : List String → σ → Except AdminError Unit × σ

/-- A call of an admin client. -/
inductive Call where
  | query (sql : String)
  | submit (statements : List String)
  deriving DecidableEq

/-- The state of the client, the calls made, and the statements of the open transaction. -/
structure Session (σ : Type) where
  state : σ
  calls : List Call := []
  queue : Option (List String) := none

abbrev Talk (σ : Type) := StateM (Session σ)

variable {σ : Type}

def Client.ask (client : Client σ) (sql : String) : Talk σ (Except AdminError (List Row)) :=
  fun session =>
    let (reply, state) := client.query sql session.state
    (reply, { session with state, calls := session.calls ++ [.query sql] })

def Client.send (client : Client σ) (statements : List String) : Talk σ (Except AdminError Unit) :=
  fun session =>
    let (reply, state) := client.submit statements session.state
    (reply, { session with state, calls := session.calls ++ [.submit statements] })

/-! ## Transactions -/

/-- Opens a transaction in place of the open one. -/
def begin : Talk σ (List String) := do
  modify fun session => { session with queue := some [] }
  return []

/-- Queues a statement, and gives the queue; without an open transaction there is none. -/
def enqueue (sql : String) : Talk σ (Option (List String)) := do
  let queue := (← get).queue.map (· ++ [sql])
  modify fun session => { session with queue }
  return queue

/-- Submits the statements of a batch, if there are any. -/
def submitBatch (client : Client σ) (statements : List String) :
    Talk σ (Except DriverError Unit) := do
  if statements.isEmpty then return .ok ()
  return (← client.send statements).mapError .admin

/-- Commits and closes the open transaction, if there is one. -/
def commit (client : Client σ) : Talk σ (Option (Except DriverError Unit)) := do
  match (← get).queue with
  | none => return none
  | some statements =>
    modify fun session => { session with queue := none }
    return some (← submitBatch client statements)

/-- Discards the open transaction, if there is one. -/
def rollback : Talk σ (Option (Except DriverError Unit)) := do
  match (← get).queue with
  | none => return none
  | some _ =>
    modify fun session => { session with queue := none }
    return some (.ok ())

/-! ## Planning and applying -/

/-- Reads the columns of some tables, or of all when none are named. -/
def introspect (client : Client σ) (tables : List String) :
    Talk σ (Except CatalogError (List Column)) := do
  match ← client.ask (catalogQuery tables) with
  | .error error => return .error (.driver (.admin error))
  | .ok rows => return columnsOfRows rows

/-- The statements that bring the database to the declared schema. Declarations are validated before
anything is asked. -/
def diff (dialect : Spanner) (client : Client σ) (tables : List TableDecl) :
    Talk σ (Except SchemaError (List Statement)) := do
  match validate (.spanner dialect) tables with
  | .error error => return .error error
  | .ok () =>
    match ← introspect client [] with
    | .error error => return .error (.catalog error)
    | .ok columns => return (Dialect.spanner dialect).planValidated tables columns

/-- Applies a plan as one batch. -/
def applyStatements (client : Client σ) (statements : List Statement) :
    Talk σ (Except SchemaError Unit) := do
  if h : statements = [] then return .ok ()
  else
    match ← submitBatch client (statements.map (·.sql)) with
    | .error cause => return .error (commitFailure statements h cause)
    | .ok () => return .ok ()

/-- Plans and applies the declared schema. -/
def apply (dialect : Spanner) (client : Client σ) (tables : List TableDecl) :
    Talk σ (Except SchemaError Unit) := do
  match ← diff dialect client tables with
  | .error error => return .error error
  | .ok statements => applyStatements client statements

/-! ## Sessions as sequences of steps -/

/-- What the user of a session may ask for. -/
inductive Step where
  | begin
  | exec (sql : String)
  | commit
  | rollback
  | introspect (tables : List String)
  | diff (tables : List TableDecl)
  | apply (tables : List TableDecl)
  | applyStatements (statements : List Statement)

/-- What a step gives back. Without an open transaction there is nothing to queue or to end. -/
inductive Answer where
  | queue (statements : Option (List String))
  | ended (result : Option (Except DriverError Unit))
  | columns (result : Except CatalogError (List Column))
  | statements (result : Except SchemaError (List Statement))
  | applied (result : Except SchemaError Unit)

/-- Takes one step. -/
def run (dialect : Spanner) (client : Client σ) : Step → Talk σ Answer
  | .begin => return .queue (some (← begin))
  | .exec sql => return .queue (← enqueue sql)
  | .commit => return .ended (← commit client)
  | .rollback => return .ended (← rollback)
  | .introspect tables => return .columns (← introspect client tables)
  | .diff tables => return .statements (← diff dialect client tables)
  | .apply tables => return .applied (← apply dialect client tables)
  | .applyStatements statements => return .applied (← applyStatements client statements)

end SchemaPlan.Spanner
