import SchemaPlan.MySql.Session
import SchemaPlan.Proofs.Operations

/-!
# What an application sends to a MySQL server

Applying a declared schema asks the server for its catalog and runs the plan in one transaction.
Here is what reaches the server on each path, for every server: its state and its answers are
arbitrary, so any request may fail, and may fail for a different reason each time.

The paths are written down as relations with one constructor for each of them. A server, its state
and the declared tables leave one path open (`Protocol.unique`), and this is the path that is taken.

* `Reading`: the requests for the catalog, and what comes of them.
* `Transaction`: the statements of one transaction, and what comes of them. The first statement that
  fails is the last one before the rollback, whose own fate does not matter.
* `Protocol`: both together, with the paths on which nothing is applied.
* `introspect_reading`, `applyStatements_transaction` and `apply_protocol`: what is sent is what they
  say.
* `apply_closed`: closed connections let nothing through.
-/
namespace SchemaPlan.MySql

variable {σ α β : Type}

/-! ## Servers along a sequence of statements -/

def Server.after (server : Server σ) (state : σ) (executed : List String) : σ :=
  executed.foldl (fun state sql => (server.execute ⟨sql, []⟩ state).2) state

/-- The answer of a server to a statement, once it has executed some others. -/
def Server.reply (server : Server σ) (state : σ) (executed : List String) (sql : String) :
    Except DatabaseError Unit :=
  (server.execute ⟨sql, []⟩ (server.after state executed)).1

def Session.executed (server : Server σ) (session : Session σ) (statements : List String) :
    Session σ :=
  ⟨server.after session.state statements, session.log ++ statements.map fun sql => ⟨sql, []⟩⟩

theorem Session.executed_nil (server : Server σ) (session : Session σ) :
    session.executed server [] = session := by
  simp [Session.executed, Server.after]

/-- A request over open connections reaches the server, whatever the answer. -/
theorem ask_run (server : Server σ) (request : Request)
    (answer : Server σ → Request → σ → Except DatabaseError α × σ) (session : Session σ) :
    (Pool.ask ⟨server, false⟩ request answer).run session =
      ((answer server request session.state).1,
        ⟨(answer server request session.state).2, session.log ++ [request]⟩) := rfl

theorem execute_run (server : Server σ) (session : Session σ) (executed : List String)
    (sql : String) :
    (Pool.execute ⟨server, false⟩ sql).run (session.executed server executed) =
      (server.reply session.state executed sql, session.executed server (executed ++ [sql])) := by
  simp [Pool.execute, ask_run, Session.executed, Server.reply, Server.after]

/-! ## Reading the catalog -/

/-- What is sent to read the catalog of some tables, what comes of it, and the state in which it
leaves the server. The index parts are asked for only once the columns have been read. -/
inductive Reading (dialect : MySql) (server : Server σ) (tables : List String) (state : σ) :
    List Request → Except CatalogError (List Column) → σ → Prop
  | columnsRefused {error after}
      (columns : server.columns (columnRequest tables) state = (.error error, after)) :
      Reading dialect server tables state [columnRequest tables] (.error (catalogFailure error))
        after
  | columnsUnread {records error after}
      (columns : server.columns (columnRequest tables) state = (.ok records, after))
      (rows : records.mapM ColumnRecord.toRow = .error error) :
      Reading dialect server tables state [columnRequest tables] (.error error) after
  | indexesRefused {records rows between error after}
      (columns : server.columns (columnRequest tables) state = (.ok records, between))
      (rows : records.mapM ColumnRecord.toRow = .ok rows)
      (indexes : server.indexes (indexRequest tables) between = (.error error, after)) :
      Reading dialect server tables state [columnRequest tables, indexRequest tables]
        (.error (catalogFailure error)) after
  | indexesUnread {records rows between parts error after}
      (columns : server.columns (columnRequest tables) state = (.ok records, between))
      (rows : records.mapM ColumnRecord.toRow = .ok rows)
      (indexes : server.indexes (indexRequest tables) between = (.ok parts, after))
      (indexRows : parts.mapM IndexRecord.toRow = .error error) :
      Reading dialect server tables state [columnRequest tables, indexRequest tables]
        (.error error) after
  | read {records rows between parts indexRows after}
      (columns : server.columns (columnRequest tables) state = (.ok records, between))
      (rowsRead : records.mapM ColumnRecord.toRow = .ok rows)
      (indexes : server.indexes (indexRequest tables) between = (.ok parts, after))
      (indexRowsRead : parts.mapM IndexRecord.toRow = .ok indexRows) :
      Reading dialect server tables state [columnRequest tables, indexRequest tables]
        (dialect.columnsOfRows rows indexRows) after

/-- Only one path is open to the reading of a catalog. -/
theorem Reading.unique {dialect : MySql} {server : Server σ} {tables : List String} {state : σ}
    {sent sent' : List Request} {result result' : Except CatalogError (List Column)}
    {after after' : σ} (h : Reading dialect server tables state sent result after)
    (h' : Reading dialect server tables state sent' result' after') :
    sent = sent' ∧ result = result' ∧ after = after' := by
  cases h <;> cases h' <;> simp_all

/-- Reading the catalog takes the path that `Reading` names. -/
theorem introspect_reading (dialect : MySql) (server : Server σ) (tables : List String)
    (session : Session σ) :
    ∃ sent result after, Reading dialect server tables session.state sent result after ∧
      (introspect dialect ⟨server, false⟩ tables).run session =
        (result, ⟨after, session.log ++ sent⟩) := by
  unfold introspect
  rw [run_bind, ask_run]
  rcases hcolumns : server.columns (columnRequest tables) session.state with ⟨_ | records, between⟩
  · exact ⟨_, _, _, .columnsRefused hcolumns, rfl⟩
  dsimp only
  cases hrows : records.mapM ColumnRecord.toRow with
  | error error => exact ⟨_, _, _, .columnsUnread hcolumns hrows, rfl⟩
  | ok rows =>
    dsimp only
    rw [run_bind, ask_run, List.append_assoc]
    dsimp only
    rcases hindexes : server.indexes (indexRequest tables) between with ⟨_ | parts, after⟩
    · exact ⟨_, _, _, .indexesRefused hcolumns hrows hindexes, rfl⟩
    dsimp only
    cases hparts : parts.mapM IndexRecord.toRow with
    | error error => exact ⟨_, _, _, .indexesUnread hcolumns hrows hindexes hparts, rfl⟩
    | ok indexRows => exact ⟨_, _, _, .read hcolumns hrows hindexes hparts, rfl⟩

/-! ## Transactions -/

/-- What the transaction of a plan has sent ahead of the statement in place `k`. -/
def sentBefore (statements : List Statement) (k : Nat) : List String :=
  "BEGIN" :: (statements.take k).map (·.sql)

/-- All statements of a plan ahead of place `k` are executed without a failure. -/
def PassedBefore (server : Server σ) (state : σ) (statements : List Statement) (k : Nat) : Prop :=
  ∀ i (h : i < statements.length), i < k →
    server.reply state (sentBefore statements i) statements[i].sql = .ok ()

/-- What the transaction of a plan that is not empty sends, and what comes of it. -/
inductive Transaction (server : Server σ) (state : σ) (statements : List Statement) :
    List String → Except SchemaError Unit → Prop
  | refused {error}
      (opened : server.reply state [] "BEGIN" = .error error) :
      Transaction server state statements ["BEGIN"] (.error (.begin (.database error)))
  | failed {error k} (h : k < statements.length)
      (opened : server.reply state [] "BEGIN" = .ok ())
      (passed : PassedBefore server state statements k)
      (failed : server.reply state (sentBefore statements k) statements[k].sql = .error error) :
      Transaction server state statements (sentBefore statements (k + 1) ++ ["ROLLBACK"])
        (.error (.apply k statements[k].table statements[k].sql (.database error)))
  | uncommitted {error} (h : statements ≠ [])
      (opened : server.reply state [] "BEGIN" = .ok ())
      (passed : PassedBefore server state statements statements.length)
      (ended : server.reply state (sentBefore statements statements.length) "COMMIT" =
        .error error) :
      Transaction server state statements (sentBefore statements statements.length ++ ["COMMIT"])
        (.error (.apply (statements.length - 1) (statements.getLast h).table
          (statements.getLast h).sql (.database error)))
  | committed
      (opened : server.reply state [] "BEGIN" = .ok ())
      (passed : PassedBefore server state statements statements.length)
      (ended : server.reply state (sentBefore statements statements.length) "COMMIT" = .ok ()) :
      Transaction server state statements (sentBefore statements statements.length ++ ["COMMIT"])
        (.ok ())

theorem PassedBefore.le_of_failed {server : Server σ} {state : σ} {statements : List Statement}
    {k i : Nat} {error : DatabaseError} (passed : PassedBefore server state statements k)
    (h : i < statements.length)
    (failed : server.reply state (sentBefore statements i) statements[i].sql = .error error) :
    k ≤ i := by
  refine Nat.le_of_not_lt fun hlt => ?_
  have hok := passed i h hlt
  rw [failed] at hok
  cases hok

/-- Only one path is open to a transaction. -/
theorem Transaction.unique {server : Server σ} {state : σ} {statements : List Statement}
    {sent sent' : List String} {result result' : Except SchemaError Unit}
    (h : Transaction server state statements sent result)
    (h' : Transaction server state statements sent' result') :
    sent = sent' ∧ result = result' := by
  cases h with
  | refused opened => cases h' <;> simp_all
  | failed hk opened passed failed =>
    cases h' with
    | refused opened' => simp_all
    | failed hk' opened' passed' failed' =>
      obtain rfl := Nat.le_antisymm (passed.le_of_failed hk' failed')
        (passed'.le_of_failed hk failed)
      simp_all
    | uncommitted _ _ passed' => exact absurd (passed'.le_of_failed hk failed) (by omega)
    | committed _ passed' => exact absurd (passed'.le_of_failed hk failed) (by omega)
  | uncommitted hne opened passed ended =>
    cases h' with
    | refused opened' => simp_all
    | failed hk' _ _ failed' => exact absurd (passed.le_of_failed hk' failed') (by omega)
    | uncommitted _ _ _ ended' => simp_all
    | committed _ _ ended' => simp_all
  | committed opened passed ended =>
    cases h' with
    | refused opened' => simp_all
    | failed hk' _ _ failed' => exact absurd (passed.le_of_failed hk' failed') (by omega)
    | uncommitted _ _ _ ended' => simp_all
    | committed _ _ ended' => exact ⟨rfl, rfl⟩

/-- A run of statements behind `before` passes, or stops at the first one that fails. -/
theorem runFrom_cases (server : Server σ) (session : Session σ) (before rest : List Statement)
    (passed : PassedBefore server session.state (before ++ rest) before.length) :
    let statements := before ++ rest
    let result := (runFrom ⟨server, false⟩ before.length rest).run
      (session.executed server (sentBefore statements before.length))
    (PassedBefore server session.state statements statements.length ∧
      result = (.ok (), session.executed server (sentBefore statements statements.length))) ∨
    ∃ k, ∃ h : k < statements.length, ∃ error,
      PassedBefore server session.state statements k ∧
      server.reply session.state (sentBefore statements k) statements[k].sql = .error error ∧
      result = (.error (statements[k].failure k (.database error)),
        session.executed server (sentBefore statements (k + 1))) := by
  induction rest generalizing before with
  | nil =>
    simp only [List.append_nil] at passed ⊢
    exact .inl ⟨passed, rfl⟩
  | cons statement rest ih =>
    have hplace : before.length < (before ++ statement :: rest).length := by simp
    have hhere : (before ++ statement :: rest)[before.length] = statement := by simp
    have hsent : sentBefore (before ++ statement :: rest) (before.length + 1) =
        sentBefore (before ++ statement :: rest) before.length ++ [statement.sql] := by
      simp [sentBefore, List.take_append, List.take_of_length_le]
    dsimp only
    rw [runFrom, run_bind, execute_run]
    cases hreply : server.reply session.state
        (sentBefore (before ++ statement :: rest) before.length) statement.sql with
    | error error =>
      refine .inr ⟨before.length, hplace, error, passed, by rw [hhere, hreply], ?_⟩
      rw [hhere, hsent]
      rfl
    | ok done =>
      -- the statement joins those that have passed
      have passed' : PassedBefore server session.state ((before ++ [statement]) ++ rest)
          (before ++ [statement]).length := by
        intro i hi hlt
        simp only [List.append_assoc, List.singleton_append] at hi ⊢
        rcases Nat.lt_or_ge i before.length with hlt' | hge
        · exact passed i hi hlt'
        · obtain rfl : i = before.length := by simp at hlt; omega
          rw [hhere, hreply]
      have := ih (before ++ [statement]) passed'
      simpa [hsent] using this

theorem begin_refused {server : Server σ} {session : Session σ} {error : DatabaseError}
    (h : server.reply session.state [] "BEGIN" = .error error) :
    (begin ⟨server, false⟩).run session =
      (.error (.begin (.database error)), session.executed server ["BEGIN"]) := by
  have hsent := execute_run server session [] "BEGIN"
  rw [Session.executed_nil] at hsent
  rw [begin, run_bind, hsent, h]
  rfl

theorem begin_opened {server : Server σ} {session : Session σ}
    (h : server.reply session.state [] "BEGIN" = .ok ()) :
    (begin ⟨server, false⟩).run session = (.ok (), session.executed server ["BEGIN"]) := by
  have hsent := execute_run server session [] "BEGIN"
  rw [Session.executed_nil] at hsent
  rw [begin, run_bind, hsent, h]
  rfl

/-- The transaction of a plan takes the path that `Transaction` names. -/
theorem applyStatements_transaction (server : Server σ) (session : Session σ)
    (statements : List Statement) (h : statements ≠ []) :
    ∃ sent result, Transaction server session.state statements sent result ∧
      (applyStatements ⟨server, false⟩ statements).run session =
        (result, session.executed server sent) := by
  unfold applyStatements
  rw [dif_neg h, run_bind]
  cases hopened : server.reply session.state [] "BEGIN" with
  | error error =>
    rw [begin_refused hopened]
    exact ⟨_, _, .refused hopened, rfl⟩
  | ok opened =>
    rw [begin_opened hopened]
    dsimp only
    rw [run_bind]
    obtain ⟨passed, hrun⟩ | ⟨k, hk, error, passed, hfailed, hrun⟩ :=
      runFrom_cases server session [] statements (fun _ _ h => absurd h (Nat.not_lt_zero _))
    · simp only [List.nil_append] at passed hrun
      rw [show (runFrom ⟨server, false⟩ 0 statements).run (session.executed server ["BEGIN"]) = _
        from hrun]
      dsimp only
      rw [run_bind, execute_run]
      cases hended : server.reply session.state (sentBefore statements statements.length)
          "COMMIT" with
      | error error =>
        refine ⟨_, _, .uncommitted h hopened passed hended, ?_⟩
        dsimp only
        rw [run_pure, commitFailure_of_uncounted h rfl]
      | ok ended => exact ⟨_, _, .committed hopened passed hended, rfl⟩
    · simp only [List.nil_append] at hk passed hfailed hrun
      rw [show (runFrom ⟨server, false⟩ 0 statements).run (session.executed server ["BEGIN"]) = _
        from hrun]
      dsimp only
      rw [run_bind, execute_run]
      exact ⟨_, _, .failed hk hopened passed hfailed, rfl⟩

/-! ## Whole applications -/

/-- What an application of declared tables sends, and what comes of it. -/
inductive Protocol (dialect : MySql) (server : Server σ) (tables : List TableDecl) (state : σ) :
    List Request → Except SchemaError Unit → Prop
  | invalid {error}
      (validation : validate (.mysql dialect) tables = .error error) :
      Protocol dialect server tables state [] (.error error)
  | unread {sent error after}
      (validation : validate (.mysql dialect) tables = .ok ())
      (reading : Reading dialect server [] state sent (.error error) after) :
      Protocol dialect server tables state sent (.error (.catalog error))
  | unplanned {sent columns after error}
      (validation : validate (.mysql dialect) tables = .ok ())
      (reading : Reading dialect server [] state sent (.ok columns) after)
      (planning : (Dialect.mysql dialect).plan tables columns = .error error) :
      Protocol dialect server tables state sent (.error error)
  | settled {sent columns after}
      (validation : validate (.mysql dialect) tables = .ok ())
      (reading : Reading dialect server [] state sent (.ok columns) after)
      (planning : (Dialect.mysql dialect).plan tables columns = .ok []) :
      Protocol dialect server tables state sent (.ok ())
  | applied {sent columns after statements executed result}
      (validation : validate (.mysql dialect) tables = .ok ())
      (reading : Reading dialect server [] state sent (.ok columns) after)
      (planning : (Dialect.mysql dialect).plan tables columns = .ok statements)
      (nonempty : statements ≠ [])
      (transaction : Transaction server after statements executed result) :
      Protocol dialect server tables state (sent ++ executed.map fun sql => ⟨sql, []⟩) result

/-- Only one path is open to an application. -/
theorem Protocol.unique {dialect : MySql} {server : Server σ} {tables : List TableDecl} {state : σ}
    {sent sent' : List Request} {result result' : Except SchemaError Unit}
    (h : Protocol dialect server tables state sent result)
    (h' : Protocol dialect server tables state sent' result') :
    sent = sent' ∧ result = result' := by
  -- two paths that both read the catalog have read the same
  cases h with
  | invalid validation => cases h' <;> simp_all
  | unread validation reading =>
    cases h' with
    | invalid => simp_all
    | unread _ reading' =>
      have := reading.unique reading'
      simp_all
    | unplanned _ reading' | settled _ reading' | applied _ reading' =>
      have := reading.unique reading'
      simp_all
  | unplanned validation reading planning | settled validation reading planning =>
    cases h' with
    | invalid => simp_all
    | unread _ reading' | unplanned _ reading' | settled _ reading' | applied _ reading' =>
      have := reading.unique reading'
      simp_all
  | applied validation reading planning nonempty transaction =>
    cases h' with
    | invalid => simp_all
    | unread _ reading' | unplanned _ reading' | settled _ reading' =>
      have := reading.unique reading'
      simp_all
    | applied _ reading' planning' _ transaction' =>
      obtain ⟨rfl, hcolumns, rfl⟩ := reading.unique reading'
      cases hcolumns
      rw [planning] at planning'
      cases planning'
      obtain ⟨rfl, rfl⟩ := transaction.unique transaction'
      exact ⟨rfl, rfl⟩

/-- Over open connections, an application takes the path that `Protocol` names: the requests that
reach the server and the result are those of that path, whatever the server answers. -/
theorem apply_protocol (dialect : MySql) (server : Server σ) (tables : List TableDecl)
    (session : Session σ) :
    ∃ sent result, Protocol dialect server tables session.state sent result ∧
      ((apply dialect ⟨server, false⟩ tables).run session).1 = result ∧
      ((apply dialect ⟨server, false⟩ tables).run session).2.log = session.log ++ sent := by
  unfold apply diff
  cases hvalid : validate (.mysql dialect) tables with
  | error error => exact ⟨_, _, .invalid hvalid, rfl, (List.append_nil _).symm⟩
  | ok valid =>
    obtain ⟨sent, columns?, after, hreading, hrun⟩ := introspect_reading dialect server [] session
    dsimp only
    rw [run_bind, run_bind, hrun]
    cases columns? with
    | error error => exact ⟨_, _, .unread hvalid hreading, rfl, rfl⟩
    | ok columns =>
      dsimp only
      rw [run_pure, ← plan_of_valid hvalid columns]
      cases hplan : (Dialect.mysql dialect).plan tables columns with
      | error error => exact ⟨_, _, .unplanned hvalid hreading hplan, rfl, rfl⟩
      | ok statements =>
        dsimp only
        rcases Decidable.em (statements = []) with rfl | hne
        · exact ⟨_, _, .settled hvalid hreading hplan, rfl, rfl⟩
        · obtain ⟨executed, result, htransaction, hrun⟩ :=
            applyStatements_transaction server ⟨after, session.log ++ sent⟩ statements hne
          rw [hrun]
          exact ⟨_, _, .applied hvalid hreading hplan hne htransaction, rfl,
            List.append_assoc _ _ _⟩

/-! ## Closed connections -/

theorem ask_closed (server : Server σ) (request : Request)
    (answer : Server σ → Request → σ → Except DatabaseError α × σ) (session : Session σ) :
    (Pool.ask ⟨server, true⟩ request answer).run session = (.error .poolClosed, session) := rfl

/-- Over closed connections, an application of valid tables fails at the catalog, and the server
takes no notice of it. -/
theorem apply_closed (dialect : MySql) (server : Server σ) (tables : List TableDecl)
    (session : Session σ) :
    (apply dialect ⟨server, true⟩ tables).run session =
      (validate (.mysql dialect) tables >>= fun _ =>
        .error (.catalog (catalogFailure .poolClosed)), session) := by
  unfold apply diff introspect
  cases validate (.mysql dialect) tables with
  | error error => rfl
  | ok valid =>
    dsimp only
    rw [run_bind, run_bind, run_bind, ask_closed]
    rfl

end SchemaPlan.MySql
