import Mathlib.Data.List.Induction
import SchemaPlan.Proofs.Computation
import SchemaPlan.Spanner.InMemory

/-!
# What a session calls of a Spanner client

A session is any sequence of steps: transactions that are opened, filled, committed, rolled back or
replaced, between whole readings, diffs and applications. The client is arbitrary: its rows and its
failures may be others at each call.

* `Open`: the statements executed since the last `begin`, read off the steps alone.
* `Reading`, `Planning`, `Batch` and `Protocol`: the calls of a step and its answer, given the steps
  before it and the state of the client. They leave no choice (`Protocol.unique`).
* `run_protocol`: each step of each session keeps to `Protocol`.
* `after_erase`: what is executed in a transaction that is not committed makes no difference to the
  calls of a session, nor to anything else in it.
* `session_protocol`: both, for whole sessions.
-/
namespace SchemaPlan.Spanner

variable {σ α β : Type}

/-! ## Computations that leave the transaction alone -/

def Session.withQueue (session : Session σ) (queue : Option (List String)) : Session σ :=
  { session with queue }

/-- A computation neither reads nor changes the transaction. -/
def Framed (talk : Talk σ α) : Prop :=
  ∀ session queue, talk.run (session.withQueue queue) =
    ((talk.run session).1, (talk.run session).2.withQueue queue)

theorem Framed.queue_eq {talk : Talk σ α} (h : Framed talk) (session : Session σ) :
    (talk.run session).2.queue = session.queue :=
  congrArg (fun r => r.2.queue) (h session session.queue)

theorem framed_pure (value : α) : Framed (pure value : Talk σ α) := fun _ _ => rfl

theorem framed_ask (client : Client σ) (sql : String) : Framed (client.ask sql) := fun _ _ => rfl

theorem framed_send (client : Client σ) (statements : List String) :
    Framed (client.send statements) := fun _ _ => rfl

theorem Framed.bind {talk : Talk σ α} {next : α → Talk σ β} (h : Framed talk)
    (hnext : ∀ value, Framed (next value)) : Framed (talk >>= next) := by
  intro session queue
  rw [run_bind, run_bind, h session queue]
  exact hnext _ _ _

theorem framed_introspect (client : Client σ) (tables : List String) :
    Framed (introspect client tables) := by
  refine (framed_ask client _).bind fun reply => ?_
  cases reply <;> exact framed_pure _

theorem framed_diff (dialect : Spanner) (client : Client σ) (tables : List TableDecl) :
    Framed (diff dialect client tables) := by
  unfold diff
  cases validate (.spanner dialect) tables with
  | error error => exact framed_pure _
  | ok valid =>
    refine (framed_introspect client []).bind fun reply => ?_
    cases reply <;> exact framed_pure _

theorem framed_submitBatch (client : Client σ) (statements : List String) :
    Framed (submitBatch client statements) := by
  unfold submitBatch
  cases statements.isEmpty
  · exact (framed_send client statements).bind fun _ => framed_pure _
  · exact framed_pure _

theorem framed_applyStatements (client : Client σ) (statements : List Statement) :
    Framed (applyStatements client statements) := by
  unfold applyStatements
  split
  · exact framed_pure _
  · refine (framed_submitBatch client _).bind fun reply => ?_
    cases reply <;> exact framed_pure _

theorem framed_apply (dialect : Spanner) (client : Client σ) (tables : List TableDecl) :
    Framed (apply dialect client tables) := by
  refine (framed_diff dialect client tables).bind fun reply => ?_
  cases reply with
  | error error => exact framed_pure _
  | ok statements => exact framed_applyStatements client statements

/-! ## Sessions -/

def Session.after (dialect : Spanner) (client : Client σ) (session : Session σ)
    (steps : List Step) : Session σ :=
  steps.foldl (fun session step => ((run dialect client step).run session).2) session

theorem after_cons (dialect : Spanner) (client : Client σ) (session : Session σ) (step : Step)
    (rest : List Step) :
    session.after dialect client (step :: rest) =
      ((run dialect client step).run session).2.after dialect client rest := rfl

theorem after_append (dialect : Spanner) (client : Client σ) (session : Session σ)
    (before rest : List Step) :
    session.after dialect client (before ++ rest) =
      (session.after dialect client before).after dialect client rest :=
  List.foldl_append

def Step.statement? : Step → Option String
  | .exec sql => some sql
  | _ => none

/-- A step opens or ends a transaction. -/
def Step.Boundary : Step → Prop
  | .begin | .commit | .rollback => True
  | _ => False

/-- After some steps, a transaction is open in which just these statements have been executed. -/
def Open (steps : List Step) (executed : List String) : Prop :=
  ∃ before inside, steps = before ++ .begin :: inside ∧ (∀ step ∈ inside, ¬ step.Boundary) ∧
    executed = inside.filterMap Step.statement?

theorem not_open_nil (executed : List String) : ¬ Open [] executed := by
  rintro ⟨before, inside, h, -⟩
  simp at h

/-- What one more step does to the open transaction. -/
theorem open_concat {steps : List Step} {step : Step} {executed : List String} :
    Open (steps ++ [step]) executed ↔
      (step = .begin ∧ executed = []) ∨
      (¬ step.Boundary ∧ ∃ earlier, Open steps earlier ∧
        earlier ++ step.statement?.toList = executed) := by
  constructor
  · rintro ⟨before, inside, h, hinside, rfl⟩
    rcases List.eq_nil_or_concat inside with rfl | ⟨inside, last, rfl⟩
    · exact .inl ⟨(List.append_inj' h rfl).2 |> List.singleton_inj.1, rfl⟩
    · rw [List.concat_eq_append, ← List.cons_append, ← List.append_assoc] at h
      obtain ⟨rfl, hlast⟩ := List.append_inj' h rfl
      obtain rfl := List.singleton_inj.1 hlast
      refine .inr ⟨hinside _ (by simp), _, ⟨before, inside, rfl, ?_, rfl⟩, ?_⟩
      · exact fun other hother => hinside other (by simp [hother])
      · cases hstatement : step.statement? <;> simp [hstatement]
  · rintro (⟨rfl, rfl⟩ | ⟨hstep, _, ⟨before, inside, rfl, hinside, rfl⟩, rfl⟩)
    · exact ⟨steps, [], rfl, by simp, rfl⟩
    · refine ⟨before, inside ++ [step], by simp, ?_, ?_⟩
      · intro other hother
        rcases List.mem_append.1 hother with hother | hother
        · exact hinside other hother
        · exact List.mem_singleton.1 hother ▸ hstep
      · cases hstatement : step.statement? <;> simp [hstatement]

theorem framed_run (dialect : Spanner) (client : Client σ) {step : Step} (h : ¬ step.Boundary)
    (hstatement : step.statement? = none) : Framed (run dialect client step) := by
  cases step with
  | begin | commit | rollback => exact absurd trivial h
  | exec sql => cases hstatement
  | introspect tables => exact (framed_introspect client tables).bind fun _ => framed_pure _
  | diff tables => exact (framed_diff dialect client tables).bind fun _ => framed_pure _
  | apply tables => exact (framed_apply dialect client tables).bind fun _ => framed_pure _
  | applyStatements statements =>
    exact (framed_applyStatements client statements).bind fun _ => framed_pure _

theorem queue_run (dialect : Spanner) (client : Client σ) (session : Session σ) (step : Step) :
    ((run dialect client step).run session).2.queue =
      match step with
      | .begin => some []
      | .commit | .rollback => none
      | _ => session.queue.map (· ++ step.statement?.toList) := by
  cases step with
  | begin | exec sql => rfl
  | commit =>
    rcases session with ⟨state, calls, _ | queue⟩
    · rfl
    · exact ((framed_submitBatch client queue).bind fun _ => framed_pure _).queue_eq _
  | rollback => rcases session with ⟨state, calls, _ | queue⟩ <;> rfl
  | introspect | diff | apply | applyStatements =>
    rw [(framed_run dialect client id rfl).queue_eq]
    simp [Step.statement?]

/-- The queue of a session holds what the open transaction has executed. -/
theorem queue_after (dialect : Spanner) (client : Client σ) (state : σ) (steps : List Step)
    (executed : List String) :
    (Session.after dialect client { state } steps).queue = some executed ↔ Open steps executed := by
  induction steps using List.reverseRecOn generalizing executed with
  | nil => simp [Session.after, not_open_nil]
  | append_singleton steps step ih =>
    rw [after_append, open_concat, after_cons, Session.after, List.foldl_nil, queue_run]
    cases step <;> simp [Step.Boundary, ← ih, Option.map_eq_some_iff, eq_comm (a := [])]

theorem Open.unique {steps : List Step} {executed executed' : List String}
    (h : Open steps executed) (h' : Open steps executed') : executed = executed' := by
  induction steps using List.reverseRecOn generalizing executed executed' with
  | nil => exact (not_open_nil _ h).elim
  | append_singleton steps step ih =>
    rcases open_concat.1 h with ⟨rfl, rfl⟩ | ⟨hstep, earlier, hopen, rfl⟩
    · rcases open_concat.1 h' with ⟨-, rfl⟩ | ⟨hstep, -⟩
      · rfl
      · exact (hstep trivial).elim
    · rcases open_concat.1 h' with ⟨rfl, -⟩ | ⟨-, earlier', hopen', rfl⟩
      · exact (hstep trivial).elim
      · rw [ih hopen hopen']

/-! ## The calls of a step -/

/-- What comes of the query for the columns of some tables, and the state in which it leaves the
client. -/
inductive Reading (client : Client σ) (tables : List String) (state : σ) :
    Except CatalogError (List Column) → σ → Prop
  | refused {error after}
      (query : client.query (catalogQuery tables) state = (.error error, after)) :
      Reading client tables state (.error (.driver (.admin error))) after
  | read {rows after}
      (query : client.query (catalogQuery tables) state = (.ok rows, after)) :
      Reading client tables state (columnsOfRows rows) after

/-- The calls of a diff, what comes of it, and the state in which it leaves the client. -/
inductive Planning (dialect : Spanner) (client : Client σ) (tables : List TableDecl) (state : σ) :
    List Call → Except SchemaError (List Statement) → σ → Prop
  | invalid {error}
      (validation : validate (.spanner dialect) tables = .error error) :
      Planning dialect client tables state [] (.error error) state
  | unread {error after}
      (validation : validate (.spanner dialect) tables = .ok ())
      (reading : Reading client [] state (.error error) after) :
      Planning dialect client tables state [.query (catalogQuery [])] (.error (.catalog error)) after
  | planned {columns after}
      (validation : validate (.spanner dialect) tables = .ok ())
      (reading : Reading client [] state (.ok columns) after) :
      Planning dialect client tables state [.query (catalogQuery [])]
        ((Dialect.spanner dialect).plan tables columns) after

/-- The calls of applying a plan, and what comes of it. A failure is put down to the statement
behind the completed ones when the client counts them, but to none behind the last; else to the
last. -/
inductive Batch (client : Client σ) (statements : List Statement) (state : σ) :
    List Call → Except SchemaError Unit → Prop
  | empty (h : statements = []) : Batch client statements state [] (.ok ())
  | accepted (h : statements ≠ [])
      (submit : (client.submit (statements.map (·.sql)) state).1 = .ok ()) :
      Batch client statements state [.submit (statements.map (·.sql))] (.ok ())
  | counted {completed message k} (h : k < statements.length)
      (place : k = min completed (statements.length - 1))
      (submit : (client.submit (statements.map (·.sql)) state).1 =
        .error (.batch completed message)) :
      Batch client statements state [.submit (statements.map (·.sql))]
        (.error (.apply k statements[k].table statements[k].sql
          (.admin (.batch completed message))))
  | uncounted {message} (h : statements ≠ [])
      (submit : (client.submit (statements.map (·.sql)) state).1 = .error (.request message)) :
      Batch client statements state [.submit (statements.map (·.sql))]
        (.error (.apply (statements.length - 1) (statements.getLast h).table
          (statements.getLast h).sql (.admin (.request message))))

/-- The calls of a step and its answer, behind some earlier steps of its session that have left the
client in a state. Of the steps of transactions, only the commit of one that has executed statements
calls the client, and it submits these. -/
inductive Protocol (dialect : Spanner) (client : Client σ) (earlier : List Step) (state : σ) :
    Step → List Call → Answer → Prop
  | begin : Protocol dialect client earlier state .begin [] (.queue (some []))
  | exec {executed sql} (h : Open earlier executed) :
      Protocol dialect client earlier state (.exec sql) [] (.queue (some (executed ++ [sql])))
  | execClosed {sql} (h : ∀ executed, ¬ Open earlier executed) :
      Protocol dialect client earlier state (.exec sql) [] (.queue none)
  | commit {executed} (h : Open earlier executed) (nonempty : executed ≠ []) :
      Protocol dialect client earlier state .commit [.submit executed]
        (.ended (some ((client.submit executed state).1.mapError .admin)))
  | commitEmpty (h : Open earlier []) :
      Protocol dialect client earlier state .commit [] (.ended (some (.ok ())))
  | commitClosed (h : ∀ executed, ¬ Open earlier executed) :
      Protocol dialect client earlier state .commit [] (.ended none)
  | rollback {executed} (h : Open earlier executed) :
      Protocol dialect client earlier state .rollback [] (.ended (some (.ok ())))
  | rollbackClosed (h : ∀ executed, ¬ Open earlier executed) :
      Protocol dialect client earlier state .rollback [] (.ended none)
  | introspect {tables result after} (reading : Reading client tables state result after) :
      Protocol dialect client earlier state (.introspect tables) [.query (catalogQuery tables)]
        (.columns result)
  | diff {tables calls result after}
      (planning : Planning dialect client tables state calls result after) :
      Protocol dialect client earlier state (.diff tables) calls (.statements result)
  | unplanned {tables calls error after}
      (planning : Planning dialect client tables state calls (.error error) after) :
      Protocol dialect client earlier state (.apply tables) calls (.applied (.error error))
  | apply {tables calls statements after submitted result}
      (planning : Planning dialect client tables state calls (.ok statements) after)
      (batch : Batch client statements after submitted result) :
      Protocol dialect client earlier state (.apply tables) (calls ++ submitted) (.applied result)
  | applyStatements {statements calls result}
      (batch : Batch client statements state calls result) :
      Protocol dialect client earlier state (.applyStatements statements) calls (.applied result)

theorem Reading.unique {client : Client σ} {tables : List String} {state : σ}
    {result result' : Except CatalogError (List Column)} {after after' : σ}
    (h : Reading client tables state result after)
    (h' : Reading client tables state result' after') : result = result' ∧ after = after' := by
  cases h <;> cases h' <;> simp_all

theorem Planning.unique {dialect : Spanner} {client : Client σ} {tables : List TableDecl}
    {state : σ} {calls calls' : List Call} {result result' : Except SchemaError (List Statement)}
    {after after' : σ} (h : Planning dialect client tables state calls result after)
    (h' : Planning dialect client tables state calls' result' after') :
    calls = calls' ∧ result = result' ∧ after = after' := by
  cases h with
  | invalid validation => cases h' <;> simp_all
  | unread validation reading | planned validation reading =>
    cases h' with
    | invalid => simp_all
    | unread _ reading' | planned _ reading' =>
      have := reading.unique reading'
      simp_all

theorem Batch.unique {client : Client σ} {statements : List Statement} {state : σ}
    {calls calls' : List Call} {result result' : Except SchemaError Unit}
    (h : Batch client statements state calls result)
    (h' : Batch client statements state calls' result') : calls = calls' ∧ result = result' := by
  cases h with
  | empty hempty =>
    cases h' with
    | counted hk => exact absurd hk (by simp [hempty])
    | _ => simp_all
  | counted hk =>
    cases h' with
    | empty hempty => exact absurd hk (by simp [hempty])
    | _ => simp_all
  | accepted | uncounted => cases h' <;> simp_all

/-- A step has no choice in its calls and its answer. -/
theorem Protocol.unique {dialect : Spanner} {client : Client σ} {earlier : List Step} {state : σ}
    {step : Step} {calls calls' : List Call} {answer answer' : Answer}
    (h : Protocol dialect client earlier state step calls answer)
    (h' : Protocol dialect client earlier state step calls' answer') :
    calls = calls' ∧ answer = answer' := by
  cases h with
  | begin => cases h'; exact ⟨rfl, rfl⟩
  | exec hopen =>
    cases h' with
    | exec hopen' => simp [hopen.unique hopen']
    | execClosed hclosed => exact absurd hopen (hclosed _)
  | execClosed hclosed =>
    cases h' with
    | exec hopen => exact absurd hopen (hclosed _)
    | execClosed => exact ⟨rfl, rfl⟩
  | commit hopen | commitEmpty hopen =>
    cases h' with
    | commit hopen' | commitEmpty hopen' =>
      have := hopen.unique hopen'
      simp_all
    | commitClosed hclosed => exact absurd hopen (hclosed _)
  | commitClosed hclosed =>
    cases h' with
    | commit hopen | commitEmpty hopen => exact absurd hopen (hclosed _)
    | commitClosed => exact ⟨rfl, rfl⟩
  | rollback hopen =>
    cases h' with
    | rollback => exact ⟨rfl, rfl⟩
    | rollbackClosed hclosed => exact absurd hopen (hclosed _)
  | rollbackClosed hclosed =>
    cases h' with
    | rollback hopen => exact absurd hopen (hclosed _)
    | rollbackClosed => exact ⟨rfl, rfl⟩
  | introspect reading =>
    cases h' with
    | introspect reading' => simp [(reading.unique reading').1]
  | diff planning =>
    cases h' with
    | diff planning' => simp [planning.unique planning']
  | unplanned planning =>
    cases h' with
    | unplanned planning' | apply planning' =>
      have := planning.unique planning'
      simp_all
  | apply planning batch =>
    cases h' with
    | unplanned planning' =>
      have := planning.unique planning'
      simp_all
    | apply planning' batch' =>
      obtain ⟨rfl, hstatements, rfl⟩ := planning.unique planning'
      cases hstatements
      simp [batch.unique batch']
  | applyStatements batch =>
    cases h' with
    | applyStatements batch' => simp [batch.unique batch']

/-! ## Each step keeps to the protocol -/

theorem introspect_reading (client : Client σ) (tables : List String) (session : Session σ) :
    ∃ result after, Reading client tables session.state result after ∧
      (introspect client tables).run session =
        (result, ⟨after, session.calls ++ [.query (catalogQuery tables)], session.queue⟩) := by
  have hask : (client.ask (catalogQuery tables)).run session =
      ((client.query (catalogQuery tables) session.state).1,
        ⟨(client.query (catalogQuery tables) session.state).2,
          session.calls ++ [.query (catalogQuery tables)], session.queue⟩) := rfl
  rw [introspect, run_bind, hask]
  rcases hquery : client.query (catalogQuery tables) session.state with ⟨_ | rows, after⟩
  · exact ⟨_, _, .refused hquery, rfl⟩
  · exact ⟨_, _, .read hquery, rfl⟩

theorem diff_planning (dialect : Spanner) (client : Client σ) (tables : List TableDecl)
    (session : Session σ) :
    ∃ calls result after, Planning dialect client tables session.state calls result after ∧
      (diff dialect client tables).run session =
        (result, ⟨after, session.calls ++ calls, session.queue⟩) := by
  unfold diff
  cases hvalid : validate (.spanner dialect) tables with
  | error error => exact ⟨_, _, _, .invalid hvalid, by rw [List.append_nil]; rfl⟩
  | ok valid =>
    obtain ⟨columns?, after, hreading, hrun⟩ := introspect_reading client [] session
    dsimp only
    rw [run_bind, hrun]
    cases columns? with
    | error error => exact ⟨_, _, _, .unread hvalid hreading, rfl⟩
    | ok columns =>
      refine ⟨_, _, _, .planned hvalid hreading, ?_⟩
      rw [Dialect.plan, hvalid]
      rfl

theorem applyStatements_batch (client : Client σ) (statements : List Statement)
    (session : Session σ) :
    ∃ calls result, Batch client statements session.state calls result ∧
      ((applyStatements client statements).run session).1 = result ∧
      ((applyStatements client statements).run session).2.calls = session.calls ++ calls := by
  unfold applyStatements
  split
  · rename_i hempty
    exact ⟨_, _, .empty hempty, rfl, (List.append_nil _).symm⟩
  rename_i hne
  have hsend : (submitBatch client (statements.map (·.sql))).run session =
      ((client.submit (statements.map (·.sql)) session.state).1.mapError .admin,
        ⟨(client.submit (statements.map (·.sql)) session.state).2,
          session.calls ++ [.submit (statements.map (·.sql))], session.queue⟩) := by
    rw [submitBatch, if_neg (by simpa using hne)]
    rfl
  rw [run_bind, hsend]
  cases hsubmit : (client.submit (statements.map (·.sql)) session.state).1 with
  | ok done => exact ⟨_, _, .accepted hne hsubmit, rfl, rfl⟩
  | error error =>
    cases error with
    | batch completed message =>
      exact ⟨_, _, .counted (failedIndex_lt hne (.admin (.batch completed message))) rfl hsubmit,
        rfl, rfl⟩
    | request message =>
      exact ⟨_, _, .uncounted hne hsubmit,
        congrArg Except.error (commitFailure_of_uncounted hne rfl), rfl⟩

/-- The calls of a step, behind any others, and its answer are those of `Protocol`. -/
theorem run_protocol (dialect : Spanner) (client : Client σ) (state : σ) (earlier : List Step)
    (step : Step) :
    let session := Session.after dialect client { state } earlier
    ∃ calls answer, Protocol dialect client earlier session.state step calls answer ∧
      ((run dialect client step).run session).1 = answer ∧
      ((run dialect client step).run session).2.calls = session.calls ++ calls := by
  intro session
  have hopen := queue_after dialect client state earlier
  -- the session is known by its state and its queue from here on
  change ∀ executed, session.queue = some executed ↔ Open earlier executed at hopen
  clear_value session
  cases step with
  | begin => exact ⟨_, _, .begin, rfl, (List.append_nil _).symm⟩
  | exec sql =>
    rcases session with ⟨now, calls, _ | queue⟩
    · exact ⟨_, _, .execClosed (by simpa using hopen), rfl, (List.append_nil _).symm⟩
    · exact ⟨_, _, .exec ((hopen queue).1 rfl), rfl, (List.append_nil _).symm⟩
  | commit =>
    rcases session with ⟨now, calls, _ | _ | ⟨first, queue⟩⟩
    · exact ⟨_, _, .commitClosed (by simpa using hopen), rfl, (List.append_nil _).symm⟩
    · exact ⟨_, _, .commitEmpty ((hopen []).1 rfl), rfl, (List.append_nil _).symm⟩
    · exact ⟨_, _, .commit ((hopen _).1 rfl) (List.cons_ne_nil _ _), rfl, rfl⟩
  | rollback =>
    rcases session with ⟨now, calls, _ | queue⟩
    · exact ⟨_, _, .rollbackClosed (by simpa using hopen), rfl, (List.append_nil _).symm⟩
    · exact ⟨_, _, .rollback ((hopen queue).1 rfl), rfl, (List.append_nil _).symm⟩
  | introspect tables =>
    obtain ⟨result, after, hreading, hrun⟩ := introspect_reading client tables session
    rw [run, run_bind, hrun]
    exact ⟨_, _, .introspect hreading, rfl, rfl⟩
  | diff tables =>
    obtain ⟨calls, result, after, hplanning, hrun⟩ := diff_planning dialect client tables session
    rw [run, run_bind, hrun]
    exact ⟨_, _, .diff hplanning, rfl, rfl⟩
  | apply tables =>
    obtain ⟨calls, result, after, hplanning, hrun⟩ := diff_planning dialect client tables session
    rw [run, run_bind, apply, run_bind, hrun]
    cases result with
    | error error => exact ⟨_, _, .unplanned hplanning, rfl, rfl⟩
    | ok statements =>
      obtain ⟨submitted, result, hbatch, hresult, hcalls⟩ :=
        applyStatements_batch client statements ⟨after, session.calls ++ calls, session.queue⟩
      exact ⟨_, _, .apply hplanning hbatch, congrArg Answer.applied hresult,
        hcalls.trans (List.append_assoc _ _ _)⟩
  | applyStatements statements =>
    obtain ⟨calls, result, hbatch, hresult, hcalls⟩ :=
      applyStatements_batch client statements session
    exact ⟨_, _, .applyStatements hbatch, congrArg Answer.applied hresult, hcalls⟩

/-! ## Transactions that are not committed -/

/-- The steps among some that execute no statement. -/
def withoutStatements (steps : List Step) : List Step :=
  steps.filter fun step => step.statement?.isNone

/-- Within a transaction, executing no statement changes nothing but the transaction. -/
theorem after_withoutStatements (dialect : Spanner) (client : Client σ) {inside : List Step}
    (hinside : ∀ step ∈ inside, ¬ step.Boundary) (session : Session σ)
    (queue : Option (List String)) :
    ∃ queue', (session.withQueue queue).after dialect client (withoutStatements inside) =
      (session.after dialect client inside).withQueue queue' := by
  induction inside generalizing session queue with
  | nil => exact ⟨queue, rfl⟩
  | cons step inside ih =>
    have hrest := fun other hother => hinside other (List.mem_cons_of_mem _ hother)
    cases hstatement : step.statement? with
    | none =>
      have hstep := framed_run dialect client (hinside step List.mem_cons_self) hstatement
      rw [withoutStatements, List.filter_cons_of_pos (by simp [hstatement])]
      rw [after_cons, after_cons, hstep session queue]
      exact ih hrest _ _
    | some sql =>
      obtain rfl : step = .exec sql := by cases step <;> simp_all [Step.statement?]
      rw [withoutStatements, List.filter_cons_of_neg (by simp [hstatement])]
      exact ih hrest (session.withQueue (session.queue.map (· ++ [sql]))) queue

/-- A rollback and a new transaction forget the open one. -/
theorem run_forgets (dialect : Spanner) (client : Client σ) {last : Step}
    (hlast : last = .begin ∨ last = .rollback) (session : Session σ)
    (queue : Option (List String)) :
    ((run dialect client last).run (session.withQueue queue)).2 =
      ((run dialect client last).run session).2 := by
  rcases session with ⟨state, calls, _ | opened⟩
  all_goals rcases hlast with rfl | rfl <;> rcases queue with _ | queue <;> rfl

/-- What is executed in a transaction that is rolled back or replaced makes no difference to a
session. -/
theorem after_erase (dialect : Spanner) (client : Client σ) (session : Session σ)
    (earlier later : List Step) {inside : List Step} {last : Step}
    (hinside : ∀ step ∈ inside, ¬ step.Boundary) (hlast : last = .begin ∨ last = .rollback) :
    session.after dialect client (earlier ++ .begin :: withoutStatements inside ++ last :: later) =
      session.after dialect client (earlier ++ .begin :: inside ++ last :: later) := by
  simp only [after_append, after_cons]
  obtain ⟨queue, hqueue⟩ := after_withoutStatements dialect client hinside
    ((run dialect client .begin).run (session.after dialect client earlier)).2 (some [])
  rw [show ((run dialect client .begin).run (session.after dialect client earlier)).2.after dialect
    client (withoutStatements inside) = _ from hqueue, run_forgets dialect client hlast]

/-- Every step of a session calls the client as `Protocol` says, and what is executed in a
transaction that is rolled back or replaced makes no difference to the calls of the session. -/
theorem session_protocol (dialect : Spanner) (client : Client σ) (state : σ) :
    (∀ earlier step,
      let session := Session.after dialect client { state } earlier
      ∃ calls answer, Protocol dialect client earlier session.state step calls answer ∧
        ((run dialect client step).run session).1 = answer ∧
        ((run dialect client step).run session).2.calls = session.calls ++ calls) ∧
    (∀ earlier inside last later, (∀ step ∈ inside, ¬ step.Boundary) →
      (last = .begin ∨ last = .rollback) →
      (Session.after dialect client { state }
        (earlier ++ .begin :: withoutStatements inside ++ last :: later)).calls =
      (Session.after dialect client { state }
        (earlier ++ .begin :: inside ++ last :: later)).calls) :=
  ⟨run_protocol dialect client state, fun earlier _ _ later hinside hlast =>
    congrArg Session.calls (after_erase dialect client _ earlier later hinside hlast)⟩

/-- Of two transactions the first of which is rolled back, only the second is submitted. -/
theorem session_protocol_rollback :
    (∀ step ∈ [Step.exec "DROP TABLE a"], ¬ step.Boundary) ∧
    (Session.after {} InMemory.client { state := {} }
      [.begin, .exec "DROP TABLE a", .rollback, .begin, .exec "DROP TABLE b", .commit]).calls =
        [.submit ["DROP TABLE b"]] :=
  have hinside : ∀ step ∈ [Step.exec "DROP TABLE a"], ¬ step.Boundary := by simp [Step.Boundary]
  ⟨hinside, ((session_protocol {} InMemory.client {}).2 [] [.exec "DROP TABLE a"] .rollback
    [.begin, .exec "DROP TABLE b", .commit] hinside (.inr rfl)).symm.trans rfl⟩

end SchemaPlan.Spanner
