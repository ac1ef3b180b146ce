/-
One operation on a table: its statements are sent under the table's time limit, failures of the
client are wrapped once with the operation's label, and the monitor hears of its start, of its end
and of its slowness, whatever the number of statements.
-/
import CheckedSql.Execution.Run
import CheckedSql.Params
import CheckedSql.Table

namespace CheckedSql

/-- An operation about to be run. -/
structure Operation where
  config : RunConfig
  info : OperationInfo

namespace Operation

variable {α β : Type}

/-- The operation of a kind whose first statement is given. -/
def new (t : Table) (kind : OperationKind) (first : Rendered) : Operation :=
  ⟨t.config, ⟨t.schema.table, kind, first.sql, first.params.length⟩⟩

/-- Tells the monitor, if monitoring is on. -/
def tell (o : Operation) (e : Event) : Run β Unit :=
  if o.config.monitoring then Run.act (.tell e) else pure ()

/-- A reply within the time limit; a later one is a timeout. -/
def judge (o : Operation) (r : Reply) : Except QueryError Answer :=
  match o.config.queryTimeout with
  | some limit => if limit.nanos < r.delay.nanos then .error (.timeout limit) else r.outcome
  | none => r.outcome

/-- Sends a statement. A failure is one of this operation. -/
def send (o : Operation) (s : Sent β) : Run β Answer := do
  let reply ← Run.send s
  match o.judge reply with
  | .ok a => return a
  | .error e => Run.fail (.exec o.info.label e)

/-- The rows of a statement. -/
def query (o : Operation) (sql : String) (args : List β) : Run β (List Row) := do
  let a ← o.send ⟨.query, sql, args⟩
  return a.rows

/-- The number of rows that a statement affects. -/
def execute (o : Operation) (sql : String) (args : List β) : Run β Nat := do
  let a ← o.send ⟨.execute, sql, args⟩
  return a.affected

/-- How a result is reported. -/
def outcomeOf (summary : α → Outcome) : Except QueryError α → Outcome
  | .ok a => summary a
  | .error e => .ofError e.message

/-- Reports slowness: more time than the threshold, if one is set. -/
def tellSlow (o : Operation) (elapsed : Duration) : Run β Unit :=
  match o.config.slowThreshold with
  | some threshold =>
    if threshold.nanos < elapsed.nanos then o.tell (.slow o.info elapsed) else pure ()
  | none => pure ()

/-- Runs a program as this operation, with the monitor told around it. -/
def monitored (o : Operation) (summary : α → Outcome) (x : Run β α) : Run β α := do
  o.tell (.start o.info)
  let result ← x.attempt
  let elapsed ← Run.elapsed
  o.tell (.complete o.info elapsed (outcomeOf summary result))
  o.tellSlow elapsed
  Run.ofExcept result

/-- The sum of two counts of affected rows, in 64 bits. Beyond these it wraps around, as it does in
a release build; a build with overflow checks stops there instead. -/
def addCounts (m n : Nat) : Nat :=
  (m + n) % UInt64.size

/-- Binds one set of values and sends the statement with them. -/
def step (o : Operation) (r : Rendered) (set : Params β) : Run β Nat := do
  let args ← set.bind r.params
  o.execute r.sql args

/-- Sends a statement once for each set of values, in order, from item `index` on and with so many
rows affected before, and adds up the affected rows. The first failure ends the batch. -/
def batchFrom (o : Operation) (r : Rendered) (index affected : Nat) :
    List (Params β) → Run β Nat
  | [] => return affected
  | set :: sets => do
    match ← (o.step r set).attempt with
    | .ok n => o.batchFrom r (index + 1) (addCounts affected n) sets
    | .error e => Run.fail (.batch index affected e)

/-- Sends a statement once for each set of values. -/
def batch (o : Operation) (r : Rendered) (sets : List (Params β)) : Run β Nat :=
  o.batchFrom r 0 0 sets

end Operation

/-- The only element of a list; `missing` says what there is none of. -/
def exactlyOne {α : Type} (missing : String) : List α → Except QueryError α
  | [] => .error (.notFound missing)
  | [a] => .ok a
  | as => .error (.tooManyRows 1 as.length)

/-- A count that must be one. -/
def exactlyOneAffected (missing : String) (n : Nat) : Except QueryError Unit :=
  if n = 0 then .error (.notFound missing)
  else if n = 1 then .ok ()
  else .error (.tooManyRows 1 n)

end CheckedSql
