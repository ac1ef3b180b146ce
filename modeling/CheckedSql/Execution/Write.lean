/-
Running the queries that write. Where the dialect cannot return the row that was written, it is
read back with a second statement of the same operation, which is written and bound before the
first is sent.
-/
import CheckedSql.Execution.Operation
import CheckedSql.Query.Delete
import CheckedSql.Query.Insert
import CheckedSql.Query.Update

namespace CheckedSql

variable {α β : Type}

/-- Sends a statement that returns the one row it writes. -/
def writeReturning (o : Operation) (missing : String) (decode : Row → Except QueryError α)
    (r : Rendered) (args : List β) : Run β α :=
  o.monitored (fun _ => .rows 1) do
    let rows ← o.query r.sql args
    let row ← (exactlyOne missing rows : Except QueryError Row)
    decode row

/-- Sends a statement that writes one row, then one that reads it back. -/
def writeThenRead (o : Operation) (missing lost : String) (decode : Row → Except QueryError α)
    (r : Rendered) (args : List β) (read : Rendered) (readArgs : List β) : Run β α :=
  o.monitored (fun _ => .affected 1) do
    let n ← o.execute r.sql args
    (exactlyOneAffected missing n : Except QueryError Unit)
    let rows ← o.query read.sql readArgs
    let row ← (exactlyOne lost rows : Except QueryError Row)
    decode row

namespace InsertQuery

/-- Adds one row and comes to it as it is stored. -/
def exec (q : InsertQuery) (decode : Row → Except QueryError α) (ps : Params β) : Run β α := do
  let r ← q.render
  let args ← ps.bind r.params
  let o := Operation.new q.table .insert r
  if q.table.capabilities.returningOnInsert then
    writeReturning o "no rows inserted" decode r args
  else
    let read ← q.renderReadBack
    let readArgs ← ps.bind read.params
    writeThenRead o "no rows inserted" "inserted row not found" decode r args read readArgs

/-- Adds rows with one statement and counts them. No rows are added without a statement. -/
def execBatch (q : InsertQuery) (rows : List (Params β)) : Run β Nat := do
  let _ ← liftBuild q.chain.result
  if rows.isEmpty then return 0
  let r ← q.renderBatch rows.length
  let args ← (Params.ofRows 0 .empty rows).bind r.params
  let o := Operation.new q.table .insertBatch r
  o.monitored .affected (o.execute r.sql args)

end InsertQuery

namespace UpdateQuery

/-- Changes exactly one row and comes to it as it is stored. -/
def exec (q : UpdateQuery) (decode : Row → Except QueryError α) (ps : Params β) : Run β α := do
  let r ← q.render
  let args ← ps.bind r.params
  let o := Operation.new q.table .update r
  if q.table.capabilities.returningOnUpdate then
    writeReturning o "no rows updated" decode r args
  else
    let read ← q.renderReadBack
    let readArgs ← ps.bind read.params
    writeThenRead o "no rows updated" "updated row not found" decode r args read readArgs

/-- Changes rows once for each set of values and counts them. Without sets nothing is sent. -/
def execBatch (q : UpdateQuery) (sets : List (Params β)) : Run β Nat := do
  let c ← q.assigned
  if sets.isEmpty then return 0
  c.requireWhere
  let r ← q.renderStatement c []
  let o := Operation.new q.table .updateBatch r
  o.monitored .affected (o.batch r sets)

end UpdateQuery

namespace DeleteQuery

/-- Removes rows and counts them. -/
def exec (q : DeleteQuery) (ps : Params β) : Run β Nat := do
  let r ← q.render
  let args ← ps.bind r.params
  let o := Operation.new q.table .delete r
  o.monitored .affected (o.execute r.sql args)

/-- Removes rows once for each set of values and counts them. Without sets nothing is sent. -/
def execBatch (q : DeleteQuery) (sets : List (Params β)) : Run β Nat := do
  let _ ← liftBuild q.chain.result
  if sets.isEmpty then return 0
  let r ← q.render
  let o := Operation.new q.table .deleteBatch r
  o.monitored .affected (o.batch r sets)

end DeleteQuery

end CheckedSql
