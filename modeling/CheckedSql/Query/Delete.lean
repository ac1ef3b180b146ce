/-
Queries that remove rows. A query without a WHERE condition is refused: it would remove every row.
-/
import CheckedSql.Monitor.Event
import CheckedSql.Query.Chain
import CheckedSql.Table

namespace CheckedSql

namespace DeleteQuery

/-- The calls of a chain. -/
inductive Call
  | whereCond (c : Condition)

end DeleteQuery

/-- A query that removes rows of a table; its clauses are its WHERE conditions. -/
structure DeleteQuery where
  table : Table
  chain : Chain (List Cond) := { clauses := [] }

namespace DeleteQuery

/-- One more call. -/
def call (q : DeleteQuery) : Call → DeleteQuery
  | .whereCond c => { q with chain := q.chain.call (attach q.table.schema c) }

/-- The query that a chain of calls builds. -/
def ofCalls (t : Table) (calls : List Call) : DeleteQuery :=
  calls.foldl call { table := t }

/-- Whether the chain has a WHERE condition. -/
def hasWhere (q : DeleteQuery) : Bool :=
  !q.chain.clauses.isEmpty

/-- The statement as it is sent. -/
def render (q : DeleteQuery) : Except QueryError Rendered := do
  let conditions ← liftBuild q.chain.result
  if conditions.isEmpty then throw (.missingWhere OperationKind.delete.verb)
  q.table.renderer.render (.delete { table := q.table.schema.table, conditions })

end DeleteQuery

end CheckedSql
