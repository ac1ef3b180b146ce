/-
Queries that change rows. A query without a WHERE condition is refused: it would change every row.
-/
import CheckedSql.Monitor.Event
import CheckedSql.Query.Chain
import CheckedSql.Table

namespace CheckedSql

namespace UpdateQuery

/-- The clauses of a query that changes rows. -/
structure Clauses where
  assignments : List (Column × Param) := []
  conditions : List Cond := []

/-- The calls of a chain. -/
inductive Call
  | whereCond (c : Condition)
  | assign (column param : String)

/-- The clauses after one more call. -/
def Clauses.apply (s : Schema) (c : Clauses) : Call → Except BuildError Clauses
  | .whereCond cond => do
    return { c with conditions := ← attach s cond c.conditions }
  | .assign column param => do
    let column ← s.resolveColumn column
    let param ← s.resolveParam param
    return { c with assignments := c.assignments ++ [(column, param)] }

end UpdateQuery

/-- A query that changes rows of a table. -/
structure UpdateQuery where
  table : Table
  chain : Chain UpdateQuery.Clauses := { clauses := {} }

namespace UpdateQuery

/-- One more call. -/
def call (q : UpdateQuery) (c : Call) : UpdateQuery :=
  { q with chain := q.chain.call (·.apply q.table.schema c) }

/-- The query that a chain of calls builds. -/
def ofCalls (t : Table) (calls : List Call) : UpdateQuery :=
  calls.foldl call { table := t }

/-- Whether the chain has a WHERE condition. -/
def hasWhere (q : UpdateQuery) : Bool :=
  !q.chain.clauses.conditions.isEmpty

/-- The clauses, which must assign something. -/
def assigned (q : UpdateQuery) : Except QueryError Clauses := do
  let c ← liftBuild q.chain.result
  if c.assignments.isEmpty then
    throw (.build (.incomplete "update without any SET column"))
  return c

/-- Refuses clauses without a WHERE condition. -/
def Clauses.requireWhere (c : Clauses) : Except QueryError Unit :=
  if c.conditions.isEmpty then .error (.missingWhere OperationKind.update.verb) else .ok ()

/-- An UPDATE as it is sent. -/
def renderStatement (q : UpdateQuery) (c : Clauses) (returning : List Column) :
    Except QueryError Rendered :=
  q.table.renderer.render
    (.update
      { table := q.table.schema.table
        assignments := c.assignments
        conditions := c.conditions
        returning })

/-- The statement as it is sent; it returns the row if the dialect can. -/
def render (q : UpdateQuery) : Except QueryError Rendered := do
  let c ← q.assigned
  c.requireWhere
  q.renderStatement c
    (if q.table.capabilities.returningOnUpdate then q.table.schema.allColumns else [])

/-- The statement that reads the changed rows: every column, under the same conditions. -/
def readBack (q : UpdateQuery) (c : Clauses) : SelectStatement :=
  { table := q.table.schema.table
    items := q.table.schema.allItems
    conditions := c.conditions }

/-- The statement that reads the changed rows, as it is sent. -/
def renderReadBack (q : UpdateQuery) : Except QueryError Rendered := do
  let c ← q.assigned
  q.table.renderer.render (.select (q.readBack c))

end UpdateQuery

end CheckedSql
