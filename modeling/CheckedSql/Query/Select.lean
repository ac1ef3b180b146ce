/-
Queries that read rows: the calls that make their clauses, and the statement they amount to.
-/
import CheckedSql.Projection
import CheckedSql.Query.Chain
import CheckedSql.Table

namespace CheckedSql

namespace SelectQuery

/-- The clauses of a query that reads rows. -/
structure Clauses where
  distinct : Bool := false
  columns : List Column := []
  exprs : List SelectItem := []
  /-- Leaves out the columns: only derived columns are selected. -/
  exprsOnly : Bool := false
  conditions : List Cond := []
  groupBy : List Column := []
  having : List Cond := []
  orderBy : List OrderItem := []
  limit : Option Bound := none
  offset : Option Bound := none
  lock : Option RowLock := none

/-- The calls of a chain. -/
inductive Call
  | whereCond (c : Condition)
  | columns (names : List String)
  | distinct
  | expr (p : Projection) (outputName : String)
  | exprsOnly
  | orderBy (column direction : String)
  | orderByNulls (column direction nulls : String)
  | orderByExpr (p : Projection) (direction : String)
  | limit (n : Nat)
  | offset (n : Nat)
  | limitParam (name : String)
  | offsetParam (name : String)
  | groupBy (names : List String)
  | having (c : Condition)
  /-- A condition on an aggregate of a column, or of whole rows if the column is a star. -/
  | havingAggregate (fn column op param : String)
  | lock (l : RowLock)

end SelectQuery

/-- The column an aggregate is taken of; a star stands for whole rows. -/
def Schema.resolveAggregated (s : Schema) (column : String) :
    Except BuildError (Option Column) := do
  if column = "*" then return none
  return some (← s.resolveColumn column)

namespace SelectQuery

/-- The clauses after one more call. -/
def Clauses.apply (s : Schema) (c : Clauses) : Call → Except BuildError Clauses
  | .whereCond cond => do
    return { c with conditions := ← attach s cond c.conditions }
  | .columns names => do
    let columns ← s.resolveColumns names
    return { c with columns := c.columns ++ columns }
  | .distinct => return { c with distinct := true }
  | .expr p name => do
    let expr ← p.resolve s
    let name ← s.resolveOutputName name
    return { c with exprs := c.exprs ++ [⟨expr, some name⟩] }
  | .exprsOnly => return { c with exprsOnly := true }
  | .orderBy column direction => do
    let item ← OrderItem.resolve s column direction none
    return { c with orderBy := c.orderBy ++ [item] }
  | .orderByNulls column direction nulls => do
    let item ← OrderItem.resolve s column direction (some nulls)
    return { c with orderBy := c.orderBy ++ [item] }
  | .orderByExpr p direction => do
    let expr ← p.resolve s
    let direction ← Vocabulary.directions.resolve direction
    return { c with orderBy := c.orderBy ++ [.mk expr direction none] }
  | .limit n => return { c with limit := some (.literal n) }
  | .offset n => return { c with offset := some (.literal n) }
  | .limitParam name => do
    let p ← s.resolveParam name
    return { c with limit := some (.param p) }
  | .offsetParam name => do
    let p ← s.resolveParam name
    return { c with offset := some (.param p) }
  | .groupBy names => do
    let columns ← s.resolveColumns names
    return { c with groupBy := c.groupBy ++ columns }
  | .having cond => do
    return { c with having := ← attach s cond c.having }
  | .havingAggregate fn column op param => do
    let fn ← Vocabulary.aggregates.resolve fn
    let column ← s.resolveAggregated column
    let op ← Vocabulary.resolvePredicate op
    let param ← s.resolveParam param
    return { c with having := c.having ++ [.aggregate fn column op param] }
  | .lock l => return { c with lock := some l }

/-- The statement of the clauses. Without a choice of columns all are selected. -/
def Clauses.statement (s : Schema) (c : Clauses) : Except BuildError SelectStatement :=
  if c.exprsOnly && c.exprs.isEmpty then
    .error (.incomplete "exprs_only() without any select_expr()")
  else
    let columns := if c.columns.isEmpty then s.allColumns else c.columns
    let items := if c.exprsOnly then [] else columns.map SelectItem.ofColumn
    .ok
      { table := s.table
        distinct := c.distinct
        items := items ++ c.exprs
        conditions := c.conditions
        groupBy := c.groupBy
        having := c.having
        orderBy := c.orderBy
        limit := c.limit
        offset := c.offset
        lock := c.lock }

end SelectQuery

/-- A query that reads rows of a table. -/
structure SelectQuery where
  table : Table
  chain : Chain SelectQuery.Clauses := { clauses := {} }

namespace SelectQuery

/-- One more call. -/
def call (q : SelectQuery) (c : Call) : SelectQuery :=
  { q with chain := q.chain.call (·.apply q.table.schema c) }

/-- The query that a chain of calls builds. -/
def ofCalls (t : Table) (calls : List Call) : SelectQuery :=
  calls.foldl call { table := t }

/-- Whether the chain has a WHERE condition. -/
def hasWhere (q : SelectQuery) : Bool :=
  !q.chain.clauses.conditions.isEmpty

/-- The statement that the chain amounts to. -/
def statement (q : SelectQuery) : Except BuildError SelectStatement := do
  let c ← q.chain.result
  c.statement q.table.schema

/-- The statement as it is sent. -/
def render (q : SelectQuery) : Except QueryError Rendered := do
  let s ← liftBuild q.statement
  q.table.renderer.render (.select s)

end SelectQuery

end CheckedSql
