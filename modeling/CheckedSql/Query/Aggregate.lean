/-
Queries for one number: an aggregate of a column, or the count of rows, as a floating-point value
in a single output column.
-/
import CheckedSql.Query.Select

namespace CheckedSql

namespace AggregateQuery

/-- The clauses of a query for one number. -/
structure Clauses where
  fn : AggregateFn
  column : Option Column
  filter : List Cond := []
  conditions : List Cond := []

/-- The calls of a chain. -/
inductive Call
  | whereCond (c : Condition)
  | filter (c : Condition)

/-- The clauses after one more call. -/
def Clauses.apply (s : Schema) (c : Clauses) : Call → Except BuildError Clauses
  | .whereCond cond => do
    return { c with conditions := ← attach s cond c.conditions }
  | .filter cond => do
    return { c with filter := ← attach s cond c.filter }

/-- The name of the output column. -/
def outputName : String := "value"

/-- The function and the column of an aggregate. Only rows can be counted without a column. -/
def target (s : Schema) (fn : Except BuildError AggregateFn) (column : Option String) :
    Except BuildError (AggregateFn × Option Column) := do
  let fn ← fn
  match column with
  | some name => return (fn, some (← s.resolveColumn name))
  | none =>
    if fn = .count then return (fn, none)
    else throw (.incomplete (fn.keyword.text ++ " needs a column"))

/-- The SELECT of the clauses. The filter conditions must all hold. -/
def Clauses.statement (s : Schema) (c : Clauses) : SelectStatement :=
  let value := Expr.aggregate c.fn (c.column.map Expr.column) (Cond.all c.filter) none
  { table := s.table
    items := [⟨.cast value .doublePrecision, some outputName⟩]
    conditions := c.conditions }

end AggregateQuery

/-- A query for one number. -/
structure AggregateQuery where
  table : Table
  chain : Chain AggregateQuery.Clauses

namespace AggregateQuery

/-- An aggregate by its function. A target that does not resolve is the chain's first error. -/
def new (t : Table) (fn : Except BuildError AggregateFn) (column : Option String) :
    AggregateQuery :=
  match target t.schema fn column with
  | .ok (fn, column) => ⟨t, { clauses := { fn, column } }⟩
  | .error e => ⟨t, { clauses := { fn := .count, column := none }, fault := some e }⟩

/-- An aggregate by the token of its function; the column may be a star for whole rows. -/
def ofToken (t : Table) (fn column : String) : AggregateQuery :=
  new t (Vocabulary.aggregates.resolve fn) (if column = "*" then none else some column)

/-- One more call. -/
def call (q : AggregateQuery) (c : Call) : AggregateQuery :=
  { q with chain := q.chain.call (·.apply q.table.schema c) }

/-- The query that a chain of calls builds on a target. -/
def calls (q : AggregateQuery) (cs : List Call) : AggregateQuery :=
  cs.foldl call q

/-- Whether the chain has a WHERE condition. -/
def hasWhere (q : AggregateQuery) : Bool :=
  !q.chain.clauses.conditions.isEmpty

/-- The statement as it is sent. -/
def render (q : AggregateQuery) : Except QueryError Rendered := do
  let c ← liftBuild q.chain.result
  q.table.renderer.render (.select (c.statement q.table.schema))

end AggregateQuery

end CheckedSql
