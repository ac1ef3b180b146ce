/-
Queries that add rows. Every column outside the primary key is written from the parameter of its
own name, or of its name and the row's number when several rows are added at once. A plain name
stays plain under both, so these parameters need no check.
-/
import CheckedSql.Params
import CheckedSql.Query.Chain
import CheckedSql.Table

namespace CheckedSql

/-- The parameter of a column's own name. -/
def Column.param (c : Column) : Param :=
  ⟨c.name⟩

/-- The parameter of a column in one row of several. -/
def Column.rowParam (index : Nat) (c : Column) : Param :=
  ⟨ParamName.inRow index c.name⟩

namespace InsertQuery

/-- The calls of a chain. -/
inductive Call
  | onConflictSkip (target : List String)
  | onConflictOverwrite (target columns : List String)

/-- The conflict clause that a call sets. -/
def Call.conflict (s : Schema) : Call → Except BuildError Conflict
  | .onConflictSkip target => do
    return .skip (← s.resolveColumns target)
  | .onConflictOverwrite target columns => do
    let target ← s.resolveColumns target
    let columns ← s.resolveColumns columns
    if target.isEmpty || columns.isEmpty then
      throw
        (.invalidCondition "ON CONFLICT DO UPDATE needs a target and columns to update")
    return .overwrite target columns

end InsertQuery

/-- A query that adds rows to a table. -/
structure InsertQuery where
  table : Table
  chain : Chain (Option Conflict) := { clauses := none }

namespace InsertQuery

/-- One more call. The last conflict clause counts. -/
def call (q : InsertQuery) (c : Call) : InsertQuery :=
  { q with chain := q.chain.call fun _ => return some (← c.conflict q.table.schema) }

/-- The query that a chain of calls builds. -/
def ofCalls (t : Table) (calls : List Call) : InsertQuery :=
  calls.foldl call { table := t }

/-- The columns that are written. -/
def columns (q : InsertQuery) : List Column :=
  q.table.schema.nonPrimary

/-- An INSERT of rows of parameters. -/
def statement (q : InsertQuery) (conflict : Option Conflict) (rows : List (List Param))
    (returning : List Column) : InsertStatement :=
  { table := q.table.schema.table, columns := q.columns, rows, conflict, returning }

/-- The statement for one row as it is sent; it returns the row if the dialect can. -/
def render (q : InsertQuery) : Except QueryError Rendered := do
  let conflict ← liftBuild q.chain.result
  let returning :=
    if q.table.capabilities.returningOnInsert then q.table.schema.allColumns else []
  q.table.renderer.render
    (.insert (q.statement conflict [q.columns.map Column.param] returning))

/-- The statement for a number of rows as it is sent. -/
def renderBatch (q : InsertQuery) (count : Nat) : Except QueryError Rendered := do
  let conflict ← liftBuild q.chain.result
  let rows := (List.range count).map fun i => q.columns.map (Column.rowParam i)
  q.table.renderer.render (.insert (q.statement conflict rows []))

/-- The columns by which an added row is found again: the target of the conflict clause if there
is one, else every column that was written. -/
def keys (q : InsertQuery) (conflict : Option Conflict) : List Column :=
  match conflict with
  | none => q.columns
  | some c => if c.target.isEmpty then q.columns else c.target

/-- The condition that a column holds what was written to it, NULL included if it may hold that. -/
def keyCond (q : InsertQuery) (c : Column) : Cond :=
  if q.table.schema.isNullable c.name then .nullSafeEq c c.param else .compare c .eq c.param

/-- The statement that reads an added row back: of the rows that hold what was written, the one
with the greatest primary key. -/
def readBack (q : InsertQuery) (conflict : Option Conflict) : SelectStatement :=
  let orderBy := q.table.schema.primaryKey.map fun c => OrderItem.mk (.column c) .desc none
  { table := q.table.schema.table
    items := q.table.schema.allItems
    conditions := (q.keys conflict).map q.keyCond
    orderBy
    limit := if orderBy.isEmpty then none else some (.literal 1) }

/-- The statement that reads an added row back, as it is sent. -/
def renderReadBack (q : InsertQuery) : Except QueryError Rendered := do
  let conflict ← liftBuild q.chain.result
  q.table.renderer.render (.select (q.readBack conflict))

end InsertQuery

end CheckedSql
