/-
Running the queries that read. Nothing is sent before the statement is written and every parameter
of it has a value. Records are made of rows after the operation is reported; the number of an
aggregate is part of the operation. What reads a record or a number from a row is a parameter of
the query's execution.
-/
import CheckedSql.Execution.Operation
import CheckedSql.Query.Aggregate
import CheckedSql.Query.Compound

namespace CheckedSql

variable {α β : Type}

/-- The records of rows, in order; the first row that is none is the error. -/
def decodeAll (decode : Row → Except QueryError α) : List Row → Except QueryError (List α)
  | [] => .ok []
  | r :: rs => do
    let a ← decode r
    let as ← decodeAll decode rs
    return a :: as

/-- All rows of a written statement, as one operation. -/
def fetchRowsOf (t : Table) (kind : OperationKind) (r : Rendered) (ps : Params β) :
    Run β (List Row) := do
  let args ← ps.bind r.params
  let o := Operation.new t kind r
  o.monitored (fun rows => .rows rows.length) (o.query r.sql args)

namespace SelectQuery

/-- All rows. -/
def fetchRows (q : SelectQuery) (ps : Params β) : Run β (List Row) := do
  let r ← q.render
  fetchRowsOf q.table .selectMany r ps

/-- All rows, as records. -/
def fetchAll (q : SelectQuery) (decode : Row → Except QueryError α) (ps : Params β) :
    Run β (List α) := do
  let rows ← q.fetchRows ps
  decodeAll decode rows

/-- The only row. -/
def fetchOneRow (q : SelectQuery) (ps : Params β) : Run β Row := do
  let r ← q.render
  let args ← ps.bind r.params
  let o := Operation.new q.table .selectOne r
  o.monitored (fun _ => .rows 1) do
    let rows ← o.query r.sql args
    exactlyOne "no rows found" rows

/-- The only row, as a record. -/
def fetchOne (q : SelectQuery) (decode : Row → Except QueryError α) (ps : Params β) :
    Run β α := do
  let row ← q.fetchOneRow ps
  decode row

end SelectQuery

namespace CompoundQuery

/-- All rows. -/
def fetchRows (q : CompoundQuery) (ps : Params β) : Run β (List Row) := do
  let r ← q.render
  fetchRowsOf q.table .compound r ps

/-- All rows, as records. -/
def fetchAll (q : CompoundQuery) (decode : Row → Except QueryError α) (ps : Params β) :
    Run β (List α) := do
  let rows ← q.fetchRows ps
  decodeAll decode rows

end CompoundQuery

namespace AggregateQuery

/-- The number, which `get` gets from the row; NULL counts as zero. -/
def fetch (q : AggregateQuery) (ps : Params β)
    (get : Row → String → Except String (Option Double) := Row.getFloat8?) : Run β Double := do
  let r ← q.render
  let args ← ps.bind r.params
  let o := Operation.new q.table .aggregate r
  o.monitored (fun _ => .rows 1) do
    let rows ← o.query r.sql args
    let row ← (exactlyOne "aggregate returned no row" rows : Except QueryError Row)
    let value ← (row.column get outputName : Except QueryError (Option Double))
    return value.getD .zero

end AggregateQuery

end CheckedSql
