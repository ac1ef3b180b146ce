/-
Queries joined by set operations. Each operand is a chain of its own, fixed when it is joined; the
ordering and the bounds are those of the combined result.
-/
import CheckedSql.Query.Select

namespace CheckedSql

namespace CompoundQuery

/-- The clauses after the first operand. -/
structure Clauses where
  rest : List (SetOp × SelectStatement) := []
  orderBy : List OrderItem := []
  limit : Option Bound := none
  offset : Option Bound := none

/-- The calls of a chain. -/
inductive Call
  | combine (op : SetOp) (operand : SelectQuery)
  | orderBy (column direction : String)
  | orderByNulls (column direction nulls : String)
  | limit (n : Nat)
  | offset (n : Nat)
  | limitParam (name : String)
  | offsetParam (name : String)

/-- The clauses after one more call. An operand that is no statement is the call's error. -/
def Clauses.apply (s : Schema) (c : Clauses) : Call → Except BuildError Clauses
  | .combine op operand => do
    let statement ← operand.statement
    return { c with rest := c.rest ++ [(op, statement)] }
  | .orderBy column direction => do
    let item ← OrderItem.resolve s column direction none
    return { c with orderBy := c.orderBy ++ [item] }
  | .orderByNulls column direction nulls => do
    let item ← OrderItem.resolve s column direction (some nulls)
    return { c with orderBy := c.orderBy ++ [item] }
  | .limit n => return { c with limit := some (.literal n) }
  | .offset n => return { c with offset := some (.literal n) }
  | .limitParam name => do
    let p ← s.resolveParam name
    return { c with limit := some (.param p) }
  | .offsetParam name => do
    let p ← s.resolveParam name
    return { c with offset := some (.param p) }

end CompoundQuery

/-- Queries joined by set operations, for the table of the first of them. -/
structure CompoundQuery where
  table : Table
  first : Except BuildError SelectStatement
  chain : Chain CompoundQuery.Clauses := { clauses := {} }

namespace CompoundQuery

/-- A first operand, with nothing joined to it yet. -/
def ofFirst (q : SelectQuery) : CompoundQuery :=
  { table := q.table, first := q.statement }

/-- One more call. -/
def call (q : CompoundQuery) (c : Call) : CompoundQuery :=
  { q with chain := q.chain.call (·.apply q.table.schema c) }

/-- The query that a chain of calls builds on a first operand. -/
def ofCalls (first : SelectQuery) (calls : List Call) : CompoundQuery :=
  calls.foldl call (ofFirst first)

/-- The statement that the chain amounts to. An error of the first operand is the first error. -/
def statement (q : CompoundQuery) : Except BuildError CompoundStatement := do
  let first ← q.first
  let c ← q.chain.result
  if c.rest.isEmpty then
    throw (.incomplete "a compound query needs at least two operands")
  return { first, rest := c.rest, orderBy := c.orderBy, limit := c.limit, offset := c.offset }

/-- The statement as it is sent. -/
def render (q : CompoundQuery) : Except QueryError Rendered := do
  let s ← liftBuild q.statement
  q.table.renderer.render (.compound s)

end CompoundQuery

end CheckedSql
