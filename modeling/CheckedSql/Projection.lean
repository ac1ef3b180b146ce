/-
Derived columns as callers write them, by names and tokens, and their resolution against a schema.
-/
import CheckedSql.Condition

namespace CheckedSql

/-- A window by names: columns to partition by, and columns to order by with their directions. -/
structure WindowSpec where
  partitionBy : List String := []
  orderBy : List (String × String) := []

/-- A derived column by names. -/
inductive Projection
  | column (name : String)
  | param (name : String)
  | call (fn : ScalarFn) (args : List Projection)
  | cast (p : Projection) (type : String)
  | binary (left : Projection) (op : String) (right : Projection)
  | aggregate (fn : AggregateFn) (arg : Option Projection) (filter : Option Condition)
    (window : Option WindowSpec)
  | case (branches : List (Condition × Projection)) (otherwise : Option Projection)
  | ranking (fn : WindowFn) (window : WindowSpec)
  deriving Inhabited

/-- The key of an ordering by a column: the column is resolved before the direction, and that
before the place of NULLs. -/
def OrderItem.resolve (s : Schema) (column direction : String) (nulls : Option String) :
    Except BuildError OrderItem := do
  let column ← s.resolveColumn column
  let direction ← Vocabulary.directions.resolve direction
  match nulls with
  | none => return .mk (.column column) direction none
  | some n => return .mk (.column column) direction (some (← Vocabulary.nullsOrders.resolve n))

namespace WindowSpec

/-- The keys of an ordering by columns. -/
def resolveOrder (s : Schema) : List (String × String) → Except BuildError (List OrderItem)
  | [] => return []
  | (column, direction) :: rest => do
    let item ← OrderItem.resolve s column direction none
    let items ← resolveOrder s rest
    return item :: items

/-- The window with its names resolved. -/
def resolve (s : Schema) (w : WindowSpec) : Except BuildError Window := do
  let partitionBy ← s.resolveColumns w.partitionBy
  let orderBy ← resolveOrder s w.orderBy
  return .mk partitionBy orderBy

/-- A window that may be absent, resolved. -/
def resolve? (s : Schema) : Option WindowSpec → Except BuildError (Option Window)
  | none => return none
  | some w => return some (← w.resolve s)

end WindowSpec

/-- A condition that may be absent, resolved; one that says nothing is absent. -/
def Condition.resolve? (s : Schema) : Option Condition → Except BuildError (Option Cond)
  | none => return none
  | some c => c.resolve s

namespace Projection

mutual

/-- The expression that a derived column stands for. Of an aggregate the filter is resolved first,
then the argument, then the window; of an operation the left side, the operator, the right side. -/
def resolve (s : Schema) : Projection → Except BuildError Expr
  | column name => return .column (← s.resolveColumn name)
  | param name => return .param (← s.resolveParam name)
  | call fn args => return .call fn (← resolveAll s args)
  | cast p type => do
    let e ← resolve s p
    let type ← Vocabulary.castTypes.resolve type
    return .cast e type
  | binary left op right => do
    let l ← resolve s left
    let o ← Vocabulary.operators.resolve op
    if o.isMembership then
      throw
        (.invalidCondition
          ("operator '" ++ Text.trim op ++ "' cannot be used in an expression"))
    let r ← resolve s right
    return .binary l o r
  | aggregate fn arg filter window => do
    let filter ← Condition.resolve? s filter
    let arg ← resolve? s arg
    let window ← WindowSpec.resolve? s window
    return .aggregate fn arg filter window
  | case branches otherwise => do
    let bs ← resolveBranches s branches
    if bs.isEmpty then
      throw (.invalidCondition "CASE needs at least one WHEN branch")
    let otherwise ← resolve? s otherwise
    return .case bs otherwise
  | ranking fn window => return .ranking fn (← window.resolve s)

/-- The expressions of a list of derived columns. -/
def resolveAll (s : Schema) : List Projection → Except BuildError (List Expr)
  | [] => return []
  | p :: ps => do
    let e ← resolve s p
    let es ← resolveAll s ps
    return e :: es

/-- A derived column that may be absent, resolved. -/
def resolve? (s : Schema) : Option Projection → Except BuildError (Option Expr)
  | none => return none
  | some p => return some (← resolve s p)

/-- The branches of a CASE, each of which needs a condition that says something. -/
def resolveBranches (s : Schema) :
    List (Condition × Projection) → Except BuildError (List (Cond × Expr))
  | [] => return []
  | (c, p) :: rest => do
    let c ← c.resolve s
    match c with
    | none => throw (.invalidCondition "CASE branch with an empty condition")
    | some c =>
      let e ← resolve s p
      let bs ← resolveBranches s rest
      return (c, e) :: bs

end

end Projection

end CheckedSql
