/-
Conditions as callers write them, by names and tokens, and their resolution against a schema. The
first part that does not resolve, from left to right, is the error. A group without any member
left is no condition at all, and a group of one is that one.
-/
import CheckedSql.Statement.Basic
import CheckedSql.Vocabulary

namespace CheckedSql

/-- A condition by names. -/
inductive Condition
  | compare (column op param : String)
  | compareColumns (left op right : String)
  | null (column : String) (negated : Bool)
  | between (column low high : String) (negated : Bool)
  | group (junction : Junction) (members : List Condition)
  deriving Inhabited

namespace Condition

mutual

/-- The condition with its names resolved; nothing when it has no part that says anything. Within
a part the column comes before the operator, and that before the parameter or second column. -/
def resolve (s : Schema) : Condition → Except BuildError (Option Cond)
  | compare column op param => do
    let column ← s.resolveColumn column
    let op ← Vocabulary.resolvePredicate op
    let param ← s.resolveParam param
    return some (.compare column op param)
  | compareColumns left op right => do
    let left ← s.resolveColumn left
    let op ← Vocabulary.resolvePredicate op
    if op.isMembership then
      throw (.invalidCondition ("'" ++ op.text ++ "' needs a parameter on the right-hand side"))
    let right ← s.resolveColumn right
    return some (.compareColumns left op right)
  | null column negated => do
    let column ← s.resolveColumn column
    return some (.null column negated)
  | between column low high negated => do
    let column ← s.resolveColumn column
    let low ← s.resolveParam low
    let high ← s.resolveParam high
    return some (.between column low high negated)
  | group junction members => do
    let cs ← resolveAll s members
    return Cond.ofMembers junction cs

/-- The conditions that are left of a list, in order. -/
def resolveAll (s : Schema) : List Condition → Except BuildError (List Cond)
  | [] => return []
  | m :: ms => do
    let c ← resolve s m
    let cs ← resolveAll s ms
    return c.toList ++ cs

end

end Condition

end CheckedSql
