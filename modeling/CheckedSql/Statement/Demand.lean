/-
What a statement demands of the one who writes it, in the order of the statement's clauses: the
features its dialect must have, and the flaws that no dialect makes good. The first demand that is
not met is the reason for refusing the statement.
-/
import CheckedSql.Statement.Basic

namespace CheckedSql

/-- A feature that a dialect may lack. -/
inductive Feature
  | rowLocking
  | onConflict
  | insertReturning
  | updateReturning
  | nullsOrdering
  | aggregateFilter
  | windowFunctions
  | vectorOperator (op : Operator)
  | arrayParam (op : Operator)

/-- The feature in words. -/
def Feature.text : Feature → String
  | .rowLocking => "row locking"
  | .onConflict => "ON CONFLICT"
  | .insertReturning => "INSERT .. RETURNING"
  | .updateReturning => "UPDATE .. RETURNING"
  | .nullsOrdering => "NULLS FIRST/LAST"
  | .aggregateFilter => "aggregate FILTER"
  | .windowFunctions => "window functions"
  | .vectorOperator op => "operator " ++ op.text
  | .arrayParam op => op.text ++ " with an array parameter"

/-- A part of a statement that makes no sense in any dialect. -/
inductive Flaw
  | noRows
  | rowWidth (row values columns : Nat)
  | emptyOverwrite
  | noAssignments
  | lockedOperand
  | emptyGroup
  | columnMembership (op : Operator)
  | scalarMembership (op : Operator)
  | missingArgument (fn : AggregateFn)
  | noBranches

/-- The flaw in words. -/
def Flaw.text : Flaw → String
  | .noRows => "INSERT without any VALUES row"
  | .rowWidth row values columns =>
    "VALUES row " ++ toString row ++ " has " ++ toString values ++ " values for "
      ++ toString columns ++ " columns"
  | .emptyOverwrite => "ON CONFLICT DO UPDATE needs a target and at least one column"
  | .noAssignments => "UPDATE without any SET column"
  | .lockedOperand => "row locking is not allowed inside a compound query"
  | .emptyGroup => "empty condition group"
  | .columnMembership op => op.text ++ " cannot compare two columns"
  | .scalarMembership op => op.text ++ " is not a scalar operator"
  | .missingArgument fn => fn.keyword.text ++ " needs an argument"
  | .noBranches => "CASE without any WHEN branch"

/-- One demand. -/
inductive Demand
  | feature (f : Feature)
  | flaw (f : Flaw)

/-- The features an operator needs. -/
def Operator.demands (op : Operator) : List Demand :=
  (if op.isVector then [.feature (.vectorOperator op)] else [])
    ++ (if op.isMembership then [.feature (.arrayParam op)] else [])

/-- Only whole rows can be counted without an argument. -/
def AggregateFn.bareDemands (fn : AggregateFn) : List Demand :=
  if fn = .count then [] else [.flaw (.missingArgument fn)]

/-! ## Conditions and expressions -/

mutual

/-- The demands of a condition. -/
def Cond.demands : Cond → List Demand
  | .compare _ op _ => op.demands
  | .compareColumns _ op _ =>
    if op.isMembership then [.flaw (.columnMembership op)] else op.demands
  | .null _ _ | .nullSafeEq _ _ | .between _ _ _ _ => []
  | .aggregate fn column op _ =>
    (if column.isSome then [] else fn.bareDemands) ++ op.demands
  | .group _ members =>
    if members.isEmpty then [.flaw .emptyGroup] else Cond.demandsAll members

/-- The demands of a list of conditions. -/
def Cond.demandsAll : List Cond → List Demand
  | [] => []
  | c :: cs => c.demands ++ Cond.demandsAll cs

end

mutual

/-- The demands of an expression. -/
def Expr.demands : Expr → List Demand
  | .column _ | .param _ => []
  | .call _ args => Expr.demandsAll args
  | .cast e _ => e.demands
  | .binary left op right =>
    if op.isMembership then [.flaw (.scalarMembership op)]
    else op.demands ++ left.demands ++ right.demands
  | .aggregate fn arg filter window =>
    (match arg with
      | none => fn.bareDemands
      | some e => e.demands)
      ++ (match filter with
        | none => []
        | some c => .feature .aggregateFilter :: c.demands)
      ++ Window.demands? window
  | .case branches otherwise =>
    if branches.isEmpty then [.flaw .noBranches]
    else Expr.branchDemands branches ++ Expr.demands? otherwise
  | .ranking _ window => window.demands

/-- The demands of a list of expressions. -/
def Expr.demandsAll : List Expr → List Demand
  | [] => []
  | e :: es => e.demands ++ Expr.demandsAll es

/-- The demands of an expression that may be absent. -/
def Expr.demands? : Option Expr → List Demand
  | none => []
  | some e => e.demands

/-- The demands of the branches of a CASE. -/
def Expr.branchDemands : List (Cond × Expr) → List Demand
  | [] => []
  | (c, e) :: rest => c.demands ++ e.demands ++ Expr.branchDemands rest

/-- The demands of a window. -/
def Window.demands : Window → List Demand
  | .mk _ orderBy => .feature .windowFunctions :: OrderItem.demandsAll orderBy

/-- The demands of a window that may be absent. -/
def Window.demands? : Option Window → List Demand
  | none => []
  | some w => w.demands

/-- The demands of a key of an ordering. -/
def OrderItem.demands : OrderItem → List Demand
  | .mk expr _ nulls => expr.demands ++ (if nulls.isSome then [.feature .nullsOrdering] else [])

/-- The demands of an ordering. -/
def OrderItem.demandsAll : List OrderItem → List Demand
  | [] => []
  | o :: os => o.demands ++ OrderItem.demandsAll os

end

/-! ## Statements -/

/-- The demands of a SELECT. -/
def SelectStatement.demands (s : SelectStatement) : List Demand :=
  s.items.flatMap (·.expr.demands)
    ++ Cond.demandsAll s.conditions
    ++ Cond.demandsAll s.having
    ++ OrderItem.demandsAll s.orderBy
    ++ (if s.lock.isSome then [.feature .rowLocking] else [])

/-- The demands of rows of values for a number of columns, from row `index` on. -/
def rowDemands (columns index : Nat) : List (List Param) → List Demand
  | [] => []
  | row :: rows =>
    (if row.length = columns then [] else [.flaw (.rowWidth index row.length columns)])
      ++ rowDemands columns (index + 1) rows

/-- The demands of a conflict clause. -/
def Conflict.demands (c : Conflict) : List Demand :=
  .feature .onConflict
    :: (match c with
      | .skip _ => []
      | .overwrite target columns =>
        if target.isEmpty || columns.isEmpty then [.flaw .emptyOverwrite] else [])

/-- The demands of an INSERT. -/
def InsertStatement.demands (s : InsertStatement) : List Demand :=
  (if s.rows.isEmpty then [.flaw .noRows] else [])
    ++ rowDemands s.columns.length 0 s.rows
    ++ (match s.conflict with
      | none => []
      | some c => c.demands)
    ++ (if s.returning.isEmpty then [] else [.feature .insertReturning])

/-- The demands of an UPDATE. -/
def UpdateStatement.demands (s : UpdateStatement) : List Demand :=
  (if s.assignments.isEmpty then [.flaw .noAssignments] else [])
    ++ Cond.demandsAll s.conditions
    ++ (if s.returning.isEmpty then [] else [.feature .updateReturning])

/-- The demands of a DELETE. -/
def DeleteStatement.demands (s : DeleteStatement) : List Demand :=
  Cond.demandsAll s.conditions

/-- The demands of an operand of a compound: its rows must not be locked. -/
def SelectStatement.operandDemands (s : SelectStatement) : List Demand :=
  (if s.lock.isSome then [.flaw .lockedOperand] else []) ++ s.demands

/-- The demands of a compound statement. -/
def CompoundStatement.demands (s : CompoundStatement) : List Demand :=
  s.operands.flatMap (·.operandDemands) ++ OrderItem.demandsAll s.orderBy

/-- The demands of a statement. -/
def Statement.demands : Statement → List Demand
  | .select s => s.demands
  | .insert s => s.demands
  | .update s => s.demands
  | .delete s => s.demands
  | .compound s => s.demands

end CheckedSql
