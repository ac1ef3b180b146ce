/-
Statements as data: conditions, expressions, and the five kinds of statement. All names in them
have been resolved; nothing here decides whether a statement can be written.
-/
import CheckedSql.Schema
import CheckedSql.Sql.Clause
import CheckedSql.Sql.Operator

namespace CheckedSql

/-- A condition on a row, or in HAVING on a group of rows. -/
inductive Cond
  | compare (column : Column) (op : Operator) (param : Param)
  | compareColumns (left : Column) (op : Operator) (right : Column)
  | null (column : Column) (negated : Bool)
  /-- Equal, or both NULL. -/
  | nullSafeEq (column : Column) (param : Param)
  | between (column : Column) (low high : Param) (negated : Bool)
  /-- An aggregate of a column, or of whole rows, compared with a parameter. -/
  | aggregate (fn : AggregateFn) (column : Option Column) (op : Operator) (param : Param)
  | group (junction : Junction) (members : List Cond)

instance : Inhabited Cond := ⟨.group .and []⟩

/-- Conditions joined to one: none of an empty list, a single one as it is. -/
def Cond.ofMembers (junction : Junction) : List Cond → Option Cond
  | [] => none
  | [c] => some c
  | cs => some (.group junction cs)

/-- The conjunction of a list of conditions, if there are any. -/
def Cond.all (cs : List Cond) : Option Cond :=
  Cond.ofMembers .and cs

mutual

/-- A scalar expression. -/
inductive Expr
  | column (c : Column)
  | param (p : Param)
  | call (fn : ScalarFn) (args : List Expr)
  | cast (e : Expr) (type : CastType)
  | binary (left : Expr) (op : Operator) (right : Expr)
  | aggregate (fn : AggregateFn) (arg : Option Expr) (filter : Option Cond)
    (window : Option Window)
  | case (branches : List (Cond × Expr)) (otherwise : Option Expr)
  | ranking (fn : WindowFn) (window : Window)

/-- The rows a window function looks at, and their order. -/
inductive Window
  | mk (partitionBy : List Column) (orderBy : List OrderItem)

/-- One key of an ordering. -/
inductive OrderItem
  | mk (expr : Expr) (direction : Direction) (nulls : Option NullsOrder)

end

instance : Inhabited Expr := ⟨.param ⟨""⟩⟩

instance : Inhabited Window := ⟨.mk [] []⟩

instance : Inhabited OrderItem := ⟨.mk default .asc none⟩

/-- One output column: an expression and the name it is given. -/
structure SelectItem where
  expr : Expr
  outputName : Option String

/-- A column under its own name. -/
def SelectItem.ofColumn (c : Column) : SelectItem :=
  ⟨.column c, none⟩

/-- Every column of a schema under its own name. -/
def Schema.allItems (s : Schema) : List SelectItem :=
  s.allColumns.map SelectItem.ofColumn

/-- A number of rows, given or supplied as a parameter. -/
inductive Bound
  | literal (n : Nat)
  | param (p : Param)

/-- A SELECT. Without items it selects every column. -/
structure SelectStatement where
  table : String
  distinct : Bool := false
  items : List SelectItem := []
  conditions : List Cond := []
  groupBy : List Column := []
  having : List Cond := []
  orderBy : List OrderItem := []
  limit : Option Bound := none
  offset : Option Bound := none
  lock : Option RowLock := none

/-- What an INSERT does with a row that conflicts with a stored one. -/
inductive Conflict
  /-- Leaves the stored row; without a target, on any conflict. -/
  | skip (target : List Column)
  /-- Takes over the listed columns of the new row. -/
  | overwrite (target : List Column) (columns : List Column)

/-- The columns whose equality is the conflict. -/
def Conflict.target : Conflict → List Column
  | .skip target | .overwrite target _ => target

/-- An INSERT of rows of parameters. -/
structure InsertStatement where
  table : String
  columns : List Column
  rows : List (List Param)
  conflict : Option Conflict := none
  returning : List Column := []

/-- An UPDATE. -/
structure UpdateStatement where
  table : String
  assignments : List (Column × Param)
  conditions : List Cond := []
  returning : List Column := []

/-- A DELETE. -/
structure DeleteStatement where
  table : String
  conditions : List Cond := []

/-- Queries joined by set operations, with an ordering and bounds for the combined result. -/
structure CompoundStatement where
  first : SelectStatement
  rest : List (SetOp × SelectStatement)
  orderBy : List OrderItem := []
  limit : Option Bound := none
  offset : Option Bound := none

/-- The operands, in order. -/
def CompoundStatement.operands (c : CompoundStatement) : List SelectStatement :=
  c.first :: c.rest.map (·.2)

/-- A statement. -/
inductive Statement
  | select (s : SelectStatement)
  | insert (s : InsertStatement)
  | update (s : UpdateStatement)
  | delete (s : DeleteStatement)
  | compound (s : CompoundStatement)

end CheckedSql
