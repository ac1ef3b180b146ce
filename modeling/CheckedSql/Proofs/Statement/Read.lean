/-
Readers for statements: from the tokens of a statement back to the statement. Readers of nested
parts get fuel, which the number of tokens bounds. Where two parts begin alike, the reader goes by
what follows: a column is followed by the test made of it, a call by its arguments, and what looks
like a group but is none is a comparison that takes NULL for equal.
-/
import CheckedSql.Proofs.Sql.Reader
import CheckedSql.Proofs.Statement.SetOperation

namespace CheckedSql

open Sql (Token Keyword Symbol Reader expect behind orNone oneOf many separated clause)

/-! ## Vocabularies -/

def Operator.all : List Operator :=
  [.eq, .ne, .gt, .ge, .lt, .le, .like, .notLike, .ilike, .notIlike, .isIn, .notIn, .matches,
    .imatches, .notMatches, .notImatches, .contains, .containedBy, .overlaps, .l2Distance,
    .innerProduct, .cosineDistance, .l1Distance, .add, .sub, .mul, .div, .mod]

def CastType.all : List CastType :=
  [.text, .smallInt, .integer, .bigInt, .numeric, .real, .doublePrecision, .boolean, .date,
    .timestamp, .timestampTz, .uuid, .jsonb]

def RowLock.all : List RowLock :=
  [.update, .noKeyUpdate, .share, .keyShare]

def ScalarFn.all : List ScalarFn :=
  [.upper, .lower, .trim, .length, .abs, .ceil, .floor, .round, .sqrt, .power]

def WindowFn.all : List WindowFn :=
  [.rowNumber, .rank, .denseRank]

/-- The aggregate functions with names of their own. -/
def AggregateFn.named : List AggregateFn :=
  [.count, .sum, .avg, .min, .max]

/-- A member of a vocabulary by its word. -/
def ofKeyword? {α : Type} (all : List α) (word : α → Keyword) (k : Keyword) : Option α :=
  all.find? (word · = k)

/-! ## Names and tests -/

def Column.read : Reader String Column
  | .identifier name :: ts => some (⟨name⟩, ts)
  | _ => none

def Param.read : Reader String Param
  | .param name :: ts => some (⟨name⟩, ts)
  | _ => none

/-- Something in a parenthesis that is already open. -/
def readClosed {α : Type} (p : Reader String α) : Reader String α := fun ts => do
  let (a, ts) ← p ts
  let ts ← expect [.symbol .closeParen] ts
  return (a, ts)

/-- A comparison with a parameter, from the operator on. -/
def readComparison : Reader String (Operator × Param)
  | .symbol .eq :: .call .ANY :: .param p :: .symbol .closeParen :: ts => some ((.isIn, ⟨p⟩), ts)
  | .symbol .otherThan :: .call .ALL :: .param p :: .symbol .closeParen :: ts =>
    some ((.notIn, ⟨p⟩), ts)
  | ts => do
    let (op, ts) ← oneOf Operator.all Operator.tokens ts
    let (p, ts) ← Param.read ts
    return ((op, p), ts)

/-- The bounds of BETWEEN. -/
def readBetween (column : Column) (negated : Bool) : Reader String Cond
  | .param low :: .keyword .AND :: .param high :: ts =>
    some (.between column ⟨low⟩ ⟨high⟩ negated, ts)
  | _ => none

/-- A condition on a column, from what follows the column on. -/
def readTest (column : Column) : Reader String Cond
  | .keyword .IS :: .keyword .NULL :: ts => some (.null column false, ts)
  | .keyword .IS :: .keyword .NOT :: .keyword .NULL :: ts => some (.null column true, ts)
  | .keyword .BETWEEN :: ts => readBetween column false ts
  | .keyword .NOT :: .keyword .BETWEEN :: ts => readBetween column true ts
  | ts =>
    match readComparison ts with
    | some ((op, p), us) => some (.compare column op p, us)
    | none => do
      let (op, us) ← oneOf Operator.all Operator.tokens ts
      let (right, us) ← Column.read us
      return (.compareColumns column op right, us)

/-- The argument of an aggregate function, from what follows the opening parenthesis on. -/
def readAggregate {α : Type} (arg : Reader String α) (k : Keyword) :
    Reader String (AggregateFn × Option α)
  | .symbol .star :: .symbol .closeParen :: ts =>
    (ofKeyword? AggregateFn.named AggregateFn.keyword k).map fun fn => ((fn, none), ts)
  | .keyword .DISTINCT :: ts =>
    if k = .COUNT then (readClosed arg ts).map fun r => ((.countDistinct, some r.1), r.2) else none
  | ts => do
    let fn ← ofKeyword? AggregateFn.named AggregateFn.keyword k
    let (a, ts) ← readClosed arg ts
    return ((fn, some a), ts)

/-! ## Conditions -/

/-- A group of at least two conditions, from what follows its opening parenthesis on. -/
def readGroup (p : Reader String Cond) : Reader String Cond := fun ts => do
  let (c, ts) ← p ts
  let (junction, _) ← oneOf [Junction.and, .or] (fun j => [.keyword j.keyword]) ts
  let (cs, ts) ← many (.keyword junction.keyword) p ts.length ts
  let ts ← expect [.symbol .closeParen] ts
  return (.group junction (c :: cs), ts)

/-- A comparison that takes NULL for equal, from what follows its opening parenthesis on. -/
def readNullSafeEq : Reader String Cond
  | .identifier column :: .symbol .eq :: .param p :: .keyword .OR :: .symbol .openParen
      :: .identifier _ :: .keyword .IS :: .keyword .NULL :: .keyword .AND :: .param _
      :: .keyword .IS :: .keyword .NULL :: .symbol .closeParen :: .symbol .closeParen :: ts =>
    some (.nullSafeEq ⟨column⟩ ⟨p⟩, ts)
  | _ => none

/-- A condition. -/
def Cond.read : (fuel : Nat) → Reader String Cond
  | 0, _ => none
  | _ + 1, .identifier name :: ts => readTest ⟨name⟩ ts
  | _ + 1, .call k :: ts => do
    let ((fn, column), ts) ← readAggregate Column.read k ts
    let ((op, p), ts) ← readComparison ts
    return (.aggregate fn column op p, ts)
  | fuel + 1, .symbol .openParen :: ts => readGroup (Cond.read fuel) ts <|> readNullSafeEq ts
  | _ + 1, _ => none

/-! ## Expressions -/

/-- A branch of a CASE, from what follows WHEN on. -/
def readBranch (cond : Reader String Cond) (value : Reader String Expr) :
    Reader String (Cond × Expr) := fun ts => do
  let (c, ts) ← cond ts
  let (e, ts) ← behind [.keyword .THEN] value ts
  return ((c, e), ts)

/-- The filter of an aggregate. -/
def readFilter (cond : Reader String Cond) : Reader String Cond :=
  behind [.keyword .FILTER, .symbol .openParen, .keyword .WHERE] (readClosed cond)

mutual

/-- An expression. -/
def Expr.read : (fuel : Nat) → Reader String Expr
  | 0, _ => none
  | _ + 1, .identifier name :: ts => some (.column ⟨name⟩, ts)
  | _ + 1, .param name :: ts => some (.param ⟨name⟩, ts)
  | fuel + 1, .symbol .openParen :: ts => do
    let (left, ts) ← Expr.read fuel ts
    let (op, ts) ← oneOf Operator.all Operator.tokens ts
    let (right, ts) ← readClosed (Expr.read fuel) ts
    return (.binary left op right, ts)
  | fuel + 1, .keyword .CASE :: ts => do
    let (branches, ts) ←
      many (.keyword .WHEN) (readBranch (Cond.read fuel) (Expr.read fuel)) ts.length ts
    let (otherwise, ts) ← orNone (behind [.keyword .ELSE] (Expr.read fuel)) ts
    let ts ← expect [.keyword .END] ts
    return (.case branches otherwise, ts)
  | fuel + 1, .call .CAST :: ts => do
    let (e, ts) ← Expr.read fuel ts
    let ts ← expect [.keyword .AS] ts
    let (type, ts) ← readClosed (oneOf CastType.all fun t => Sql.keywords t.keywords) ts
    return (.cast e type, ts)
  | fuel + 1, .call k :: ts =>
    match ofKeyword? ScalarFn.all ScalarFn.keyword k,
      ofKeyword? WindowFn.all WindowFn.keyword k with
    | some fn, _ => do
      let (args, ts) ← readClosed (separated (.symbol .comma) (Expr.read fuel)) ts
      return (.call fn args, ts)
    | none, some fn => do
      let (window, ts) ← behind [.symbol .closeParen] (Window.read fuel) ts
      return (.ranking fn window, ts)
    | none, none => do
      let ((fn, arg), ts) ← readAggregate (Expr.read fuel) k ts
      let (filter, ts) ← orNone (readFilter (Cond.read fuel)) ts
      let (window, ts) ← orNone (Window.read fuel) ts
      return (.aggregate fn arg filter window, ts)
  | _ + 1, _ => none

/-- A window. -/
def Window.read : (fuel : Nat) → Reader String Window
  | 0, _ => none
  | fuel + 1, ts => do
    let ts ← expect [.keyword .OVER, .symbol .openParen] ts
    let (partitionBy, ts) ←
      clause [.keyword .PARTITION, .keyword .BY] (.symbol .comma) Column.read ts
    let (orderBy, ts) ←
      readClosed (clause [.keyword .ORDER, .keyword .BY] (.symbol .comma) (OrderItem.read fuel)) ts
    return (.mk partitionBy orderBy, ts)

/-- A key of an ordering. -/
def OrderItem.read : (fuel : Nat) → Reader String OrderItem
  | 0, _ => none
  | fuel + 1, ts => do
    let (e, ts) ← Expr.read fuel ts
    let (direction, ts) ← oneOf [Direction.asc, .desc] (fun d => [.keyword d.keyword]) ts
    let (nulls, ts) ←
      orNone (oneOf [NullsOrder.first, .last] fun n => Sql.keywords [.NULLS, n.keyword]) ts
    return (.mk e direction nulls, ts)

end

/-! ## Clauses -/

/-- The name of a table. -/
def readTable : Reader String String
  | .identifier name :: ts => some (name, ts)
  | _ => none

/-- A number of rows. -/
def Bound.read : Reader String Bound
  | .number n :: ts => some (.literal n, ts)
  | .param name :: ts => some (.param ⟨name⟩, ts)
  | _ => none

/-- The ordering and the bounds of a result. -/
def readTail (fuel : Nat) :
    Reader String (List OrderItem × Option Bound × Option Bound) := fun ts => do
  let (orderBy, ts) ←
    clause [.keyword .ORDER, .keyword .BY] (.symbol .comma) (OrderItem.read fuel) ts
  let (limit, ts) ← orNone (behind [.keyword .LIMIT] Bound.read) ts
  let (offset, ts) ← orNone (behind [.keyword .OFFSET] Bound.read) ts
  return ((orderBy, limit, offset), ts)

/-- The name of an output column. -/
def readOutputName : Reader String String :=
  behind [.keyword .AS] readTable

/-- An output column. -/
def SelectItem.read (fuel : Nat) : Reader String SelectItem := fun ts => do
  let (e, ts) ← Expr.read fuel ts
  let (outputName, ts) ← orNone readOutputName ts
  return (⟨e, outputName⟩, ts)

/-- The output columns; none, if there is a star in their place. -/
def readItems (fuel : Nat) : Reader String (List SelectItem) := fun ts =>
  match expect [.symbol .star] ts with
  | some ts => some ([], ts)
  | none => separated (.symbol .comma) (SelectItem.read fuel) ts

/-- Whether a word comes next. -/
def readFlag (k : Keyword) : Reader String Bool := fun ts =>
  match expect [.keyword k] ts with
  | some ts => some (true, ts)
  | none => some (false, ts)

/-! ## Statements -/

/-- What is selected, and from which table. -/
def readSource (fuel : Nat) : Reader String (Bool × List SelectItem × String) := fun ts => do
  let (distinct, ts) ← behind [.keyword .SELECT] (readFlag .DISTINCT) ts
  let (items, ts) ← readItems fuel ts
  let (table, ts) ← behind [.keyword .FROM] readTable ts
  return ((distinct, items, table), ts)

/-- Which rows are selected, and how they are grouped. -/
def readRows (fuel : Nat) : Reader String (List Cond × List Column × List Cond) := fun ts => do
  let (conditions, ts) ← clause [.keyword .WHERE] (.keyword .AND) (Cond.read fuel) ts
  let (groupBy, ts) ← clause [.keyword .GROUP, .keyword .BY] (.symbol .comma) Column.read ts
  let (having, ts) ← clause [.keyword .HAVING] (.keyword .AND) (Cond.read fuel) ts
  return ((conditions, groupBy, having), ts)

/-- A SELECT. -/
def SelectStatement.read (fuel : Nat) : Reader String SelectStatement := fun ts => do
  let ((distinct, items, table), ts) ← readSource fuel ts
  let ((conditions, groupBy, having), ts) ← readRows fuel ts
  let ((orderBy, limit, offset), ts) ← readTail fuel ts
  let (lock, ts) ← orNone (oneOf RowLock.all fun l => Sql.keywords l.keywords) ts
  return ({ table, distinct, items, conditions, groupBy, having, orderBy, limit, offset, lock }, ts)

/-- A parenthesis with values in it. -/
def readTuple {α : Type} (p : Reader String α) : Reader String (List α) :=
  behind [.symbol .openParen] (readClosed (separated (.symbol .comma) p))

/-- A column that takes over the value of the new row. -/
def readOverwritten : Reader String Column
  | .identifier name :: .symbol .eq :: .keyword .EXCLUDED :: .symbol .dot :: .identifier _ :: ts =>
    some (⟨name⟩, ts)
  | _ => none

/-- What is done on a conflict about the target, from what follows DO on. -/
def readAction (target : List Column) : Reader String Conflict
  | .keyword .NOTHING :: ts => some (.skip target, ts)
  | .keyword .UPDATE :: .keyword .SET :: ts =>
    (separated (.symbol .comma) readOverwritten ts).map fun r => (.overwrite target r.1, r.2)
  | _ => none

/-- A conflict clause, from what follows its first words on. -/
def Conflict.read : Reader String Conflict := fun ts => do
  let (target, ts) ← orNone (readTuple Column.read) ts
  behind [.keyword .DO] (readAction (target.getD [])) ts

/-- The columns of RETURNING. -/
def readReturning : Reader String (List Column) :=
  clause [.keyword .RETURNING] (.symbol .comma) Column.read

/-- An INSERT. -/
def InsertStatement.read : Reader String InsertStatement := fun ts => do
  let (table, ts) ← behind [.keyword .INSERT, .keyword .INTO] readTable ts
  let (columns, ts) ← readTuple Column.read ts
  let ts ← expect [.keyword .VALUES] ts
  let (rows, ts) ← separated (.symbol .comma) (readTuple Param.read) ts
  let (conflict, ts) ← orNone (behind [.keyword .ON, .keyword .CONFLICT] Conflict.read) ts
  let (returning, ts) ← readReturning ts
  return ({ table, columns, rows, conflict, returning }, ts)

/-- A column and the parameter that is its new value. -/
def readAssignment : Reader String (Column × Param)
  | .identifier name :: .symbol .eq :: .param p :: ts => some ((⟨name⟩, ⟨p⟩), ts)
  | _ => none

/-- An UPDATE. -/
def UpdateStatement.read (fuel : Nat) : Reader String UpdateStatement := fun ts => do
  let (table, ts) ← behind [.keyword .UPDATE] readTable ts
  let ts ← expect [.keyword .SET] ts
  let (assignments, ts) ← separated (.symbol .comma) readAssignment ts
  let (conditions, ts) ← clause [.keyword .WHERE] (.keyword .AND) (Cond.read fuel) ts
  let (returning, ts) ← readReturning ts
  return ({ table, assignments, conditions, returning }, ts)

/-- A DELETE. -/
def DeleteStatement.read (fuel : Nat) : Reader String DeleteStatement := fun ts => do
  let (table, ts) ← behind [.keyword .DELETE, .keyword .FROM] readTable ts
  let (conditions, ts) ← clause [.keyword .WHERE] (.keyword .AND) (Cond.read fuel) ts
  return ({ table, conditions }, ts)

/-- A value that all the tokens are read as. -/
def readAll {α : Type} (p : Reader String α) (ts : Tokens) : Option α :=
  match p ts with
  | some (a, []) => some a
  | _ => none

/-- The parameter of an operand, under the name it has in the operand. -/
def ParamName.outOfOperand (index : Nat) (name : String) : String :=
  String.ofList (name.toList.drop (operandQualifier index).toList.length)

/-- The operand of some position, from its tokens in the compound statement. -/
def readOperand (fuel index : Nat) (ts : Tokens) : Option SelectStatement :=
  readAll (SelectStatement.read fuel) (ts.map (Token.map (ParamName.outOfOperand index)))

/-- The operands from some position on, each with its set operation. -/
def readOperands (fuel : Nat) :
    (index : Nat) → List (SetOp × Tokens) → Option (List (SetOp × SelectStatement))
  | _, [] => some []
  | index, (op, ts) :: rest => do
    let s ← readOperand fuel index ts
    let ss ← readOperands fuel (index + 1) rest
    return (op, s) :: ss

/-- A compound statement. -/
def CompoundStatement.read (fuel : Nat) : Reader String CompoundStatement := fun ts => do
  let (first, ts) ← SetOp.readOperand ts
  let (rest, ts) ← SetOp.readRest ts.length ts
  let first ← readOperand fuel 0 first
  let rest ← readOperands fuel 1 rest
  let ((orderBy, limit, offset), ts) ← readTail fuel ts
  return ({ first, rest, orderBy, limit, offset }, ts)

/-- A statement, from all its tokens. -/
def Statement.read (ts : Tokens) : Option Statement :=
  match ts with
  | .keyword .SELECT :: _ => (readAll (SelectStatement.read ts.length) ts).map .select
  | .keyword .INSERT :: _ => (readAll InsertStatement.read ts).map .insert
  | .keyword .UPDATE :: _ => (readAll (UpdateStatement.read ts.length) ts).map .update
  | .keyword .DELETE :: _ => (readAll (DeleteStatement.read ts.length) ts).map .delete
  | _ => (readAll (CompoundStatement.read ts.length) ts).map .compound

/-! ## What is sent -/

namespace Rendered

/-- The tokens of a text, with the parameters by their names. -/
def tokens (o : Rendered) : Option Tokens :=
  (Sql.scan o.sql).map (List.map (Token.map fun k => (o.params[k - 1]?).getD ""))

/-- The statement that a text and the names sent with it were made of. -/
def decode (o : Rendered) : Option Statement :=
  o.tokens.bind Statement.read

end Rendered

end CheckedSql
