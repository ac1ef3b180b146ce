/-
How statements are written: the tokens of each, with parameters still named. Writing cannot fail;
what must not be written is another module's concern. The operands of a compound statement name
their parameters apart, by the operand's position.
-/
import CheckedSql.Params
import CheckedSql.Statement.Basic

namespace CheckedSql

open Sql (Token Keyword Symbol keywords parenthesized commaSeparated)

/-- The tokens of statements, with parameters by name. -/
abbrev Tokens := List (Token String)

/-- A column as a quoted identifier. -/
def Column.token (c : Column) : Token String :=
  .identifier c.name

/-- A parameter by its name. -/
def Param.token (p : Param) : Token String :=
  .param p.name

/-- A list of columns. -/
def columnTokens (cs : List Column) : Tokens :=
  commaSeparated (cs.map fun c => [c.token])

/-- A comparison with a parameter, from the operator on. Membership is comparison with any, or with
all, elements of the parameter's array. -/
def comparisonTokens (op : Operator) (p : Param) : Tokens :=
  match op with
  | .isIn => [.symbol .eq, .call .ANY, p.token, .symbol .closeParen]
  | .notIn => [.symbol .otherThan, .call .ALL, p.token, .symbol .closeParen]
  | _ => op.tokens ++ [p.token]

/-- A call of an aggregate function. Whole rows are written as a star. -/
def aggregateTokens (fn : AggregateFn) (arg : Option Tokens) : Tokens :=
  let inner :=
    match arg with
    | none => [.symbol .star]
    | some ts => if fn = .countDistinct then .keyword .DISTINCT :: ts else ts
  .call fn.keyword :: inner ++ [.symbol .closeParen]

/-! ## Conditions -/

mutual

/-- A condition as tokens. -/
def Cond.tokens : Cond → Tokens
  | .compare column op param => column.token :: comparisonTokens op param
  | .compareColumns left op right => left.token :: op.tokens ++ [right.token]
  | .null column negated =>
    column.token :: keywords (if negated then [.IS, .NOT, .NULL] else [.IS, .NULL])
  | .nullSafeEq column param =>
    parenthesized
      ([column.token, .symbol .eq, param.token, .keyword .OR]
        ++ parenthesized
          ([column.token] ++ keywords [.IS, .NULL, .AND] ++ [param.token]
            ++ keywords [.IS, .NULL]))
  | .between column low high negated =>
    column.token :: keywords (if negated then [.NOT, .BETWEEN] else [.BETWEEN])
      ++ [low.token, .keyword .AND, high.token]
  | .aggregate fn column op param =>
    aggregateTokens fn (column.map fun c => [c.token]) ++ comparisonTokens op param
  | .group junction members =>
    parenthesized ([.keyword junction.keyword].intercalate (Cond.tokensEach members))

/-- Each condition of a list as tokens. -/
def Cond.tokensEach : List Cond → List Tokens
  | [] => []
  | c :: cs => c.tokens :: Cond.tokensEach cs

end

/-- Conditions that must all hold. -/
def conjunctionTokens (cs : List Cond) : Tokens :=
  [.keyword .AND].intercalate (Cond.tokensEach cs)

/-! ## Expressions -/

mutual

/-- An expression as tokens. -/
def Expr.tokens : Expr → Tokens
  | .column c => [c.token]
  | .param p => [p.token]
  | .call fn args =>
    .call fn.keyword :: commaSeparated (Expr.tokensEach args) ++ [.symbol .closeParen]
  | .cast e type =>
    .call .CAST :: e.tokens ++ .keyword .AS :: keywords type.keywords ++ [.symbol .closeParen]
  | .binary left op right => parenthesized (left.tokens ++ op.tokens ++ right.tokens)
  | .aggregate fn arg filter window =>
    aggregateTokens fn (Expr.tokens? arg)
      ++ (match filter with
        | none => []
        | some c => .keyword .FILTER :: parenthesized (.keyword .WHERE :: c.tokens))
      ++ Window.tokens? window
  | .case branches otherwise =>
    .keyword .CASE :: Expr.branchTokens branches
      ++ (match Expr.tokens? otherwise with
        | none => []
        | some ts => .keyword .ELSE :: ts)
      ++ [.keyword .END]
  | .ranking fn window => [.call fn.keyword, .symbol .closeParen] ++ window.tokens

/-- Each expression of a list as tokens. -/
def Expr.tokensEach : List Expr → List Tokens
  | [] => []
  | e :: es => e.tokens :: Expr.tokensEach es

/-- An expression that may be absent. -/
def Expr.tokens? : Option Expr → Option Tokens
  | none => none
  | some e => some e.tokens

/-- The branches of a CASE. -/
def Expr.branchTokens : List (Cond × Expr) → Tokens
  | [] => []
  | (c, e) :: rest =>
    .keyword .WHEN :: c.tokens ++ .keyword .THEN :: e.tokens ++ Expr.branchTokens rest

/-- A window as tokens. -/
def Window.tokens : Window → Tokens
  | .mk partitionBy orderBy =>
    .keyword .OVER :: parenthesized
      ((if partitionBy.isEmpty then []
        else keywords [.PARTITION, .BY] ++ columnTokens partitionBy)
        ++ (if orderBy.isEmpty then []
          else keywords [.ORDER, .BY] ++ commaSeparated (OrderItem.tokensEach orderBy)))

/-- A window that may be absent. -/
def Window.tokens? : Option Window → Tokens
  | none => []
  | some w => w.tokens

/-- A key of an ordering as tokens. -/
def OrderItem.tokens : OrderItem → Tokens
  | .mk expr direction nulls =>
    expr.tokens ++ .keyword direction.keyword
      :: (match nulls with
        | none => []
        | some n => keywords [.NULLS, n.keyword])

/-- Each key of an ordering as tokens. -/
def OrderItem.tokensEach : List OrderItem → List Tokens
  | [] => []
  | o :: os => o.tokens :: OrderItem.tokensEach os

end

/-! ## Clauses -/

/-- The WHERE clause; no clause without conditions. -/
def whereTokens (cs : List Cond) : Tokens :=
  if cs.isEmpty then [] else .keyword .WHERE :: conjunctionTokens cs

/-- The HAVING clause; no clause without conditions. -/
def havingTokens (cs : List Cond) : Tokens :=
  if cs.isEmpty then [] else .keyword .HAVING :: conjunctionTokens cs

/-- The GROUP BY clause; no clause without columns. -/
def groupByTokens (cs : List Column) : Tokens :=
  if cs.isEmpty then [] else keywords [.GROUP, .BY] ++ columnTokens cs

/-- The ORDER BY clause; no clause without keys. -/
def orderByTokens (os : List OrderItem) : Tokens :=
  if os.isEmpty then []
  else keywords [.ORDER, .BY] ++ commaSeparated (OrderItem.tokensEach os)

/-- A number of rows as a token. -/
def Bound.token : Bound → Token String
  | .literal n => .number n
  | .param p => p.token

/-- A bound after its word. -/
def boundTokens (k : Keyword) : Option Bound → Tokens
  | none => []
  | some b => [.keyword k, b.token]

/-- The ordering and the bounds of a result. -/
def tailTokens (orderBy : List OrderItem) (limit offset : Option Bound) : Tokens :=
  orderByTokens orderBy ++ boundTokens .LIMIT limit ++ boundTokens .OFFSET offset

/-- The RETURNING clause; no clause without columns. -/
def returningTokens (cs : List Column) : Tokens :=
  if cs.isEmpty then [] else .keyword .RETURNING :: columnTokens cs

/-- An output column as tokens. -/
def SelectItem.tokens (i : SelectItem) : Tokens :=
  i.expr.tokens
    ++ (match i.outputName with
      | none => []
      | some name => [.keyword .AS, .identifier name])

/-! ## Statements -/

/-- A SELECT as tokens. -/
def SelectStatement.tokens (s : SelectStatement) : Tokens :=
  .keyword .SELECT
    :: (if s.distinct then [.keyword .DISTINCT] else [])
    ++ (if s.items.isEmpty then [.symbol .star]
      else commaSeparated (s.items.map SelectItem.tokens))
    ++ [.keyword .FROM, .identifier s.table]
    ++ whereTokens s.conditions
    ++ groupByTokens s.groupBy
    ++ havingTokens s.having
    ++ tailTokens s.orderBy s.limit s.offset
    ++ (match s.lock with
      | none => []
      | some l => keywords l.keywords)

/-- A conflict clause as tokens. An overwritten column takes the value of the new row. -/
def Conflict.tokens (c : Conflict) : Tokens :=
  keywords [.ON, .CONFLICT]
    ++ (if c.target.isEmpty then [] else parenthesized (columnTokens c.target))
    ++ .keyword .DO
    :: (match c with
      | .skip _ => [.keyword .NOTHING]
      | .overwrite _ columns =>
        keywords [.UPDATE, .SET]
          ++ commaSeparated (columns.map fun c =>
            [c.token, .symbol .eq, .keyword .EXCLUDED, .symbol .dot, c.token]))

/-- An INSERT as tokens. -/
def InsertStatement.tokens (s : InsertStatement) : Tokens :=
  keywords [.INSERT, .INTO] ++ .identifier s.table :: parenthesized (columnTokens s.columns)
    ++ .keyword .VALUES
    :: commaSeparated (s.rows.map fun row =>
      parenthesized (commaSeparated (row.map fun p => [p.token])))
    ++ (match s.conflict with
      | none => []
      | some c => c.tokens)
    ++ returningTokens s.returning

/-- An UPDATE as tokens. -/
def UpdateStatement.tokens (s : UpdateStatement) : Tokens :=
  [.keyword .UPDATE, .identifier s.table, .keyword .SET]
    ++ commaSeparated (s.assignments.map fun a => [a.1.token, .symbol .eq, a.2.token])
    ++ whereTokens s.conditions
    ++ returningTokens s.returning

/-- A DELETE as tokens. -/
def DeleteStatement.tokens (s : DeleteStatement) : Tokens :=
  keywords [.DELETE, .FROM] ++ .identifier s.table :: whereTokens s.conditions

/-- An operand of a compound: in parentheses, its parameters named apart from all others. -/
def operandTokens (index : Nat) (s : SelectStatement) : Tokens :=
  parenthesized (s.tokens.map (Token.map (ParamName.inOperand index)))

/-- The operands after the first, each behind its set operation; the first of them is operand
`index`. -/
def restTokens (index : Nat) : List (SetOp × SelectStatement) → Tokens
  | [] => []
  | (op, s) :: rest =>
    keywords op.keywords ++ operandTokens index s ++ restTokens (index + 1) rest

/-- A compound statement as tokens: only operands are put in parentheses. -/
def CompoundStatement.tokens (s : CompoundStatement) : Tokens :=
  operandTokens 0 s.first ++ restTokens 1 s.rest ++ tailTokens s.orderBy s.limit s.offset

/-- A statement as tokens. -/
def Statement.tokens : Statement → Tokens
  | .select s => s.tokens
  | .insert s => s.tokens
  | .update s => s.tokens
  | .delete s => s.tokens
  | .compound s => s.tokens

end CheckedSql
