/-
Where a statement uses its parameters: each occurrence by its name, in the order of the clauses.
The tokens of a statement hold these occurrences and no others, in this order.
-/
import CheckedSql.Proofs.Statement.Parts

namespace CheckedSql

open Sql (Token paramsOf)

/-! ## Occurrences -/

mutual

/-- The parameters of a condition. A comparison that takes NULL for equal uses its parameter
twice. -/
def Cond.uses : Cond → List String
  | .compare _ _ p => [p.name]
  | .compareColumns _ _ _ | .null _ _ => []
  | .nullSafeEq _ p => [p.name, p.name]
  | .between _ low high _ => [low.name, high.name]
  | .aggregate _ _ _ p => [p.name]
  | .group _ members => Cond.usesAll members

/-- The parameters of a list of conditions. -/
def Cond.usesAll : List Cond → List String
  | [] => []
  | c :: cs => c.uses ++ Cond.usesAll cs

end

mutual

/-- The parameters of an expression. -/
def Expr.uses : Expr → List String
  | .column _ => []
  | .param p => [p.name]
  | .call _ args => Expr.usesAll args
  | .cast e _ => e.uses
  | .binary left _ right => left.uses ++ right.uses
  | .aggregate _ arg filter window =>
    Expr.uses? arg ++ (filter.map Cond.uses).getD [] ++ Window.uses? window
  | .case branches otherwise => Expr.branchUses branches ++ Expr.uses? otherwise
  | .ranking _ window => window.uses

/-- The parameters of a list of expressions. -/
def Expr.usesAll : List Expr → List String
  | [] => []
  | e :: es => e.uses ++ Expr.usesAll es

/-- The parameters of an expression that may be absent. -/
def Expr.uses? : Option Expr → List String
  | none => []
  | some e => e.uses

/-- The parameters of the branches of a CASE. -/
def Expr.branchUses : List (Cond × Expr) → List String
  | [] => []
  | (c, e) :: rest => c.uses ++ e.uses ++ Expr.branchUses rest

/-- The parameters of a window. -/
def Window.uses : Window → List String
  | .mk _ orderBy => OrderItem.usesAll orderBy

/-- The parameters of a window that may be absent. -/
def Window.uses? : Option Window → List String
  | none => []
  | some w => w.uses

/-- The parameters of a key of an ordering. -/
def OrderItem.uses : OrderItem → List String
  | .mk expr _ _ => expr.uses

/-- The parameters of an ordering. -/
def OrderItem.usesAll : List OrderItem → List String
  | [] => []
  | o :: os => o.uses ++ OrderItem.usesAll os

end

/-- The parameter of a bound that has one. -/
def Bound.uses : Option Bound → List String
  | some (.param p) => [p.name]
  | _ => []

/-- The parameters of a SELECT: select list, WHERE, HAVING, ORDER BY, LIMIT, OFFSET. -/
def SelectStatement.uses (s : SelectStatement) : List String :=
  s.items.flatMap (·.expr.uses) ++ Cond.usesAll s.conditions ++ Cond.usesAll s.having
    ++ OrderItem.usesAll s.orderBy ++ Bound.uses s.limit ++ Bound.uses s.offset

/-- The parameters of an INSERT, row by row. -/
def InsertStatement.uses (s : InsertStatement) : List String :=
  s.rows.flatMap fun row => row.map (·.name)

/-- The parameters of an UPDATE: SET, then WHERE. -/
def UpdateStatement.uses (s : UpdateStatement) : List String :=
  s.assignments.map (·.2.name) ++ Cond.usesAll s.conditions

/-- The parameters of a DELETE. -/
def DeleteStatement.uses (s : DeleteStatement) : List String :=
  Cond.usesAll s.conditions

/-- The parameters of a compound statement: those of its operands, named apart by their positions,
then those of the ordering and the bounds of the whole. -/
def CompoundStatement.uses (s : CompoundStatement) : List String :=
  (s.operands.mapIdx fun i operand => operand.uses.map (ParamName.inOperand i)).flatten
    ++ OrderItem.usesAll s.orderBy ++ Bound.uses s.limit ++ Bound.uses s.offset

/-- The parameters of a statement, each as often as it occurs. -/
def Statement.uses : Statement → List String
  | .select s => s.uses
  | .insert s => s.uses
  | .update s => s.uses
  | .delete s => s.uses
  | .compound s => s.uses

theorem Cond.usesAll_eq_flatMap (cs : List Cond) : Cond.usesAll cs = cs.flatMap Cond.uses :=
  eq_flatMap_of_cons rfl (fun _ _ => rfl) cs

theorem OrderItem.usesAll_eq_flatMap (os : List OrderItem) :
    OrderItem.usesAll os = os.flatMap OrderItem.uses :=
  eq_flatMap_of_cons rfl (fun _ _ => rfl) os

/-! ## Occurrences in conditions and expressions -/

@[simp]
theorem paramsOf_column (c : Column) (ts : Tokens) : paramsOf (c.token :: ts) = paramsOf ts :=
  rfl

@[simp]
theorem paramsOf_paramToken (p : Param) (ts : Tokens) :
    paramsOf (p.token :: ts) = p.name :: paramsOf ts :=
  rfl

@[simp]
theorem paramsOf_columnTokens (cs : List Column) : paramsOf (columnTokens cs) = [] := by
  simp [columnTokens, Function.comp_def]

@[simp]
theorem paramsOf_operator (op : Operator) : paramsOf (op.tokens : Tokens) = [] := by
  cases op <;> rfl

@[simp]
theorem paramsOf_comparisonTokens (op : Operator) (p : Param) :
    paramsOf (comparisonTokens op p) = [p.name] := by
  unfold comparisonTokens
  split <;> simp

@[simp]
theorem paramsOf_aggregateTokens (fn : AggregateFn) (arg : Option Tokens) :
    paramsOf (aggregateTokens fn arg) = (arg.map paramsOf).getD [] := by
  unfold aggregateTokens
  cases arg with
  | none => rfl
  | some ts => by_cases h : fn = .countDistinct <;> simp [h]

mutual

@[simp]
theorem Cond.paramsOf_tokens : ∀ c : Cond, paramsOf c.tokens = c.uses
  | .compare _ _ _ => by simp [Cond.tokens, Cond.uses]
  | .compareColumns _ _ _ => by simp [Cond.tokens, Cond.uses]
  | .null _ _ => by simp [Cond.tokens, Cond.uses]
  | .nullSafeEq _ _ => by simp [Cond.tokens, Cond.uses]
  | .between _ _ _ _ => by simp [Cond.tokens, Cond.uses]
  | .aggregate _ column _ _ => by
    cases column <;> simp [Cond.tokens, Cond.uses]
  | .group junction members => by
    have hsep : paramsOf ([.keyword junction.keyword] : Tokens) = [] := by simp
    rw [Cond.tokens, Sql.paramsOf_parenthesized, Sql.paramsOf_intercalate hsep,
      Cond.paramsOf_tokensEach members, Cond.uses]

theorem Cond.paramsOf_tokensEach :
    ∀ cs : List Cond, ((Cond.tokensEach cs).map paramsOf).flatten = Cond.usesAll cs
  | [] => rfl
  | c :: cs => by
    simp [Cond.tokensEach, Cond.usesAll, c.paramsOf_tokens, Cond.paramsOf_tokensEach cs]

end

@[simp]
theorem paramsOf_conjunctionTokens (cs : List Cond) :
    paramsOf (conjunctionTokens cs) = Cond.usesAll cs := by
  have hsep : paramsOf ([.keyword .AND] : Tokens) = [] := by simp
  rw [conjunctionTokens, Sql.paramsOf_intercalate hsep, Cond.paramsOf_tokensEach]

mutual

@[simp]
theorem Expr.paramsOf_tokens : ∀ e : Expr, paramsOf e.tokens = e.uses
  | .column _ => by simp [Expr.tokens, Expr.uses]
  | .param _ => by simp [Expr.tokens, Expr.uses]
  | .call _ args => by
    simp [Expr.tokens, Expr.uses, Expr.paramsOf_tokensEach args]
  | .cast e _ => by simp [Expr.tokens, Expr.uses, e.paramsOf_tokens]
  | .binary left _ right => by
    simp [Expr.tokens, Expr.uses, left.paramsOf_tokens, right.paramsOf_tokens]
  | .aggregate _ arg filter window => by
    have hw := Window.paramsOf_tokens? window
    have harg := Expr.paramsOf_tokens? arg
    cases filter <;> simp [Expr.tokens, Expr.uses, hw, harg]
  | .case branches otherwise => by
    have hb := Expr.paramsOf_branchTokens branches
    have he := Expr.paramsOf_tokens? otherwise
    rw [Expr.tokens]
    cases h : Expr.tokens? otherwise <;> rw [h] at he <;> simp [Expr.uses, hb, ← he]
  | .ranking _ window => by simp [Expr.tokens, Expr.uses, window.paramsOf_tokens]

theorem Expr.paramsOf_tokensEach :
    ∀ es : List Expr, ((Expr.tokensEach es).map paramsOf).flatten = Expr.usesAll es
  | [] => rfl
  | e :: es => by
    simp [Expr.tokensEach, Expr.usesAll, e.paramsOf_tokens, Expr.paramsOf_tokensEach es]

theorem Expr.paramsOf_tokens? :
    ∀ e : Option Expr, ((Expr.tokens? e).map paramsOf).getD [] = Expr.uses? e
  | none => rfl
  | some e => e.paramsOf_tokens

theorem Expr.paramsOf_branchTokens :
    ∀ branches : List (Cond × Expr), paramsOf (Expr.branchTokens branches) = Expr.branchUses branches
  | [] => rfl
  | (c, e) :: rest => by
    simp [Expr.branchTokens, Expr.branchUses, e.paramsOf_tokens, Expr.paramsOf_branchTokens rest]

theorem Window.paramsOf_tokens : ∀ w : Window, paramsOf w.tokens = w.uses
  | .mk partitionBy orderBy => by
    have ho := OrderItem.paramsOf_tokensEach orderBy
    cases partitionBy <;> cases orderBy <;> simp [Window.tokens, Window.uses, OrderItem.usesAll, ho]

theorem Window.paramsOf_tokens? : ∀ w : Option Window, paramsOf (Window.tokens? w) = Window.uses? w
  | none => rfl
  | some w => w.paramsOf_tokens

theorem OrderItem.paramsOf_tokens : ∀ o : OrderItem, paramsOf o.tokens = o.uses
  | .mk expr _ nulls => by
    cases nulls <;> simp [OrderItem.tokens, OrderItem.uses, expr.paramsOf_tokens]

theorem OrderItem.paramsOf_tokensEach :
    ∀ os : List OrderItem, ((OrderItem.tokensEach os).map paramsOf).flatten = OrderItem.usesAll os
  | [] => rfl
  | o :: os => by
    simp [OrderItem.tokensEach, OrderItem.usesAll, o.paramsOf_tokens,
      OrderItem.paramsOf_tokensEach os]

end

/-! ## Occurrences in statements -/

/-- The parameters of a list of parts, each written in the same way. -/
theorem paramsOf_each {α : Type} (write : α → Tokens) (parts : List α) :
    paramsOf (Sql.commaSeparated (parts.map write)) = parts.flatMap fun a => paramsOf (write a) := by
  rw [Sql.paramsOf_commaSeparated, List.map_map, List.flatMap_def]
  rfl

@[simp]
theorem paramsOf_whereTokens (cs : List Cond) : paramsOf (whereTokens cs) = Cond.usesAll cs := by
  cases cs <;> simp [whereTokens, Cond.usesAll]

@[simp]
theorem paramsOf_havingTokens (cs : List Cond) : paramsOf (havingTokens cs) = Cond.usesAll cs := by
  cases cs <;> simp [havingTokens, Cond.usesAll]

@[simp]
theorem paramsOf_groupByTokens (cs : List Column) : paramsOf (groupByTokens cs) = [] := by
  cases cs <;> simp [groupByTokens]

@[simp]
theorem paramsOf_returningTokens (cs : List Column) : paramsOf (returningTokens cs) = [] := by
  cases cs <;> simp [returningTokens]

@[simp]
theorem Conflict.paramsOf_tokens (c : Conflict) : paramsOf c.tokens = [] := by
  have htarget : paramsOf (if c.target.isEmpty then []
      else Sql.parenthesized (columnTokens c.target)) = [] := by
    split <;> simp
  unfold tokens
  rw [Sql.paramsOf_append, Sql.paramsOf_append, htarget]
  cases c with
  | skip target => rfl
  | overwrite target columns => simp

@[simp]
theorem paramsOf_tailTokens (orderBy : List OrderItem) (limit offset : Option Bound) :
    paramsOf (tailTokens orderBy limit offset) =
      OrderItem.usesAll orderBy ++ Bound.uses limit ++ Bound.uses offset := by
  have horder : paramsOf (orderByTokens orderBy) = OrderItem.usesAll orderBy := by
    cases orderBy with
    | nil => rfl
    | cons o os => simp [orderByTokens, OrderItem.paramsOf_tokensEach]
  have hbound (k : Sql.Keyword) (b : Option Bound) : paramsOf (boundTokens k b) = Bound.uses b := by
    rcases b with _ | b | p <;> rfl
  simp [tailTokens, horder, hbound]

theorem SelectItem.paramsOf_tokens (i : SelectItem) : paramsOf i.tokens = i.expr.uses := by
  obtain ⟨e, _ | name⟩ := i <;> simp [SelectItem.tokens]

theorem SelectStatement.paramsOf_tokens (s : SelectStatement) : paramsOf s.tokens = s.uses := by
  have hitems : paramsOf (if s.items.isEmpty then [.symbol .star]
      else Sql.commaSeparated (s.items.map SelectItem.tokens)) = s.items.flatMap (·.expr.uses) := by
    cases s.items with
    | nil => rfl
    | cons i is =>
      show paramsOf (Sql.commaSeparated ((i :: is).map SelectItem.tokens)) = _
      rw [paramsOf_each]
      simp only [SelectItem.paramsOf_tokens]
  have hdistinct : paramsOf (if s.distinct then [.keyword .DISTINCT] else [] : Tokens) = [] := by
    cases s.distinct <;> rfl
  unfold tokens uses
  simp only [List.cons_append, Sql.paramsOf_keyword, Sql.paramsOf_append, hdistinct, hitems,
    paramsOf_whereTokens, paramsOf_groupByTokens, paramsOf_havingTokens, paramsOf_tailTokens]
  cases s.lock <;> simp

theorem InsertStatement.paramsOf_tokens (s : InsertStatement) : paramsOf s.tokens = s.uses := by
  have hrow (row : List Param) :
      paramsOf (Sql.parenthesized (Sql.commaSeparated (row.map fun p => [p.token]))) =
        row.map (·.name) := by
    rw [Sql.paramsOf_parenthesized, paramsOf_each]
    exact List.map_eq_flatMap.symm
  have hrows : paramsOf (Sql.commaSeparated (s.rows.map fun row =>
      Sql.parenthesized (Sql.commaSeparated (row.map fun p => [p.token])))) = s.uses := by
    rw [paramsOf_each, uses]
    exact congrArg (List.flatMap · s.rows) (funext hrow)
  unfold tokens
  cases h : s.conflict <;> simp [hrows]

theorem UpdateStatement.paramsOf_tokens (s : UpdateStatement) : paramsOf s.tokens = s.uses := by
  have hassign : paramsOf (Sql.commaSeparated
      (s.assignments.map fun a => [a.1.token, .symbol .eq, a.2.token])) =
        s.assignments.map (·.2.name) := by
    rw [paramsOf_each]
    exact List.map_eq_flatMap.symm
  simp [tokens, uses, hassign]

theorem DeleteStatement.paramsOf_tokens (s : DeleteStatement) : paramsOf s.tokens = s.uses := by
  simp [tokens, uses]

theorem paramsOf_operandTokens (index : Nat) (s : SelectStatement) :
    paramsOf (operandTokens index s) = s.uses.map (ParamName.inOperand index) := by
  rw [operandTokens, Sql.paramsOf_parenthesized, Sql.paramsOf_map, s.paramsOf_tokens]

/-- The operands from one on, each named apart by its own position. -/
theorem paramsOf_restTokens (index : Nat) (rest : List (SetOp × SelectStatement)) :
    paramsOf (restTokens index rest) =
      ((rest.map (·.2)).mapIdx fun i operand =>
        operand.uses.map (ParamName.inOperand (index + i))).flatten := by
  induction rest generalizing index with
  | nil => rfl
  | cons x rest ih =>
    obtain ⟨op, s⟩ := x
    rw [restTokens, Sql.paramsOf_append, Sql.paramsOf_append, Sql.paramsOf_keywords, ih,
      paramsOf_operandTokens, List.map_cons, List.mapIdx_cons, List.flatten_cons, List.nil_append]
    simp only [Nat.add_right_comm, Nat.add_assoc, Nat.add_zero]

theorem CompoundStatement.paramsOf_tokens (s : CompoundStatement) :
    paramsOf s.tokens = s.uses := by
  rw [tokens, uses, operands, Sql.paramsOf_append, Sql.paramsOf_append, paramsOf_operandTokens,
    paramsOf_restTokens, paramsOf_tailTokens, List.mapIdx_cons, List.flatten_cons]
  simp only [List.append_assoc, Nat.add_comm]

/-- The parameters among the tokens of a statement are its uses of parameters, in order. -/
theorem Statement.paramsOf_tokens (s : Statement) : paramsOf s.tokens = s.uses := by
  cases s with
  | select s => exact s.paramsOf_tokens
  | insert s => exact s.paramsOf_tokens
  | update s => exact s.paramsOf_tokens
  | delete s => exact s.paramsOf_tokens
  | compound s => exact s.paramsOf_tokens

end CheckedSql
