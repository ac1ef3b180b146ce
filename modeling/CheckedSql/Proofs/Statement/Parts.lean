/-
Statements by their parts: lists by their members, clauses that are written only if they have
members, and what comes after what in each kind of statement.
-/
import CheckedSql.Proofs.Sql.Tokens
import CheckedSql.Statement.Demand
import CheckedSql.Statement.Tokens

namespace CheckedSql

open Sql (Token clauseTokens)

/-! ## Lists of parts -/

theorem Cond.tokensEach_eq_map (cs : List Cond) : Cond.tokensEach cs = cs.map Cond.tokens := by
  induction cs with
  | nil => rfl
  | cons c cs ih => rw [Cond.tokensEach, ih, List.map_cons]

theorem Expr.tokensEach_eq_map (es : List Expr) : Expr.tokensEach es = es.map Expr.tokens := by
  induction es with
  | nil => rfl
  | cons e es ih => rw [Expr.tokensEach, ih, List.map_cons]

theorem OrderItem.tokensEach_eq_map (os : List OrderItem) :
    OrderItem.tokensEach os = os.map OrderItem.tokens := by
  induction os with
  | nil => rfl
  | cons o os ih => rw [OrderItem.tokensEach, ih, List.map_cons]

/-- What is gathered from a list member by member. -/
theorem eq_flatMap_of_cons {α γ : Type} {gather : List α → List γ} {f : α → List γ}
    (hnil : gather [] = []) (hcons : ∀ x xs, gather (x :: xs) = f x ++ gather xs) (xs : List α) :
    gather xs = xs.flatMap f := by
  induction xs with
  | nil => exact hnil
  | cons x xs ih => rw [hcons, ih, List.flatMap_cons]

theorem Cond.demandsAll_eq_flatMap (cs : List Cond) :
    Cond.demandsAll cs = cs.flatMap Cond.demands :=
  eq_flatMap_of_cons rfl (fun _ _ => rfl) cs

theorem Expr.demandsAll_eq_flatMap (es : List Expr) :
    Expr.demandsAll es = es.flatMap Expr.demands :=
  eq_flatMap_of_cons rfl (fun _ _ => rfl) es

theorem OrderItem.demandsAll_eq_flatMap (os : List OrderItem) :
    OrderItem.demandsAll os = os.flatMap OrderItem.demands :=
  eq_flatMap_of_cons rfl (fun _ _ => rfl) os

/-! ## Expressions -/

theorem Expr.branchTokens_eq_flatMap (branches : List (Cond × Expr)) :
    Expr.branchTokens branches =
      branches.flatMap fun b => .keyword .WHEN :: (b.1.tokens ++ .keyword .THEN :: b.2.tokens) := by
  induction branches with
  | nil => rfl
  | cons b branches ih =>
    obtain ⟨c, e⟩ := b
    rw [Expr.branchTokens, ih, List.flatMap_cons]
    simp

/-- The filter of an aggregate as tokens. -/
def filterTokens : Option Cond → Tokens
  | none => []
  | some c => .keyword .FILTER :: Sql.parenthesized (.keyword .WHERE :: c.tokens)

theorem Expr.tokens?_eq_map (e : Option Expr) : Expr.tokens? e = e.map Expr.tokens := by
  cases e <;> rfl

theorem Expr.tokens_aggregate (fn : AggregateFn) (arg : Option Expr) (filter : Option Cond)
    (window : Option Window) :
    (Expr.aggregate fn arg filter window).tokens =
      aggregateTokens fn (arg.map Expr.tokens) ++ filterTokens filter ++ Window.tokens? window := by
  simp only [Expr.tokens, Expr.tokens?_eq_map]
  cases filter <;> rfl

/-! ## Clauses -/

theorem Window.tokens_eq (partitionBy : List Column) (orderBy : List OrderItem) :
    (Window.mk partitionBy orderBy).tokens =
      .keyword .OVER :: Sql.parenthesized
        (clauseTokens [.keyword .PARTITION, .keyword .BY] (.symbol .comma) (fun c => [c.token])
            partitionBy
          ++ clauseTokens [.keyword .ORDER, .keyword .BY] (.symbol .comma) OrderItem.tokens
            orderBy) := by
  rw [Window.tokens, OrderItem.tokensEach_eq_map]
  rfl

theorem whereTokens_eq (cs : List Cond) :
    whereTokens cs = clauseTokens [.keyword .WHERE] (.keyword .AND) Cond.tokens cs := by
  rw [whereTokens, conjunctionTokens, Cond.tokensEach_eq_map]
  rfl

theorem havingTokens_eq (cs : List Cond) :
    havingTokens cs = clauseTokens [.keyword .HAVING] (.keyword .AND) Cond.tokens cs := by
  rw [havingTokens, conjunctionTokens, Cond.tokensEach_eq_map]
  rfl

theorem groupByTokens_eq (cs : List Column) :
    groupByTokens cs =
      clauseTokens [.keyword .GROUP, .keyword .BY] (.symbol .comma) (fun c => [c.token]) cs :=
  rfl

theorem orderByTokens_eq (os : List OrderItem) :
    orderByTokens os =
      clauseTokens [.keyword .ORDER, .keyword .BY] (.symbol .comma) OrderItem.tokens os := by
  rw [orderByTokens, OrderItem.tokensEach_eq_map]
  rfl

theorem returningTokens_eq (cs : List Column) :
    returningTokens cs =
      clauseTokens [.keyword .RETURNING] (.symbol .comma) (fun c => [c.token]) cs :=
  rfl

/-! ## Statements -/

/-- The lock of a SELECT as tokens. -/
def lockTokens : Option RowLock → Tokens
  | none => []
  | some l => Sql.keywords l.keywords

/-- What is selected, and from which table, as tokens. -/
def sourceTokens (distinct : Bool) (items : List SelectItem) (table : String) : Tokens :=
  [Token.keyword .SELECT] ++ ((if distinct then [Token.keyword .DISTINCT] else [])
    ++ ((if items.isEmpty then [.symbol .star]
        else Sql.commaSeparated (items.map SelectItem.tokens))
      ++ ([Token.keyword .FROM] ++ [Token.identifier table])))

/-- A SELECT from left to right. -/
theorem SelectStatement.tokens_eq (s : SelectStatement) :
    s.tokens = sourceTokens s.distinct s.items s.table
      ++ ((whereTokens s.conditions ++ (groupByTokens s.groupBy ++ havingTokens s.having))
        ++ (tailTokens s.orderBy s.limit s.offset ++ (lockTokens s.lock ++ []))) := by
  unfold tokens sourceTokens lockTokens
  cases s.lock <;> simp

/-- The target of a conflict clause as tokens. -/
def targetTokens (target : List Column) : Tokens :=
  if target.isEmpty then [] else Sql.parenthesized (columnTokens target)

/-- What is done on a conflict, as tokens from what follows DO on. -/
def Conflict.actionTokens : Conflict → Tokens
  | .skip _ => [.keyword .NOTHING]
  | .overwrite _ columns =>
    [Token.keyword .UPDATE, .keyword .SET] ++ [Token.symbol .comma].intercalate (columns.map fun c =>
      [c.token, .symbol .eq, .keyword .EXCLUDED, .symbol .dot, c.token])

/-- A conflict clause from left to right. -/
theorem Conflict.tokens_eq (c : Conflict) :
    c.tokens = [Token.keyword .ON, .keyword .CONFLICT]
      ++ (targetTokens c.target ++ ([Token.keyword .DO] ++ c.actionTokens)) := by
  cases c <;> simp [tokens, actionTokens, targetTokens, Sql.keywords, Sql.commaSeparated]

/-- The conflict clause of an INSERT as tokens. -/
def conflictTokens : Option Conflict → Tokens
  | none => []
  | some c => c.tokens

/-- An INSERT from left to right. -/
theorem InsertStatement.tokens_eq (s : InsertStatement) :
    s.tokens = [Token.keyword .INSERT, .keyword .INTO] ++ (Token.identifier s.table
      :: (Sql.parenthesized (Sql.commaSeparated (s.columns.map fun c => [c.token]))
        ++ ([Token.keyword .VALUES] ++ ([Token.symbol .comma].intercalate (s.rows.map fun row =>
            Sql.parenthesized (Sql.commaSeparated (row.map fun p => [p.token])))
          ++ (conflictTokens s.conflict ++ (returningTokens s.returning ++ [])))))) := by
  unfold tokens conflictTokens
  cases s.conflict <;> simp [Sql.keywords, columnTokens, Sql.commaSeparated]

/-- An UPDATE from left to right. -/
theorem UpdateStatement.tokens_eq (s : UpdateStatement) :
    s.tokens = [Token.keyword .UPDATE] ++ (Token.identifier s.table :: ([Token.keyword .SET]
      ++ ([Token.symbol .comma].intercalate (s.assignments.map fun a =>
          [a.1.token, .symbol .eq, a.2.token])
        ++ (whereTokens s.conditions ++ (returningTokens s.returning ++ []))))) := by
  simp [tokens, Sql.commaSeparated]

end CheckedSql
