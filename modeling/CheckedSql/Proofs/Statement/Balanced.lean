/-
The tokens of a statement are balanced, so that what a compound statement puts in parentheses ends
where its parentheses do.
-/
import CheckedSql.Proofs.Sql.Brackets
import CheckedSql.Proofs.Statement.Parts

namespace CheckedSql

open Sql (Balanced Token)

/-! ## Lists of parts -/

namespace Sql.Balanced

variable {α π : Type} {write : α → List (Token π)} {xs : List α}

theorem commaSeparated_map (h : ∀ x ∈ xs, Balanced (write x)) :
    Balanced (Sql.commaSeparated (xs.map write)) := by
  refine commaSeparated ?_
  rintro _ hts
  obtain ⟨x, hx, rfl⟩ := List.mem_map.1 hts
  exact h x hx

theorem clauseTokens {lead : List (Token π)} {sep : Token π} (hlead : Balanced lead)
    (hsep : Balanced [sep]) (h : ∀ x ∈ xs, Balanced (write x)) :
    Balanced (Sql.clauseTokens lead sep write xs) := by
  unfold Sql.clauseTokens
  split
  · exact .nil
  · refine hlead.append (.intercalate hsep ?_)
    rintro _ hts
    obtain ⟨x, hx, rfl⟩ := List.mem_map.1 hts
    exact h x hx

end Sql.Balanced

/-! ## Conditions and expressions -/

theorem columnTokens_balanced (cs : List Column) : Balanced (columnTokens cs) :=
  .commaSeparated_map fun _ _ => .single rfl rfl

theorem Operator.tokens_balanced (op : Operator) : Balanced (op.tokens : Tokens) := by
  cases op with
  | notLike | notIlike | notIn => exact .cons rfl rfl (.single rfl rfl)
  | _ => exact .single rfl rfl

theorem comparisonTokens_balanced (op : Operator) (p : Param) :
    Balanced (comparisonTokens op p) := by
  have hop : Balanced (op.tokens ++ [p.token]) := op.tokens_balanced.append (.single rfl rfl)
  have hp : Balanced [p.token] := .single rfl rfl
  cases op with
  | isIn => exact .cons rfl rfl (.bracket (t := .call .ANY) rfl hp)
  | notIn => exact .cons rfl rfl (.bracket (t := .call .ALL) rfl hp)
  | _ => exact hop

theorem aggregateTokens_balanced (fn : AggregateFn) {arg : Option Tokens}
    (h : ∀ ts ∈ arg, Balanced ts) : Balanced (aggregateTokens fn arg) := by
  refine .bracket (t := .call fn.keyword) rfl ?_
  cases arg with
  | none => exact .single rfl rfl
  | some ts =>
    dsimp only
    split
    · exact .cons rfl rfl (h ts rfl)
    · exact h ts rfl

mutual

theorem Cond.tokens_balanced : ∀ c : Cond, Balanced c.tokens
  | .compare _ op param => .cons rfl rfl (comparisonTokens_balanced op param)
  | .compareColumns _ op _ => .cons rfl rfl (op.tokens_balanced.append (.single rfl rfl))
  | .null _ _ => .cons rfl rfl (.keywords _)
  | .nullSafeEq _ _ => by
    rw [Cond.tokens]
    refine .parenthesized (.append ?_ (.parenthesized ?_))
    · exact .cons rfl rfl (.cons rfl rfl (.cons rfl rfl (.single rfl rfl)))
    · exact ((Balanced.cons rfl rfl (.keywords _)).append (.single rfl rfl)).append (.keywords _)
  | .between _ _ _ _ => by
    rw [Cond.tokens]
    refine .append (.cons rfl rfl (.keywords _)) ?_
    exact .cons rfl rfl (.cons rfl rfl (.single rfl rfl))
  | .aggregate fn column op param => by
    rw [Cond.tokens]
    refine (aggregateTokens_balanced fn ?_).append (comparisonTokens_balanced op param)
    intro ts hts
    obtain ⟨c, -, rfl⟩ := Option.map_eq_some_iff.1 hts
    exact .single rfl rfl
  | .group _ members => by
    rw [Cond.tokens]
    exact .parenthesized (.intercalate (.single rfl rfl) (Cond.tokensEach_balanced members))

theorem Cond.tokensEach_balanced : ∀ cs : List Cond, ∀ ts ∈ Cond.tokensEach cs, Balanced ts
  | [], _, h => by cases h
  | c :: cs, ts, h => by
    rw [Cond.tokensEach] at h
    rcases List.mem_cons.1 h with rfl | h
    · exact c.tokens_balanced
    · exact Cond.tokensEach_balanced cs ts h

end

mutual

theorem Expr.tokens_balanced : ∀ e : Expr, Balanced e.tokens
  | .column _ => .single rfl rfl
  | .param _ => .single rfl rfl
  | .call fn args => by
    rw [Expr.tokens]
    exact .bracket rfl (.commaSeparated (Expr.tokensEach_balanced args))
  | .cast e type => by
    have inner : Balanced (e.tokens ++ .keyword .AS :: Sql.keywords type.keywords) :=
      e.tokens_balanced.append (.cons rfl rfl (.keywords _))
    rw [Expr.tokens]
    exact .bracket rfl inner
  | .binary left op right => by
    rw [Expr.tokens]
    exact .parenthesized
      ((left.tokens_balanced.append op.tokens_balanced).append right.tokens_balanced)
  | .aggregate fn arg filter window => by
    simp only [Expr.tokens]
    refine ((aggregateTokens_balanced fn (Expr.tokens?_balanced arg)).append ?_).append
      (Window.tokens?_balanced window)
    cases filter with
    | none => exact .nil
    | some c => exact .cons rfl rfl (.parenthesized (.cons rfl rfl c.tokens_balanced))
  | .case branches otherwise => by
    simp only [Expr.tokens]
    refine (Balanced.append (.cons rfl rfl (Expr.branchTokens_balanced branches)) ?_).append
      (.single rfl rfl)
    have h := Expr.tokens?_balanced otherwise
    cases hts : Expr.tokens? otherwise with
    | none => exact .nil
    | some ts => exact .cons rfl rfl (h ts hts)
  | .ranking fn window => by
    rw [Expr.tokens]
    exact (Balanced.bracket (t := .call fn.keyword) rfl .nil).append window.tokens_balanced

theorem Expr.tokensEach_balanced : ∀ es : List Expr, ∀ ts ∈ Expr.tokensEach es, Balanced ts
  | [], _, h => by cases h
  | e :: es, ts, h => by
    rw [Expr.tokensEach] at h
    rcases List.mem_cons.1 h with rfl | h
    · exact e.tokens_balanced
    · exact Expr.tokensEach_balanced es ts h

theorem Expr.tokens?_balanced : ∀ e : Option Expr, ∀ ts ∈ Expr.tokens? e, Balanced ts
  | none, _, h => by cases h
  | some e, ts, h => by
    rw [Expr.tokens?] at h
    cases h
    exact e.tokens_balanced

theorem Expr.branchTokens_balanced : ∀ bs : List (Cond × Expr), Balanced (Expr.branchTokens bs)
  | [] => .nil
  | (c, e) :: bs => by
    rw [Expr.branchTokens]
    exact ((Balanced.cons rfl rfl c.tokens_balanced).append (.cons rfl rfl e.tokens_balanced)).append
      (Expr.branchTokens_balanced bs)

theorem Window.tokens_balanced : ∀ w : Window, Balanced w.tokens
  | .mk partitionBy orderBy => by
    rw [Window.tokens]
    refine .cons rfl rfl (.parenthesized (.append ?_ ?_))
    · split
      · exact .nil
      · exact (Balanced.keywords _).append (columnTokens_balanced partitionBy)
    · split
      · exact .nil
      · exact (Balanced.keywords _).append (.commaSeparated (OrderItem.tokensEach_balanced orderBy))

theorem Window.tokens?_balanced : ∀ w : Option Window, Balanced (Window.tokens? w)
  | none => .nil
  | some w => w.tokens_balanced

theorem OrderItem.tokens_balanced : ∀ o : OrderItem, Balanced o.tokens
  | .mk expr direction nulls => by
    simp only [OrderItem.tokens]
    refine expr.tokens_balanced.append (.cons rfl rfl ?_)
    cases nulls with
    | none => exact .nil
    | some n => exact .keywords _

theorem OrderItem.tokensEach_balanced :
    ∀ os : List OrderItem, ∀ ts ∈ OrderItem.tokensEach os, Balanced ts
  | [], _, h => by cases h
  | o :: os, ts, h => by
    rw [OrderItem.tokensEach] at h
    rcases List.mem_cons.1 h with rfl | h
    · exact o.tokens_balanced
    · exact OrderItem.tokensEach_balanced os ts h

end

/-! ## A SELECT -/

theorem conditions_balanced (k : Sql.Keyword) (cs : List Cond) :
    Balanced (Sql.clauseTokens [.keyword k] (.keyword .AND) Cond.tokens cs) :=
  .clauseTokens (.single rfl rfl) (.single rfl rfl) fun c _ => c.tokens_balanced

theorem groupByTokens_balanced (cs : List Column) : Balanced (groupByTokens cs) :=
  .clauseTokens (.keywords [.GROUP, .BY]) (.single rfl rfl) fun _ _ => .single rfl rfl

theorem orderByTokens_balanced (os : List OrderItem) : Balanced (orderByTokens os) := by
  rw [orderByTokens_eq]
  exact .clauseTokens (.keywords [.ORDER, .BY]) (.single rfl rfl) fun o _ => o.tokens_balanced

theorem boundTokens_balanced (k : Sql.Keyword) (b : Option Bound) : Balanced (boundTokens k b) := by
  cases b with
  | none => exact .nil
  | some b =>
    cases b with
    | literal n => exact .cons rfl rfl (.single rfl rfl)
    | param p => exact .cons rfl rfl (.single rfl rfl)

theorem tailTokens_balanced (orderBy : List OrderItem) (limit offset : Option Bound) :
    Balanced (tailTokens orderBy limit offset) :=
  ((orderByTokens_balanced orderBy).append (boundTokens_balanced .LIMIT limit)).append
    (boundTokens_balanced .OFFSET offset)

theorem SelectItem.tokens_balanced (i : SelectItem) : Balanced i.tokens := by
  refine i.expr.tokens_balanced.append ?_
  cases i.outputName with
  | none => exact .nil
  | some name => exact .cons rfl rfl (.single rfl rfl)

theorem sourceTokens_balanced (distinct : Bool) (items : List SelectItem) (table : String) :
    Balanced (sourceTokens distinct items table) := by
  unfold sourceTokens
  refine .append (.single rfl rfl) (.append ?_ (.append ?_ ?_))
  · split
    · exact .single rfl rfl
    · exact .nil
  · split
    · exact .single rfl rfl
    · exact .commaSeparated_map fun i _ => i.tokens_balanced
  · exact .append (.single rfl rfl) (.single rfl rfl)

theorem whereTokens_balanced (cs : List Cond) : Balanced (whereTokens cs) := by
  rw [whereTokens_eq]
  exact conditions_balanced _ _

theorem SelectStatement.tokens_balanced (s : SelectStatement) : Balanced s.tokens := by
  have hlock : Balanced (lockTokens s.lock) := by
    cases s.lock with
    | none => exact .nil
    | some l => exact .keywords _
  have hrows : Balanced (whereTokens s.conditions
      ++ (groupByTokens s.groupBy ++ havingTokens s.having)) := by
    rw [havingTokens_eq]
    exact (whereTokens_balanced _).append
      ((groupByTokens_balanced _).append (conditions_balanced _ _))
  rw [s.tokens_eq]
  exact (sourceTokens_balanced _ _ _).append
    (hrows.append ((tailTokens_balanced _ _ _).append (hlock.append .nil)))

end CheckedSql
