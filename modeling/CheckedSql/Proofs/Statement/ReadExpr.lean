/-
Conditions and expressions are read back from their tokens. The induction is on the fuel: a part
has fewer tokens than what it is part of.
-/
import CheckedSql.Proofs.Statement.Read
import CheckedSql.Proofs.Statement.Readable

namespace CheckedSql

open Sql (Token Keyword Reader Reads Avoids expect behind orNone oneOf many separated clause
  clauseTokens)

/-! ## Vocabularies -/

theorem oneOf_operator (op : Operator) (rest : Tokens) :
    oneOf Operator.all Operator.tokens (op.tokens ++ rest) = some (op, rest) := by
  cases op <;> rfl

theorem oneOf_castType (type : CastType) (rest : Tokens) :
    oneOf CastType.all (fun t => Sql.keywords t.keywords) (Sql.keywords type.keywords ++ rest) =
      some (type, rest) := by
  cases type <;> rfl

theorem oneOf_lock (lock : RowLock) (rest : Tokens) :
    oneOf RowLock.all (fun l => Sql.keywords l.keywords) (Sql.keywords lock.keywords ++ rest) =
      some (lock, rest) := by
  cases lock <;> rfl

theorem oneOf_direction (d : Direction) (rest : Tokens) :
    oneOf [Direction.asc, .desc] (fun d => [.keyword d.keyword]) (.keyword d.keyword :: rest) =
      some (d, rest) := by
  cases d <;> rfl

theorem oneOf_nulls (n : NullsOrder) (rest : Tokens) :
    oneOf [NullsOrder.first, .last] (fun n => Sql.keywords [.NULLS, n.keyword])
      (Sql.keywords [.NULLS, n.keyword] ++ rest) = some (n, rest) := by
  cases n <;> rfl

theorem oneOf_junction (j : Junction) (rest : Tokens) :
    oneOf [Junction.and, .or] (fun j => [.keyword j.keyword]) (.keyword j.keyword :: rest) =
      some (j, rest) := by
  cases j <;> rfl

theorem ofKeyword?_scalarFn (fn : ScalarFn) :
    ofKeyword? ScalarFn.all ScalarFn.keyword fn.keyword = some fn := by
  cases fn <;> rfl

theorem ofKeyword?_windowFn (fn : WindowFn) :
    ofKeyword? ScalarFn.all ScalarFn.keyword fn.keyword = none ∧
      ofKeyword? WindowFn.all WindowFn.keyword fn.keyword = some fn := by
  cases fn <;> exact ⟨rfl, rfl⟩

theorem ofKeyword?_aggregateFn (fn : AggregateFn) :
    ofKeyword? ScalarFn.all ScalarFn.keyword fn.keyword = none ∧
      ofKeyword? WindowFn.all WindowFn.keyword fn.keyword = none := by
  cases fn <;> exact ⟨rfl, rfl⟩

theorem ofKeyword?_named {fn : AggregateFn} (h : fn ≠ .countDistinct) :
    ofKeyword? AggregateFn.named AggregateFn.keyword fn.keyword = some fn := by
  cases fn with
  | countDistinct => exact absurd rfl h
  | _ => rfl

/-! ## Tests and arguments -/

theorem readClosed_append {α : Type} {p : Reader String α} {ts rest : Tokens} {a : α}
    (h : p ts = some (a, .symbol .closeParen :: rest)) : readClosed p ts = some (a, rest) := by
  unfold readClosed
  rw [h]
  rfl

theorem readComparison_tokens (op : Operator) (p : Param) (rest : Tokens) :
    readComparison (comparisonTokens op p ++ rest) = some ((op, p), rest) := by
  cases op <;> rfl

theorem readTest_compare (column : Column) (op : Operator) (p : Param) (rest : Tokens) :
    readTest column (comparisonTokens op p ++ rest) = some (.compare column op p, rest) := by
  cases op <;> rfl

theorem readTest_compareColumns (left : Column) (op : Operator) (right : Column) (rest : Tokens) :
    readTest left (op.tokens ++ right.token :: rest) =
      some (.compareColumns left op right, rest) := by
  cases op <;> rfl

theorem readTest_null (column : Column) (negated : Bool) (rest : Tokens) :
    readTest column
        (Sql.keywords (if negated then [.IS, .NOT, .NULL] else [.IS, .NULL]) ++ rest) =
      some (.null column negated, rest) := by
  cases negated <;> rfl

theorem readTest_between (column : Column) (low high : Param) (negated : Bool) (rest : Tokens) :
    readTest column
        (Sql.keywords (if negated then [.NOT, .BETWEEN] else [.BETWEEN])
          ++ (low.token :: .keyword .AND :: high.token :: rest)) =
      some (.between column low high negated, rest) := by
  cases negated <;> rfl

/-- A call of an aggregate function is read back, if its argument is and begins neither like whole
rows nor like distinct ones. -/
theorem readAggregate_tokens {α : Type} {p : Reader String α} {fn : AggregateFn} {arg : Option α}
    (write : α → Tokens)
    (hread : ∀ a ∈ arg, ∀ rest,
      p (write a ++ .symbol .closeParen :: rest) = some (a, .symbol .closeParen :: rest))
    (hstar : ∀ ts, p (.symbol .star :: ts) = none)
    (hdistinct : ∀ ts, p (.keyword .DISTINCT :: ts) = none)
    (hbare : arg = none → fn ≠ .countDistinct) (rest : Tokens) :
    ∃ body, aggregateTokens fn (arg.map write) ++ rest = .call fn.keyword :: body ∧
      readAggregate p fn.keyword body = some ((fn, arg), rest) := by
  cases arg with
  | none =>
    refine ⟨_, rfl, ?_⟩
    show (ofKeyword? AggregateFn.named AggregateFn.keyword fn.keyword).map _ = _
    rw [ofKeyword?_named (hbare rfl)]
    rfl
  | some a =>
    have hclosed := readClosed_append (hread a rfl rest)
    by_cases hfn : fn = .countDistinct
    · subst hfn
      refine ⟨.keyword .DISTINCT :: (write a ++ .symbol .closeParen :: rest), ?_, ?_⟩
      · simp [aggregateTokens]
      · show (readClosed p (write a ++ .symbol .closeParen :: rest)).map _ = _
        rw [hclosed]
        rfl
    · refine ⟨write a ++ .symbol .closeParen :: rest, ?_, ?_⟩
      · simp [aggregateTokens, hfn]
      · have hsome := hread a rfl rest
        -- the argument begins neither with a star nor with DISTINCT: no argument is read there
        unfold readAggregate
        split
        · rename_i heq
          rw [heq, hstar] at hsome
          cases hsome
        · rename_i heq
          rw [heq, hdistinct] at hsome
          cases hsome
        · rw [ofKeyword?_named hfn]
          simp only [Option.bind_eq_bind, Option.bind_some, hclosed]
          rfl

/-! ## Conditions -/

theorem length_le_intercalate {sep ts : Tokens} {tss : List Tokens} (h : ts ∈ tss) :
    ts.length ≤ (sep.intercalate tss).length := by
  induction tss with
  | nil => cases h
  | cons us tss ih =>
    cases tss with
    | nil =>
      have hts : ts = us := List.mem_singleton.1 h
      exact Nat.le_of_eq (by rw [hts, List.intercalate_singleton])
    | cons vs tss =>
      rw [List.intercalate_cons_cons, List.length_append, List.length_append]
      rcases List.mem_cons.1 h with rfl | h
      · omega
      · have := ih h
        omega

theorem length_le_clauseTokens {α : Type} (lead : Tokens) (sep : Token String) (write : α → Tokens)
    {x : α} {xs : List α} (h : x ∈ xs) :
    (write x).length ≤ (clauseTokens lead sep write xs).length := by
  have hne : xs.isEmpty = false := List.isEmpty_eq_false_iff.2 (List.ne_nil_of_mem h)
  have hle : (write x).length ≤ ([sep].intercalate (xs.map write)).length :=
    length_le_intercalate (List.mem_map_of_mem h)
  rw [clauseTokens, hne, if_neg (by decide), List.length_append]
  omega

/-- A group of at least two conditions, of which each is read back. -/
theorem readGroup_tokens {p : Reader String Cond} {junction : Junction} {members : List Cond}
    (h : 2 ≤ members.length) (hp : ∀ c ∈ members, Reads p c.tokens c []) (rest : Tokens) :
    readGroup p ([.keyword junction.keyword].intercalate (Cond.tokensEach members)
      ++ .symbol .closeParen :: rest) = some (.group junction members, rest) := by
  obtain ⟨c, d, cs, rfl⟩ : ∃ c d cs, members = c :: d :: cs := by
    match members, h with
    | c :: d :: cs, _ => exact ⟨c, d, cs, rfl⟩
  have hclose : Avoids [.keyword junction.keyword] (.symbol .closeParen :: rest) :=
    .cons (by simp) _
  have hmany := Sql.many_reads (fun x hx => hp x (.tail _ hx)) List.not_mem_nil _ hclose
  have htokens : [.keyword junction.keyword].intercalate (Cond.tokensEach (c :: d :: cs))
        ++ .symbol .closeParen :: rest =
      c.tokens ++ (((d :: cs).flatMap fun c => .keyword junction.keyword :: c.tokens)
        ++ .symbol .closeParen :: rest) := by
    rw [Cond.tokensEach_eq_map, List.map_cons, Sql.intercalate_eq_flatMap, List.flatMap_map,
      List.append_assoc]
  have hfirst := hp c List.mem_cons_self _
    (Avoids.flatMap List.not_mem_nil hclose Cond.tokens (d :: cs))
  -- the junction is known by its first word, before the second member
  obtain ⟨us, hjunction⟩ : ∃ us, oneOf [Junction.and, .or] (fun j => [.keyword j.keyword])
      (((d :: cs).flatMap fun c => .keyword junction.keyword :: c.tokens)
        ++ .symbol .closeParen :: rest) = some (junction, us) :=
    ⟨_, oneOf_junction junction _⟩
  unfold readGroup
  rw [htokens, hfirst]
  simp only [Option.bind_eq_bind, Option.bind_some, hjunction, hmany]
  rfl

/-- What is written for a comparison that takes NULL for equal is no group: it would have to go on
with a condition where a parameter stands. -/
theorem read_nullSafeEq (fuel : Nat) (column : Column) (p : Param) (rest : Tokens) :
    Cond.read (fuel + 1) ((Cond.nullSafeEq column p).tokens ++ rest) =
      some (.nullSafeEq column p, rest) := by
  match fuel with
  | 0 => rfl
  | 1 => rfl
  | 2 => rfl
  | fuel + 3 => rfl

theorem Cond.reads_tokens (fuel : Nat) (c : Cond) (hfuel : c.tokens.length ≤ fuel)
    (hc : c.Readable) : Reads (Cond.read fuel) c.tokens c [] := by
  induction fuel generalizing c with
  | zero => cases c <;> simp [Cond.tokens, aggregateTokens, Sql.parenthesized] at hfuel
  | succ fuel ih =>
    rintro rest -
    cases c with
    | compare column op p => exact readTest_compare column op p rest
    | compareColumns left op right =>
      have htokens : (Cond.compareColumns left op right).tokens ++ rest =
          left.token :: (op.tokens ++ right.token :: rest) := by simp [Cond.tokens]
      rw [htokens]
      exact readTest_compareColumns left op right rest
    | null column negated => exact readTest_null column negated rest
    | nullSafeEq column p => exact read_nullSafeEq fuel column p rest
    | between column low high negated =>
      have htokens : (Cond.between column low high negated).tokens ++ rest =
          column.token :: (Sql.keywords (if negated then [.NOT, .BETWEEN] else [.BETWEEN])
            ++ (low.token :: .keyword .AND :: high.token :: rest)) := by simp [Cond.tokens]
      rw [htokens]
      exact readTest_between column low high negated rest
    | aggregate fn column op p =>
      have hcolumn : ∀ c ∈ column, ∀ rest,
          Column.read ([c.token] ++ .symbol .closeParen :: rest) =
            some (c, .symbol .closeParen :: rest) := fun _ _ _ => rfl
      obtain ⟨body, hbody, hread⟩ := readAggregate_tokens (fun c => [c.token]) hcolumn
        (fun _ => rfl) (fun _ => rfl) (Cond.readable_aggregate hc) (comparisonTokens op p ++ rest)
      rw [Cond.tokens, List.append_assoc, hbody, Cond.read]
      simp only [Option.bind_eq_bind, Option.bind_some, hread, readComparison_tokens]
      rfl
    | group junction members =>
      obtain ⟨hlength, hmembers⟩ := Cond.readable_group hc
      have hp : ∀ c ∈ members, Reads (Cond.read fuel) c.tokens c [] := by
        intro c hm
        have hle : c.tokens.length ≤
            ([.keyword junction.keyword].intercalate (Cond.tokensEach members)).length := by
          rw [Cond.tokensEach_eq_map]
          exact length_le_intercalate (List.mem_map_of_mem hm)
        -- the parentheses are two tokens that no member has
        refine ih c ?_ (hmembers c hm)
        simp only [Cond.tokens, Sql.parenthesized, List.length_cons, List.length_append] at hfuel
        omega
      have htokens : (Cond.group junction members).tokens ++ rest = .symbol .openParen ::
          ([.keyword junction.keyword].intercalate (Cond.tokensEach members)
            ++ .symbol .closeParen :: rest) := by simp [Cond.tokens, Sql.parenthesized]
      rw [htokens, Cond.read, readGroup_tokens hlength hp rest]
      rfl

/-! ## Expressions -/

/-- What must not follow an expression: the filter or the window of an aggregate. -/
def Expr.stop : Tokens :=
  [.keyword .FILTER, .keyword .OVER]

/-- What must not follow a key of an ordering. -/
def OrderItem.stop : Tokens :=
  [.keyword .NULLS]

theorem Expr.read_star (fuel : Nat) (ts : Tokens) : Expr.read fuel (.symbol .star :: ts) = none := by
  cases fuel <;> rfl

theorem Expr.read_distinct (fuel : Nat) (ts : Tokens) :
    Expr.read fuel (.keyword .DISTINCT :: ts) = none := by
  cases fuel <;> rfl

theorem Expr.read_closeParen (fuel : Nat) (ts : Tokens) :
    Expr.read fuel (.symbol .closeParen :: ts) = none := by
  cases fuel <;> rfl

theorem Window.read_avoids {fuel : Nat} {ts stop : Tokens} (h : Avoids stop ts)
    (hs : .keyword .OVER ∈ stop) : Window.read fuel ts = none := by
  cases fuel with
  | zero => rfl
  | succ fuel =>
    rw [Window.read, Sql.expect_avoids h hs]
    rfl

theorem Column.reads_token (c : Column) : Reads Column.read [c.token] c [] :=
  fun _ _ => rfl

/-- What is needed of the expressions, windows and keys of at most so many tokens. -/
structure ReadsBack (fuel : Nat) : Prop where
  expr : ∀ e : Expr, e.tokens.length ≤ fuel → e.Readable →
    Reads (Expr.read fuel) e.tokens e Expr.stop
  window : ∀ w : Window, w.tokens.length ≤ fuel → w.Readable →
    Reads (Window.read fuel) w.tokens w []
  orderItem : ∀ o : OrderItem, o.tokens.length ≤ fuel → o.Readable →
    Reads (OrderItem.read fuel) o.tokens o OrderItem.stop

theorem OrderItem.reads_of_expr {fuel : Nat} (h : ReadsBack fuel) (o : OrderItem)
    (hfuel : o.tokens.length ≤ fuel + 1) (ho : o.Readable) :
    Reads (OrderItem.read (fuel + 1)) o.tokens o OrderItem.stop := by
  obtain ⟨e, direction, nulls⟩ := o
  intro rest hrest
  have hlength : e.tokens.length ≤ fuel := by
    simp only [OrderItem.tokens, List.length_append, List.length_cons] at hfuel
    omega
  have hexpr := h.expr e hlength (OrderItem.readable_mk ho)
  have hstop : .keyword direction.keyword ∉ Expr.stop := by cases direction <;> decide
  -- without NULLS what follows must not start with it, which `stop` provides
  cases nulls with
  | none =>
    have htokens : (OrderItem.mk e direction none).tokens ++ rest =
        e.tokens ++ (Token.keyword direction.keyword :: rest) := by simp [OrderItem.tokens]
    have hnone : oneOf [NullsOrder.first, .last] (fun n => Sql.keywords [.NULLS, n.keyword]) rest =
        none := Sql.oneOf_avoids hrest List.mem_cons_self fun _ => rfl
    have hnulls := Sql.orNone_none hnone
    rw [htokens, OrderItem.read, hexpr _ (.cons hstop _)]
    simp only [Option.bind_eq_bind, Option.bind_some, oneOf_direction, hnulls]
    rfl
  | some n =>
    have htokens : (OrderItem.mk e direction (some n)).tokens ++ rest =
        e.tokens ++ (Token.keyword direction.keyword
          :: (Sql.keywords [.NULLS, n.keyword] ++ rest)) := by
      simp [OrderItem.tokens]
    have hnulls := Sql.orNone_some (oneOf_nulls n rest)
    rw [htokens, OrderItem.read, hexpr _ (.cons hstop _)]
    simp only [Option.bind_eq_bind, Option.bind_some, oneOf_direction, hnulls]
    rfl

/-- A window as a reader meets it. -/
theorem Window.tokens_append (partitionBy : List Column) (orderBy : List OrderItem)
    (rest : Tokens) :
    (Window.mk partitionBy orderBy).tokens ++ rest =
      [Token.keyword .OVER, .symbol .openParen]
        ++ (clauseTokens [.keyword .PARTITION, .keyword .BY] (.symbol .comma) (fun c => [c.token])
            partitionBy
          ++ (clauseTokens [.keyword .ORDER, .keyword .BY] (.symbol .comma) OrderItem.tokens orderBy
            ++ .symbol .closeParen :: rest)) := by
  simp [Window.tokens_eq, Sql.parenthesized]

theorem Window.reads_of_orderItem {fuel : Nat} (h : ReadsBack fuel) (w : Window)
    (hfuel : w.tokens.length ≤ fuel + 1) (hw : w.Readable) :
    Reads (Window.read (fuel + 1)) w.tokens w [] := by
  obtain ⟨partitionBy, orderBy⟩ := w
  rintro rest -
  have hitem : ∀ o ∈ orderBy, Reads (OrderItem.read fuel) o.tokens o OrderItem.stop := by
    intro o ho
    refine h.orderItem o ?_ (Window.readable_mk hw o ho)
    have hle := length_le_clauseTokens [.keyword .ORDER, .keyword .BY] (.symbol .comma)
      OrderItem.tokens ho
    have htokens := congrArg List.length (Window.tokens_append partitionBy orderBy [])
    simp only [List.append_nil, List.length_append, List.length_cons] at htokens
    omega
  have hpartition : Reads (clause [.keyword .PARTITION, .keyword .BY] (.symbol .comma) Column.read)
      _ partitionBy _ := Sql.clause_reads (fun c _ => c.reads_token) (by decide)
  have horder : Reads (clause [.keyword .ORDER, .keyword .BY] (.symbol .comma)
      (OrderItem.read fuel)) _ orderBy _ := Sql.clause_reads hitem (by decide)
  have hclosed := readClosed_append (horder (.symbol .closeParen :: rest) (.cons (by decide) _))
  -- the list of columns ends where ORDER or the bracket comes
  have hbefore : Avoids [.keyword .PARTITION, .symbol .comma]
      (clauseTokens [.keyword .ORDER, .keyword .BY] (.symbol .comma) OrderItem.tokens orderBy
        ++ .symbol .closeParen :: rest) :=
    .append (.clauseTokens (by decide) _ _) (.cons (by decide) _)
  rw [Window.tokens_append, Window.read, Sql.expect_append]
  simp only [Option.bind_eq_bind, Option.bind_some, hpartition _ hbefore, hclosed]
  rfl

/-- The branches of a CASE are read back one by one. -/
theorem reads_branch {cond : Reader String Cond} {value : Reader String Expr} {c : Cond} {e : Expr}
    (hc : Reads cond c.tokens c []) (he : Reads value e.tokens e Expr.stop) :
    Reads (readBranch cond value) (c.tokens ++ .keyword .THEN :: e.tokens) (c, e) Expr.stop := by
  intro rest hrest
  have hvalue : behind [.keyword .THEN] value ([Token.keyword .THEN] ++ (e.tokens ++ rest)) =
      some (e, rest) := Sql.behind_append _ (he rest hrest)
  have htokens : c.tokens ++ .keyword .THEN :: e.tokens ++ rest =
      c.tokens ++ ([Token.keyword .THEN] ++ (e.tokens ++ rest)) := by simp
  unfold readBranch
  rw [htokens, hc _ (.of_empty _)]
  simp only [Option.bind_eq_bind, Option.bind_some, hvalue]
  rfl

theorem length_le_flatMap_of_mem {α : Type} (write : α → Tokens) {x : α} {xs : List α}
    (h : x ∈ xs) : (write x).length ≤ (xs.flatMap write).length := by
  obtain ⟨front, back, rfl⟩ := List.append_of_mem h
  rw [List.flatMap_append, List.flatMap_cons, List.length_append, List.length_append]
  omega

theorem Expr.reads_case {fuel : Nat} (h : ReadsBack fuel) (branches : List (Cond × Expr))
    (otherwise : Option Expr) (hfuel : (Expr.case branches otherwise).tokens.length ≤ fuel + 1)
    (he : (Expr.case branches otherwise).Readable) :
    Reads (Expr.read (fuel + 1)) (Expr.case branches otherwise).tokens (.case branches otherwise)
      Expr.stop := by
  rintro rest -
  obtain ⟨hbranches, hotherwise⟩ := Expr.readable_case he
  simp only [Expr.tokens, List.length_append, List.length_cons,
    Expr.branchTokens_eq_flatMap] at hfuel
  have hbranch : ∀ b ∈ branches, Reads (readBranch (Cond.read fuel) (Expr.read fuel))
      (b.1.tokens ++ .keyword .THEN :: b.2.tokens) b Expr.stop := by
    intro b hb
    have hle := length_le_flatMap_of_mem
      (fun b : Cond × Expr => .keyword .WHEN :: (b.1.tokens ++ .keyword .THEN :: b.2.tokens)) hb
    simp only [List.length_cons, List.length_append] at hle
    exact reads_branch (Cond.reads_tokens fuel b.1 (by omega) (hbranches b hb).1)
      (h.expr b.2 (by omega) (hbranches b hb).2)
  -- what follows the branches is the last word, or the other value before it
  obtain ⟨us, htokens, hus, hread⟩ : ∃ us, (Expr.case branches otherwise).tokens ++ rest =
      .keyword .CASE :: ((branches.flatMap fun b =>
        .keyword .WHEN :: (b.1.tokens ++ .keyword .THEN :: b.2.tokens)) ++ us) ∧
      Avoids (.keyword .WHEN :: Expr.stop) us ∧
      orNone (behind [.keyword .ELSE] (Expr.read fuel)) us =
        some (otherwise, [Token.keyword .END] ++ rest) := by
    cases otherwise with
    | none =>
      refine ⟨[Token.keyword .END] ++ rest, ?_, .cons (by decide) _, ?_⟩
      · simp [Expr.tokens, Expr.tokens?, Expr.branchTokens_eq_flatMap]
      · have hend : Avoids [.keyword .ELSE] ([Token.keyword .END] ++ rest) := .cons (by decide) _
        exact Sql.orNone_none (Sql.behind_avoids hend List.mem_cons_self)
    | some e =>
      refine ⟨[Token.keyword .ELSE] ++ (e.tokens ++ ([Token.keyword .END] ++ rest)), ?_,
        .cons (by decide) _, ?_⟩
      · simp [Expr.tokens, Expr.tokens?, Expr.branchTokens_eq_flatMap]
      · simp only [Expr.tokens?, List.length_cons] at hfuel
        have hexpr := h.expr e (by omega) (hotherwise e rfl) ([Token.keyword .END] ++ rest)
          (.cons (by decide) _)
        exact Sql.orNone_some (Sql.behind_append _ hexpr)
  have hmany := Sql.many_reads hbranch (by decide) us hus
  rw [htokens, Expr.read]
  simp only [Option.bind_eq_bind, Option.bind_some, hmany, hread, Sql.expect_append]
  rfl

theorem operator_avoids (op : Operator) (us : Tokens) : Avoids Expr.stop (op.tokens ++ us) := by
  cases op <;> exact .cons (by decide) _

theorem Expr.reads_binary {fuel : Nat} (h : ReadsBack fuel) (left : Expr) (op : Operator)
    (right : Expr) (hfuel : (Expr.binary left op right).tokens.length ≤ fuel + 1)
    (he : (Expr.binary left op right).Readable) :
    Reads (Expr.read (fuel + 1)) (Expr.binary left op right).tokens (.binary left op right)
      Expr.stop := by
  rintro rest -
  obtain ⟨hleft, hright⟩ := Expr.readable_binary he
  simp only [Expr.tokens, Sql.parenthesized, List.length_append, List.length_cons] at hfuel
  have htokens : (Expr.binary left op right).tokens ++ rest = .symbol .openParen ::
      (left.tokens ++ (op.tokens ++ (right.tokens ++ .symbol .closeParen :: rest))) := by
    simp [Expr.tokens, Sql.parenthesized]
  have hr := h.expr right (by omega) hright (.symbol .closeParen :: rest) (.cons (by decide) _)
  have hl := h.expr left (by omega) hleft
    (op.tokens ++ (right.tokens ++ .symbol .closeParen :: rest)) (operator_avoids op _)
  rw [htokens, Expr.read]
  simp only [Option.bind_eq_bind, Option.bind_some, hl, oneOf_operator, readClosed_append hr]
  rfl

theorem Expr.reads_call {fuel : Nat} (h : ReadsBack fuel) (fn : ScalarFn) (args : List Expr)
    (hfuel : (Expr.call fn args).tokens.length ≤ fuel + 1) (he : (Expr.call fn args).Readable) :
    Reads (Expr.read (fuel + 1)) (Expr.call fn args).tokens (.call fn args) Expr.stop := by
  rintro rest -
  have harg : ∀ e ∈ args, Reads (Expr.read fuel) e.tokens e Expr.stop := by
    intro e hm
    have hle : e.tokens.length ≤ (Sql.commaSeparated (args.map Expr.tokens)).length :=
      length_le_intercalate (List.mem_map_of_mem hm)
    simp only [Expr.tokens, Expr.tokensEach_eq_map, List.length_append, List.length_cons] at hfuel
    exact h.expr e (by omega) (Expr.readable_each he e hm)
  have hargs : separated (.symbol .comma) (Expr.read fuel)
      ([.symbol .comma].intercalate (args.map Expr.tokens) ++ .symbol .closeParen :: rest) =
        some (args, .symbol .closeParen :: rest) :=
    Sql.separated_intercalate harg (by decide) (.cons (by decide) _)
      fun _ => Expr.read_closeParen fuel rest
  -- CAST is read before any function is looked up
  have hcast : fn.keyword ≠ .CAST := by cases fn <;> decide
  have htokens : (Expr.call fn args).tokens ++ rest = .call fn.keyword ::
      ([.symbol .comma].intercalate (args.map Expr.tokens) ++ .symbol .closeParen :: rest) := by
    simp [Expr.tokens, Expr.tokensEach_eq_map, Sql.commaSeparated]
  rw [htokens, Expr.read]
  · simp only [ofKeyword?_scalarFn, Option.bind_eq_bind, Option.bind_some, readClosed_append hargs]
    rfl
  · exact hcast

theorem Expr.reads_cast {fuel : Nat} (h : ReadsBack fuel) (e : Expr) (type : CastType)
    (hfuel : (Expr.cast e type).tokens.length ≤ fuel + 1) (he : (Expr.cast e type).Readable) :
    Reads (Expr.read (fuel + 1)) (Expr.cast e type).tokens (.cast e type) Expr.stop := by
  rintro rest -
  simp only [Expr.tokens, List.length_append, List.length_cons] at hfuel
  have htokens : (Expr.cast e type).tokens ++ rest = .call .CAST :: (e.tokens
      ++ ([Token.keyword .AS] ++ (Sql.keywords type.keywords ++ .symbol .closeParen :: rest))) := by
    simp [Expr.tokens]
  have hexpr := h.expr e (by omega) he
    ([Token.keyword .AS] ++ (Sql.keywords type.keywords ++ .symbol .closeParen :: rest))
    (.cons (by decide) _)
  have htype := readClosed_append (oneOf_castType type (.symbol .closeParen :: rest))
  rw [htokens, Expr.read]
  simp only [Option.bind_eq_bind, Option.bind_some, hexpr, Sql.expect_append, htype]
  rfl

theorem Expr.reads_ranking {fuel : Nat} (h : ReadsBack fuel) (fn : WindowFn) (window : Window)
    (hfuel : (Expr.ranking fn window).tokens.length ≤ fuel + 1)
    (he : (Expr.ranking fn window).Readable) :
    Reads (Expr.read (fuel + 1)) (Expr.ranking fn window).tokens (.ranking fn window)
      Expr.stop := by
  rintro rest -
  simp only [Expr.tokens, List.length_append, List.length_cons] at hfuel
  obtain ⟨hscalar, hranking⟩ := ofKeyword?_windowFn fn
  have hcast : fn.keyword ≠ .CAST := by cases fn <;> decide
  have htokens : (Expr.ranking fn window).tokens ++ rest =
      .call fn.keyword :: ([Token.symbol .closeParen] ++ (window.tokens ++ rest)) := by
    simp [Expr.tokens]
  have hwindow : behind [.symbol .closeParen] (Window.read fuel)
      ([Token.symbol .closeParen] ++ (window.tokens ++ rest)) = some (window, rest) :=
    Sql.behind_append _ (h.window window (by omega) he rest (.of_empty _))
  rw [htokens, Expr.read]
  · simp only [hscalar, hranking, Option.bind_eq_bind, Option.bind_some, hwindow]
    rfl
  · exact hcast

/-! ## Aggregates -/

theorem length_aggregateTokens (fn : AggregateFn) (arg : Option Tokens) :
    (arg.getD []).length + 2 ≤ (aggregateTokens fn arg).length := by
  unfold aggregateTokens
  cases arg with
  | none => simp
  | some ts => by_cases hfn : fn = .countDistinct <;> simp [hfn]

theorem filter_reads {fuel : Nat} {filter : Option Cond}
    (hfuel : (filterTokens filter).length ≤ fuel) (h : ∀ c ∈ filter, c.Readable) :
    Reads (orNone (readFilter (Cond.read fuel))) (filterTokens filter) filter
      [.keyword .FILTER] := by
  intro rest hrest
  cases filter with
  | none => exact Sql.orNone_none (Sql.behind_avoids hrest List.mem_cons_self)
  | some c =>
    simp only [filterTokens, Sql.parenthesized, List.length_cons, List.length_append] at hfuel
    have hcond := Cond.reads_tokens fuel c (by omega) (h c rfl) (.symbol .closeParen :: rest)
      (.of_empty _)
    have htokens : filterTokens (some c) ++ rest =
        [Token.keyword .FILTER, .symbol .openParen, .keyword .WHERE]
          ++ (c.tokens ++ .symbol .closeParen :: rest) := by simp [filterTokens, Sql.parenthesized]
    rw [htokens]
    exact Sql.orNone_some (Sql.behind_append _ (readClosed_append hcond))

theorem Window.tokens?_avoids {stop : Tokens} (h : .keyword .OVER ∉ stop) (window : Option Window) :
    Avoids stop (Window.tokens? window) := by
  rcases window with _ | ⟨partitionBy, orderBy⟩
  · exact .nil
  · exact .cons h _

theorem Window.orNone_reads {fuel : Nat} (h : ReadsBack fuel) {window : Option Window}
    (hfuel : (Window.tokens? window).length ≤ fuel) (hw : ∀ w ∈ window, w.Readable) :
    Reads (orNone (Window.read fuel)) (Window.tokens? window) window [.keyword .OVER] := by
  intro rest hrest
  cases window with
  | none => exact Sql.orNone_none (Window.read_avoids hrest List.mem_cons_self)
  | some w => exact Sql.orNone_some (h.window w hfuel (hw w rfl) rest (.of_empty _))

theorem Expr.reads_aggregate {fuel : Nat} (h : ReadsBack fuel) (fn : AggregateFn)
    (arg : Option Expr) (filter : Option Cond) (window : Option Window)
    (hfuel : (Expr.aggregate fn arg filter window).tokens.length ≤ fuel + 1)
    (he : (Expr.aggregate fn arg filter window).Readable) :
    Reads (Expr.read (fuel + 1)) (Expr.aggregate fn arg filter window).tokens
      (.aggregate fn arg filter window) Expr.stop := by
  intro rest hrest
  obtain ⟨harg, hbare, hfilter, hwindow⟩ := Expr.readable_aggregate he
  obtain ⟨hscalar, hranking⟩ := ofKeyword?_aggregateFn fn
  have hcast : fn.keyword ≠ .CAST := by cases fn <;> decide
  have hlength := length_aggregateTokens fn (arg.map Expr.tokens)
  rw [Expr.tokens_aggregate, List.length_append, List.length_append] at hfuel
  have hargument : ∀ e ∈ arg, ∀ us, Expr.read fuel (e.tokens ++ .symbol .closeParen :: us) =
      some (e, .symbol .closeParen :: us) := by
    rintro e ⟨⟩ us
    have hle : e.tokens.length + 2 ≤
        (aggregateTokens fn ((some e).map Expr.tokens)).length := hlength
    exact h.expr e (by omega) (harg e rfl) _ (.cons (by decide) _)
  -- from the end: the filter is read where the window may begin, the call where the filter may
  have hw := Window.orNone_reads h (by omega) hwindow rest (hrest.mono (by decide))
  have hle : (filterTokens filter).length ≤ fuel := by omega
  have hf := filter_reads hle hfilter (Window.tokens? window ++ rest)
    (.append (Window.tokens?_avoids (by decide) window) (hrest.mono (by decide)))
  obtain ⟨body, hbody, hread⟩ := readAggregate_tokens Expr.tokens hargument (Expr.read_star fuel)
    (Expr.read_distinct fuel) hbare (filterTokens filter ++ (Window.tokens? window ++ rest))
  rw [Expr.tokens_aggregate, List.append_assoc, List.append_assoc, hbody, Expr.read]
  · simp only [hscalar, hranking, Option.bind_eq_bind, Option.bind_some, hread, hf, hw]
    rfl
  · exact hcast

/-! ## All expressions -/

theorem Expr.length_pos (e : Expr) : 0 < e.tokens.length := by
  cases e <;> simp [Expr.tokens, Sql.parenthesized, aggregateTokens]

/-- With as much fuel as there are tokens, expressions, windows and keys are read back. -/
theorem readsBack (fuel : Nat) : ReadsBack fuel := by
  induction fuel with
  | zero =>
    -- no part is without tokens
    refine ⟨fun e hfuel => ?_, fun w hfuel => ?_, fun o hfuel => ?_⟩
    · have := e.length_pos
      omega
    · cases w
      simp [Window.tokens] at hfuel
    · cases o
      simp [OrderItem.tokens] at hfuel
  | succ fuel ih =>
    refine ⟨fun e hfuel he => ?_, Window.reads_of_orderItem ih, OrderItem.reads_of_expr ih⟩
    cases e with
    | column c => exact fun _ _ => rfl
    | param p => exact fun _ _ => rfl
    | call fn args => exact Expr.reads_call ih fn args hfuel he
    | cast e type => exact Expr.reads_cast ih e type hfuel he
    | binary left op right => exact Expr.reads_binary ih left op right hfuel he
    | aggregate fn arg filter window =>
      exact Expr.reads_aggregate ih fn arg filter window hfuel he
    | case branches otherwise => exact Expr.reads_case ih branches otherwise hfuel he
    | ranking fn window => exact Expr.reads_ranking ih fn window hfuel he

end CheckedSql
