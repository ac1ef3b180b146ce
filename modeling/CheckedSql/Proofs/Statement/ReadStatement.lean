/-
Statements are read back from their tokens, and so from the text and the names they are sent with:
rendering loses nothing of a statement.
-/
import CheckedSql.Proofs.Statement.ReadExpr

namespace CheckedSql

open Sql (Token Keyword Reader Reads Avoids expect behind orNone oneOf separated clause
  clauseTokens)

/-! ## Clauses -/

theorem returningTokens_avoids {stop : Tokens} (h : .keyword .RETURNING ∉ stop)
    (cs : List Column) : Avoids stop (returningTokens cs) := by
  rw [returningTokens_eq]
  exact .clauseTokens h _ _

theorem readTable_behind (lead : Tokens) (table : String) (rest : Tokens) :
    behind lead readTable (lead ++ .identifier table :: rest) = some (table, rest) :=
  Sql.behind_append lead rfl

/-- Conditions that must all hold, behind the word of their clause. -/
theorem conjunction_reads (fuel : Nat) (k : Keyword) {cs : List Cond}
    (hfuel : (clauseTokens [.keyword k] (.keyword .AND) Cond.tokens cs).length ≤ fuel)
    (h : ∀ c ∈ cs, c.Readable) :
    Reads (clause [.keyword k] (.keyword .AND) (Cond.read fuel))
      (clauseTokens [.keyword k] (.keyword .AND) Cond.tokens cs) cs [.keyword k, .keyword .AND] := by
  refine Sql.clause_reads (fun c hc => Cond.reads_tokens fuel c ?_ (h c hc)) List.not_mem_nil
  have hle := length_le_clauseTokens [.keyword k] (.keyword .AND) Cond.tokens hc
  omega

theorem columns_read (l : Token String) (lead : Tokens) (cs : List Column) :
    Reads (clause (l :: lead) (.symbol .comma) Column.read)
      (clauseTokens (l :: lead) (.symbol .comma) (fun c => [c.token]) cs) cs
      [l, .symbol .comma] :=
  Sql.clause_reads (fun c _ => c.reads_token) List.not_mem_nil

theorem returning_reads (cs : List Column) :
    Reads readReturning (returningTokens cs) cs [.keyword .RETURNING, .symbol .comma] :=
  columns_read _ _ cs

theorem bound_reads (k : Keyword) (b : Option Bound) :
    Reads (orNone (behind [.keyword k] Bound.read)) (boundTokens k b) b [.keyword k] := by
  intro rest hrest
  cases b with
  | none => exact Sql.orNone_none (Sql.behind_avoids hrest List.mem_cons_self)
  | some b =>
    have hbound : Bound.read (b.token :: rest) = some (b, rest) := by cases b <;> rfl
    have hbehind : behind [.keyword k] Bound.read ([Token.keyword k] ++ (b.token :: rest)) =
        some (b, rest) := Sql.behind_append _ hbound
    exact Sql.orNone_some hbehind

theorem boundTokens_avoids {k : Keyword} {stop : Tokens} (h : .keyword k ∉ stop)
    (b : Option Bound) : Avoids stop (boundTokens k b) := by
  cases b with
  | none => exact .nil
  | some b => exact .cons h _

theorem tailTokens_avoids {stop : Tokens}
    (h : ∀ k ∈ [Keyword.ORDER, .LIMIT, .OFFSET], .keyword k ∉ stop) (orderBy : List OrderItem)
    (limit offset : Option Bound) : Avoids stop (tailTokens orderBy limit offset) := by
  rw [tailTokens, orderByTokens_eq]
  exact .append (.append (.clauseTokens (h _ (by decide)) _ _)
    (boundTokens_avoids (h _ (by decide)) limit)) (boundTokens_avoids (h _ (by decide)) offset)

theorem tail_reads (fuel : Nat) {orderBy : List OrderItem} (limit offset : Option Bound)
    (hfuel : (tailTokens orderBy limit offset).length ≤ fuel) (h : ∀ o ∈ orderBy, o.Readable) :
    Reads (readTail fuel) (tailTokens orderBy limit offset) (orderBy, limit, offset)
      [.keyword .ORDER, .symbol .comma, .keyword .NULLS, .keyword .LIMIT, .keyword .OFFSET] := by
  intro rest hrest
  rw [tailTokens, orderByTokens_eq] at hfuel ⊢
  rw [List.length_append, List.length_append] at hfuel
  have hitem : ∀ o ∈ orderBy, Reads (OrderItem.read fuel) o.tokens o OrderItem.stop := by
    intro o ho
    have hle := length_le_clauseTokens [.keyword .ORDER, .keyword .BY] (.symbol .comma)
      OrderItem.tokens ho
    exact (readsBack fuel).orderItem o (by omega) (h o ho)
  -- from the end: each clause is read where those behind it begin
  have hoffset := bound_reads .OFFSET offset rest (hrest.mono (by decide))
  have hlimit := bound_reads .LIMIT limit (boundTokens .OFFSET offset ++ rest)
    (.append (boundTokens_avoids (by decide) _) (hrest.mono (by decide)))
  have horder : Reads (clause [.keyword .ORDER, .keyword .BY] (.symbol .comma)
      (OrderItem.read fuel)) _ orderBy _ := Sql.clause_reads hitem (by decide)
  have hbefore : Avoids (.keyword .ORDER :: .symbol .comma :: OrderItem.stop)
      (boundTokens .LIMIT limit ++ (boundTokens .OFFSET offset ++ rest)) :=
    .append (boundTokens_avoids (by decide) _)
      (.append (boundTokens_avoids (by decide) _) (hrest.mono (by decide)))
  unfold readTail
  rw [List.append_assoc, List.append_assoc, horder _ hbefore]
  simp only [Option.bind_eq_bind, Option.bind_some, hlimit, hoffset]
  rfl

/-! ## SELECT -/

theorem Expr.tokens_cons (e : Expr) :
    ∃ t ts, e.tokens = t :: ts ∧ t ∉ [.symbol .star, .keyword .DISTINCT] := by
  cases e with
  | column c => exact ⟨_, _, rfl, by simp [Column.token]⟩
  | param p => exact ⟨_, _, rfl, by simp [Param.token]⟩
  | aggregate fn arg filter window =>
    exact ⟨_, _, Expr.tokens_aggregate fn arg filter window, by simp⟩
  | _ => exact ⟨_, _, by rw [Expr.tokens]; rfl, by simp⟩

/-- What must not follow an output column. -/
def SelectItem.stop : Tokens :=
  .keyword .AS :: Expr.stop

theorem SelectItem.reads_tokens {fuel : Nat} (i : SelectItem) (hfuel : i.tokens.length ≤ fuel)
    (h : i.expr.Readable) : Reads (SelectItem.read fuel) i.tokens i SelectItem.stop := by
  obtain ⟨e, name⟩ := i
  intro rest hrest
  have hlength : e.tokens.length ≤ fuel := by
    simp only [SelectItem.tokens, List.length_append] at hfuel
    omega
  have hexpr := (readsBack fuel).expr e hlength h
  -- without a name what follows must not start with AS, which `stop` provides
  cases name with
  | none =>
    have hnone : orNone readOutputName rest = some (none, rest) :=
      Sql.orNone_none (Sql.behind_avoids hrest List.mem_cons_self)
    have htokens : (SelectItem.mk e none).tokens ++ rest = e.tokens ++ rest := by
      simp [SelectItem.tokens]
    unfold SelectItem.read
    rw [htokens, hexpr rest (hrest.mono (by decide))]
    simp only [Option.bind_eq_bind, Option.bind_some, hnone]
    rfl
  | some name =>
    have htokens : (SelectItem.mk e (some name)).tokens ++ rest =
        e.tokens ++ (.keyword .AS :: .identifier name :: rest) := by
      simp [SelectItem.tokens]
    unfold SelectItem.read
    rw [htokens, hexpr _ (.cons (by decide) _)]
    rfl

theorem items_read (fuel : Nat) {items : List SelectItem}
    (hfuel : (Sql.commaSeparated (items.map SelectItem.tokens)).length ≤ fuel)
    (h : ∀ i ∈ items, i.expr.Readable) :
    Reads (readItems fuel)
      (if items.isEmpty then [.symbol .star]
        else Sql.commaSeparated (items.map SelectItem.tokens)) items
      (.symbol .comma :: SelectItem.stop) := by
  intro rest hrest
  cases items with
  | nil => rfl
  | cons i items =>
    have hitem : ∀ j ∈ i :: items, Reads (SelectItem.read fuel) j.tokens j SelectItem.stop := by
      intro j hj
      have hle : j.tokens.length ≤
          (Sql.commaSeparated ((i :: items).map SelectItem.tokens)).length :=
        length_le_intercalate (List.mem_map_of_mem hj)
      exact j.reads_tokens (by omega) (h j hj)
    have hitems : separated (.symbol .comma) (SelectItem.read fuel)
        ([.symbol .comma].intercalate ((i :: items).map SelectItem.tokens) ++ rest) =
          some (i :: items, rest) :=
      Sql.separated_intercalate hitem (by decide) hrest (by rintro ⟨⟩)
    obtain ⟨t, ts, hts, ht⟩ := i.expr.tokens_cons
    -- an expression does not begin with a star, so the list is not taken for all columns
    have hstar : expect [.symbol .star]
        ([.symbol .comma].intercalate ((i :: items).map SelectItem.tokens) ++ rest) = none := by
      rw [List.map_cons, Sql.intercalate_eq_flatMap, SelectItem.tokens, hts]
      have hne : t ≠ .symbol .star := fun he => ht (by rw [he]; exact List.mem_cons_self)
      exact if_neg hne
    show readItems fuel
      ([.symbol .comma].intercalate ((i :: items).map SelectItem.tokens) ++ rest) = _
    rw [readItems, hstar, hitems]

theorem flag_reads (k : Keyword) (b : Bool) :
    Reads (readFlag k) (if b then [.keyword k] else []) b [.keyword k] := by
  intro rest hrest
  cases b with
  | true =>
    show readFlag k ([Token.keyword k] ++ rest) = _
    rw [readFlag, Sql.expect_append]
  | false =>
    show readFlag k rest = _
    rw [readFlag, Sql.expect_avoids hrest List.mem_cons_self]

theorem lockTokens_avoids {stop : Tokens} (h : .keyword .FOR ∉ stop) (lock : Option RowLock) :
    Avoids stop (lockTokens lock) := by
  rcases lock with _ | l
  · exact .nil
  · cases l <;> exact .cons h _

theorem lock_reads (lock : Option RowLock) :
    Reads (orNone (oneOf RowLock.all fun l => Sql.keywords l.keywords)) (lockTokens lock) lock
      [.keyword .FOR] := by
  intro rest hrest
  cases lock with
  | none =>
    have hnone : oneOf RowLock.all (fun l => Sql.keywords l.keywords) rest = none :=
      Sql.oneOf_avoids hrest List.mem_cons_self fun l => by cases l <;> rfl
    exact Sql.orNone_none hnone
  | some l => exact Sql.orNone_some (oneOf_lock l rest)

theorem items_avoid (items : List SelectItem) (rest : Tokens) :
    Avoids [.keyword .DISTINCT] ((if items.isEmpty then [.symbol .star]
      else Sql.commaSeparated (items.map SelectItem.tokens)) ++ rest) := by
  cases items with
  | nil => exact .cons (by decide) _
  | cons i items =>
    obtain ⟨t, ts, hts, ht⟩ := i.expr.tokens_cons
    rw [List.isEmpty_cons, if_neg (by decide), Sql.commaSeparated, List.map_cons,
      Sql.intercalate_eq_flatMap, SelectItem.tokens, hts]
    exact .cons (fun hm => ht (.tail _ hm)) _

theorem source_reads (fuel : Nat) (distinct : Bool) {items : List SelectItem} (table : String)
    (hfuel : (Sql.commaSeparated (items.map SelectItem.tokens)).length ≤ fuel)
    (h : ∀ i ∈ items, i.expr.Readable) :
    ∀ rest, readSource fuel (sourceTokens distinct items table ++ rest) =
      some ((distinct, items, table), rest) := by
  intro rest
  have htokens : sourceTokens distinct items table ++ rest =
      [Token.keyword .SELECT] ++ ((if distinct then [Token.keyword .DISTINCT] else [])
        ++ ((if items.isEmpty then [.symbol .star]
            else Sql.commaSeparated (items.map SelectItem.tokens))
          ++ ([Token.keyword .FROM] ++ .identifier table :: rest))) := by simp [sourceTokens]
  have hitems := items_read fuel hfuel h ([Token.keyword .FROM] ++ .identifier table :: rest)
    (.cons (by decide) _)
  have hdistinct := Sql.behind_append [.keyword .SELECT] (flag_reads .DISTINCT distinct _
    (items_avoid items ([Token.keyword .FROM] ++ .identifier table :: rest)))
  unfold readSource
  rw [htokens, hdistinct]
  simp only [Option.bind_eq_bind, Option.bind_some, hitems, readTable_behind]
  rfl

/-- Which rows are selected, and how they are grouped: each clause is read where those behind it
begin. -/
theorem rows_read (fuel : Nat) {conditions having : List Cond} (groupBy : List Column)
    (hconditions : (whereTokens conditions).length ≤ fuel)
    (hhaving : (havingTokens having).length ≤ fuel) (hc : ∀ c ∈ conditions, c.Readable)
    (hh : ∀ c ∈ having, c.Readable) :
    Reads (readRows fuel)
      (whereTokens conditions ++ (groupByTokens groupBy ++ havingTokens having))
      (conditions, groupBy, having)
      [.keyword .WHERE, .keyword .AND, .keyword .GROUP, .symbol .comma, .keyword .HAVING] := by
  intro rest hrest
  rw [whereTokens_eq] at hconditions ⊢
  rw [havingTokens_eq] at hhaving ⊢
  have h3 := conjunction_reads fuel .HAVING hhaving hh rest (hrest.mono (by decide))
  have h2 := columns_read (.keyword .GROUP) [.keyword .BY] groupBy
    (clauseTokens [.keyword .HAVING] (.keyword .AND) Cond.tokens having ++ rest)
    (.append (.clauseTokens (by decide) _ _) (hrest.mono (by decide)))
  have h1 := conjunction_reads fuel .WHERE hconditions hc
    (groupByTokens groupBy
      ++ (clauseTokens [.keyword .HAVING] (.keyword .AND) Cond.tokens having ++ rest))
    (.append (.clauseTokens (by decide) _ _)
      (.append (.clauseTokens (by decide) _ _) (hrest.mono (by decide))))
  unfold readRows
  rw [List.append_assoc, List.append_assoc, h1]
  simp only [Option.bind_eq_bind, Option.bind_some, groupByTokens_eq, h2, h3]
  rfl

theorem SelectStatement.read_tokens {fuel : Nat} {s : SelectStatement}
    (hfuel : s.tokens.length ≤ fuel) (h : Sound s.groupSizes s.demands) :
    SelectStatement.read fuel s.tokens = some (s, []) := by
  obtain ⟨hitems, hconditions, hhaving, horder⟩ := SelectStatement.readable h
  -- the output columns are a part of what names the source, so the fuel is enough for them
  have hlength : (Sql.commaSeparated (s.items.map SelectItem.tokens)).length ≤
      (sourceTokens s.distinct s.items s.table).length := by
    unfold sourceTokens
    cases hi : s.items with
    | nil => exact Nat.zero_le _
    | cons i items =>
      simp only [List.isEmpty_cons, Bool.false_eq_true, if_false, List.length_append]
      omega
  rw [s.tokens_eq] at hfuel ⊢
  simp only [List.length_append] at hfuel
  have hlock := lock_reads s.lock [] .nil
  have htail := tail_reads fuel s.limit s.offset (by omega) horder (lockTokens s.lock ++ [])
    (.append (lockTokens_avoids (by decide) _) .nil)
  have hrows := rows_read fuel s.groupBy (by omega) (by omega) hconditions hhaving
    (tailTokens s.orderBy s.limit s.offset ++ (lockTokens s.lock ++ []))
    (.append (tailTokens_avoids (by decide) _ _ _)
      (.append (lockTokens_avoids (by decide) _) .nil))
  have hsource := source_reads fuel s.distinct s.table (by omega) hitems
  unfold SelectStatement.read
  rw [hsource]
  simp only [Option.bind_eq_bind, Option.bind_some, hrows, htail, hlock]
  rfl

/-! ## INSERT, UPDATE and DELETE -/

theorem tuple_reads {α : Type} {p : Reader String α} {write : α → Tokens} {xs : List α}
    (hx : ∀ x ∈ xs, Reads p (write x) x [])
    (hclose : ∀ ts, p (.symbol .closeParen :: ts) = none) :
    Reads (readTuple p) (Sql.parenthesized (Sql.commaSeparated (xs.map write))) xs [] := by
  rintro rest -
  have hvalues : separated (.symbol .comma) p
      ([.symbol .comma].intercalate (xs.map write) ++ .symbol .closeParen :: rest) =
        some (xs, .symbol .closeParen :: rest) :=
    Sql.separated_intercalate hx List.not_mem_nil (.cons (by decide) _) fun _ => hclose rest
  have htokens : Sql.parenthesized (Sql.commaSeparated (xs.map write)) ++ rest =
      [Token.symbol .openParen]
        ++ ([Token.symbol .comma].intercalate (xs.map write) ++ .symbol .closeParen :: rest) := by
    simp [Sql.parenthesized, Sql.commaSeparated]
  rw [htokens]
  exact Sql.behind_append _ (readClosed_append hvalues)

theorem target_reads (target : List Column) :
    ∃ t, t.getD [] = target ∧
      Reads (orNone (readTuple Column.read)) (targetTokens target) t [.symbol .openParen] := by
  have htuple : Reads (readTuple Column.read) (Sql.parenthesized (columnTokens target)) target [] :=
    tuple_reads (fun c _ => c.reads_token) fun _ => rfl
  cases target with
  | nil =>
    exact ⟨none, rfl, fun rest hrest => Sql.orNone_none (Sql.behind_avoids hrest List.mem_cons_self)⟩
  | cons c cs =>
    exact ⟨some (c :: cs), rfl, fun rest _ => Sql.orNone_some (htuple rest (.of_empty _))⟩

theorem overwritten_reads (c : Column) :
    Reads readOverwritten [c.token, .symbol .eq, .keyword .EXCLUDED, .symbol .dot, c.token] c [] :=
  fun _ _ => rfl

theorem Conflict.action_reads {c : Conflict} (h : Sound [] c.demands) :
    Reads (readAction c.target) c.actionTokens c [.symbol .comma] := by
  intro rest hrest
  cases c with
  | skip target => rfl
  | overwrite target columns =>
    -- an action without columns is a flaw, which no sound clause has
    have hne : columns ≠ [] := by
      rintro rfl
      have hdemands : (Conflict.overwrite target []).demands =
          [.feature .onConflict, .flaw .emptyOverwrite] := by simp [Conflict.demands]
      rw [hdemands] at h
      exact h.tail.not_flaw
    have hcolumns := Sql.separated_intercalate (fun c _ => overwritten_reads c) List.not_mem_nil
      hrest fun he => absurd he hne
    exact congrArg (Option.map fun r => (Conflict.overwrite target r.1, r.2)) hcolumns

theorem Conflict.reads_tokens {c : Conflict} (h : Sound [] c.demands) :
    Reads (behind [.keyword .ON, .keyword .CONFLICT] Conflict.read) c.tokens c
      [.symbol .comma] := by
  intro rest hrest
  obtain ⟨t, ht, htarget⟩ := target_reads c.target
  have haction := Sql.behind_append [.keyword .DO] (Conflict.action_reads h rest hrest)
  have hnext : Avoids [.symbol .openParen] ([Token.keyword .DO] ++ (c.actionTokens ++ rest)) :=
    .cons (by decide) _
  rw [c.tokens_eq, List.append_assoc, List.append_assoc, List.append_assoc]
  refine Sql.behind_append _ ?_
  unfold Conflict.read
  rw [htarget _ hnext]
  simp only [Option.bind_eq_bind, Option.bind_some, ht, haction]

theorem InsertStatement.sound {s : InsertStatement} (h : Sound [] s.demands) :
    s.rows ≠ [] ∧ ∀ c ∈ s.conflict, Sound [] c.demands := by
  have hclauses := h.demands_left
  refine ⟨fun hrows => ?_, ?_⟩
  · have hfront := hclauses.demands_left.demands_left
    rw [hrows] at hfront
    exact hfront.not_flaw
  · intro c hc
    have hconflict := hclauses.demands_right
    rw [hc] at hconflict
    exact hconflict

theorem InsertStatement.read_tokens {s : InsertStatement} (h : Sound [] s.demands) :
    InsertStatement.read s.tokens = some (s, []) := by
  obtain ⟨hne, hconflict⟩ := InsertStatement.sound h
  have hcolumns : Reads (readTuple Column.read) _ s.columns [] :=
    tuple_reads (fun c _ => c.reads_token) fun _ => rfl
  have hrow : ∀ row ∈ s.rows, Reads (readTuple Param.read)
      (Sql.parenthesized (Sql.commaSeparated (row.map fun p => [p.token]))) row [] :=
    fun row _ => tuple_reads (fun _ _ _ _ => rfl) fun _ => rfl
  have hreturning := returning_reads s.returning [] .nil
  -- what follows a part must not be read as more of it
  have hreturningNext {stop : Tokens} (hs : .keyword .RETURNING ∉ stop) :
      Avoids stop (returningTokens s.returning ++ []) :=
    .append (returningTokens_avoids hs _) .nil
  have hconflicts : orNone (behind [.keyword .ON, .keyword .CONFLICT] Conflict.read)
      (conflictTokens s.conflict ++ (returningTokens s.returning ++ [])) =
        some (s.conflict, returningTokens s.returning ++ []) := by
    cases hc : s.conflict with
    | none =>
      have hnext : Avoids [.keyword .ON] (returningTokens s.returning ++ []) :=
        hreturningNext (by decide)
      exact Sql.orNone_none (Sql.behind_avoids hnext List.mem_cons_self)
    | some c =>
      exact Sql.orNone_some (Conflict.reads_tokens (hconflict c hc) _ (hreturningNext (by decide)))
  have hconflictNext : Avoids [.symbol .comma]
      (conflictTokens s.conflict ++ (returningTokens s.returning ++ [])) := by
    refine .append ?_ (hreturningNext (by decide))
    rcases s.conflict with _ | c
    · exact .nil
    · exact .cons (by decide) _
  have hrows := Sql.separated_intercalate hrow List.not_mem_nil hconflictNext fun he => absurd he hne
  -- each part reads its own tokens and leaves the rest to the next
  rw [s.tokens_eq]
  unfold InsertStatement.read
  rw [readTable_behind]
  simp only [Option.bind_eq_bind, Option.bind_some, hcolumns _ (.of_empty _), Sql.expect_append,
    hrows, hconflicts, hreturning]
  rfl

theorem assignment_reads (a : Column × Param) :
    Reads readAssignment [a.1.token, .symbol .eq, a.2.token] a [] :=
  fun _ _ => rfl

theorem UpdateStatement.read_tokens {fuel : Nat} {s : UpdateStatement}
    (hfuel : s.tokens.length ≤ fuel)
    (h : Sound (Cond.groupSizesAll s.conditions) s.demands) :
    UpdateStatement.read fuel s.tokens = some (s, []) := by
  have hclauses := h.demands_left
  -- an UPDATE without assignments has a flaw
  have hne : s.assignments ≠ [] := by
    intro he
    have hfront := hclauses.demands_left
    rw [he] at hfront
    exact hfront.not_flaw
  rw [s.tokens_eq, whereTokens_eq] at hfuel ⊢
  simp only [List.length_append, List.length_cons] at hfuel
  have hreturning := returning_reads s.returning [] .nil
  have hreturningNext {stop : Tokens} (hs : .keyword .RETURNING ∉ stop) :
      Avoids stop (returningTokens s.returning ++ []) :=
    .append (returningTokens_avoids hs _) .nil
  have hwhere := conjunction_reads fuel .WHERE (by omega) (Cond.readable_each hclauses.demands_right)
    (returningTokens s.returning ++ []) (hreturningNext (by decide))
  have hwhereNext : Avoids [.symbol .comma]
      (clauseTokens [.keyword .WHERE] (.keyword .AND) Cond.tokens s.conditions
        ++ (returningTokens s.returning ++ [])) :=
    .append (.clauseTokens (by decide) _ _) (hreturningNext (by decide))
  have hassignments := Sql.separated_intercalate (fun a _ => assignment_reads a) List.not_mem_nil
    hwhereNext fun he => absurd he hne
  -- each part reads its own tokens and leaves the rest to the next
  unfold UpdateStatement.read
  rw [readTable_behind]
  simp only [Option.bind_eq_bind, Option.bind_some, Sql.expect_append, hassignments, hwhere,
    hreturning]
  rfl

theorem DeleteStatement.read_tokens {fuel : Nat} {s : DeleteStatement}
    (hfuel : s.tokens.length ≤ fuel)
    (h : Sound (Cond.groupSizesAll s.conditions) s.demands) :
    DeleteStatement.read fuel s.tokens = some (s, []) := by
  have htokens : s.tokens = [Token.keyword .DELETE, .keyword .FROM]
      ++ (Token.identifier s.table :: (whereTokens s.conditions ++ [])) := by
    simp [tokens, Sql.keywords]
  rw [htokens, whereTokens_eq] at hfuel ⊢
  simp only [List.length_append, List.length_cons] at hfuel
  have hwhere := conjunction_reads fuel .WHERE (by omega) (Cond.readable_each h) [] .nil
  unfold DeleteStatement.read
  rw [readTable_behind]
  simp only [Option.bind_eq_bind, Option.bind_some, hwhere]
  rfl

/-! ## Compound statements -/

theorem ParamName.outOfOperand_inOperand (index : Nat) (name : String) :
    outOfOperand index (inOperand index name) = name := by
  unfold outOfOperand inOperand
  rw [String.toList_append, List.drop_left, String.ofList_toList]

theorem readOperand_operandOf (fuel index : Nat) {s : SelectStatement}
    (hfuel : s.tokens.length ≤ fuel) (h : Sound s.groupSizes s.demands) :
    readOperand fuel index (operandOf id index s) = some s := by
  have htokens : (operandOf id index s).map (Token.map (ParamName.outOfOperand index)) =
      s.tokens := by
    rw [operandOf, Sql.map_tokenMap, Sql.map_tokenMap]
    exact Sql.map_eq_self fun p _ => ParamName.outOfOperand_inOperand index p
  rw [readOperand, htokens, readAll, SelectStatement.read_tokens hfuel h]

theorem readOperands_chainOf (fuel index : Nat) (rest : List (SetOp × SelectStatement))
    (hfuel : (restTokens index rest).length ≤ fuel)
    (h : ∀ x ∈ rest, Sound x.2.groupSizes x.2.demands) :
    readOperands fuel index (chainOf id index rest) = some rest := by
  induction rest generalizing index with
  | nil => rfl
  | cons x rest ih =>
    obtain ⟨op, s⟩ := x
    simp only [restTokens, operandTokens, Sql.parenthesized, List.length_append, List.length_cons,
      List.length_map] at hfuel
    have hs : Sound s.groupSizes s.demands := h (op, s) List.mem_cons_self
    have hfirst := readOperand_operandOf fuel index (by omega) hs
    have hrest := ih (index + 1) (by omega) fun x hx => h x (.tail _ hx)
    rw [chainOf_cons, readOperands]
    simp only [Option.bind_eq_bind, Option.bind_some, hfirst, hrest]
    rfl

theorem CompoundStatement.sound {c : CompoundStatement}
    (h : Sound (c.operands.flatMap (·.groupSizes) ++ OrderItem.groupSizesAll c.orderBy) c.demands) :
    Sound c.first.groupSizes c.first.demands ∧
      (∀ x ∈ c.rest, Sound x.2.groupSizes x.2.demands) ∧ ∀ o ∈ c.orderBy, o.Readable := by
  have hoperand (s : SelectStatement) (hs : s ∈ c.operands) : Sound s.groupSizes s.demands :=
    (h.left.each hs).demands_right
  refine ⟨hoperand _ List.mem_cons_self, fun x hx => ?_, OrderItem.readable_each h.right⟩
  exact hoperand _ (.tail _ (List.mem_map_of_mem hx))

theorem CompoundStatement.read_tokens {fuel : Nat} {c : CompoundStatement}
    (hfuel : c.tokens.length ≤ fuel)
    (h : Sound (c.operands.flatMap (·.groupSizes) ++ OrderItem.groupSizesAll c.orderBy) c.demands) :
    CompoundStatement.read fuel c.tokens = some (c, []) := by
  obtain ⟨hfirst, hrest, horder⟩ := CompoundStatement.sound h
  obtain ⟨us, hreadFirst, hreadRest⟩ := readOperands_compound id c
  have hid (ts : Tokens) : ts.map (Token.map id) = ts := Sql.map_eq_self fun _ _ => rfl
  rw [hid] at hreadFirst hreadRest
  simp only [CompoundStatement.tokens, operandTokens, Sql.parenthesized, List.length_append,
    List.length_cons, List.length_map] at hfuel
  -- each operand is cut out by its parentheses first, and read then
  have hhead := readOperand_operandOf fuel 0 (by omega) hfirst
  have hchain := readOperands_chainOf fuel 1 c.rest (by omega) hrest
  have htail := tail_reads fuel c.limit c.offset (by omega) horder [] .nil
  rw [List.append_nil] at htail
  unfold CompoundStatement.read
  rw [hreadFirst]
  simp only [Option.bind_eq_bind, Option.bind_some, hreadRest, hhead, hchain, htail]
  rfl

/-! ## All statements -/

/-- Every statement without a flaw whose groups have at least two members is read back from its
tokens. -/
theorem Statement.read_tokens {s : Statement} (h : Sound s.groupSizes s.demands) :
    Statement.read s.tokens = some s := by
  cases s with
  | select s =>
    show (readAll (SelectStatement.read s.tokens.length) s.tokens).map Statement.select = _
    rw [readAll, SelectStatement.read_tokens (Nat.le_refl _) h]
    rfl
  | insert s =>
    show (readAll InsertStatement.read s.tokens).map Statement.insert = _
    rw [readAll, InsertStatement.read_tokens h]
    rfl
  | update s =>
    show (readAll (UpdateStatement.read s.tokens.length) s.tokens).map Statement.update = _
    rw [readAll, UpdateStatement.read_tokens (Nat.le_refl _) h]
    rfl
  | delete s =>
    show (readAll (DeleteStatement.read s.tokens.length) s.tokens).map Statement.delete = _
    rw [readAll, DeleteStatement.read_tokens (Nat.le_refl _) h]
    rfl
  | compound s =>
    show (readAll (CompoundStatement.read s.tokens.length) s.tokens).map Statement.compound = _
    rw [readAll, CompoundStatement.read_tokens (Nat.le_refl _) h]
    rfl

/-- The text and the names that tokens are sent with give the tokens again. -/
theorem Rendered.tokens_ofTokens (ts : Tokens) : (Rendered.ofTokens ts).tokens = some ts := by
  obtain ⟨hparams, hsql⟩ := Rendered.ofTokens_eq ts
  generalize Rendered.ofTokens ts = o at hparams hsql
  have hname (p : String) (hp : p ∈ Sql.paramsOf ts) :
      (o.params[Draft.rank o.params p - 1]?).getD "" = p := by
    have hmem : p ∈ o.params := by
      rw [hparams]
      exact List.mem_eraseDups.2 hp
    rw [Draft.getElem?_rank hmem]
    rfl
  unfold tokens
  rw [hsql, Sql.scan_textOf, Option.map_some, numbered, Sql.map_tokenMap]
  exact congrArg some (Sql.map_eq_self hname)

/-- The decoder finds the statement that was written. -/
theorem Renderer.decode_rendered {r : Renderer} {s : Statement} {o : Rendered}
    (h : r.render s = .ok o) (hs : ∀ n ∈ s.groupSizes, 2 ≤ n) : o.decode = some s := by
  obtain ⟨rfl, hmeets⟩ := render_ok h
  have hflawless (f : Flaw) : .flaw f ∉ s.demands := by
    intro hf
    have hmet := hmeets _ hf
    cases hmet
  rw [Rendered.decode, Rendered.tokens_ofTokens]
  exact Statement.read_tokens ⟨hs, hflawless⟩

/-- A text and the names sent with it come from one statement only, whichever renderers are used:
the decoder finds it. -/
theorem Renderer.decode_of_render {r : Renderer} {s : Statement} {o : Rendered}
    (h : r.render s = .ok o) (hs : ∀ n ∈ s.groupSizes, 2 ≤ n) :
    o.decode = some s ∧
      ∀ (r' : Renderer) (s' : Statement), r'.render s' = .ok o → (∀ n ∈ s'.groupSizes, 2 ≤ n) →
        s' = s := by
  refine ⟨decode_rendered h hs, fun r' s' h' hs' => ?_⟩
  have hsame := (decode_rendered h' hs').symm.trans (decode_rendered h hs)
  exact Option.some.inj hsame

/-- A compound statement whose operands name their parameters alike, with an output name that has a
quote in it, and a comparison that looks like a group next to a group that looks like it. -/
theorem Renderer.decode_of_render_compound :
    let age : Cond := .compare ⟨"age"⟩ .eq ⟨"age"⟩
    let first : SelectStatement :=
      { table := "users"
        items := [⟨.aggregate .countDistinct (some (.column ⟨"id"⟩)) none none, some "a\"b"⟩]
        conditions := [.nullSafeEq ⟨"age"⟩ ⟨"age"⟩, .group .or [age, .null ⟨"age"⟩ false]] }
    let s : Statement := .compound
      { first, rest := [(.exceptAll, { table := "users", conditions := [age] })]
        limit := some (.param ⟨"q0_age"⟩) }
    let o := Rendered.ofTokens s.tokens
    (Renderer.ofDialect .postgres).render s = .ok o ∧ (∀ n ∈ s.groupSizes, 2 ≤ n) ∧
      o.decode = some s := by
  intro age first s o
  have hok : (ofDialect .postgres).render s = .ok o := rfl
  have hwide : ∀ n ∈ s.groupSizes, 2 ≤ n := by decide
  exact ⟨hok, hwide, (decode_of_render hok hwide).1⟩

end CheckedSql
