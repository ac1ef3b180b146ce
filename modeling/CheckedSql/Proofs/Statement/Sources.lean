/-
Where the names and the numbers in the tokens of a statement come from. A statement is within its
sources if each of its identifiers is one of their names and plain, each of its numbers is one of
theirs, and each of its parameters has a plain name. Whatever puts sequences together keeps to the
sources of its parts.
-/
import CheckedSql.Proofs.Sql.Scan
import CheckedSql.Proofs.Statement.Parts

namespace CheckedSql

open Sql (Token Keyword Symbol clauseTokens)

/-! ## Names told apart -/

namespace Ident

theorem isPlain_append {name more : String} (h : isPlain name = true)
    (hmore : more.toList.all isPart = true) : isPlain (name ++ more) = true := by
  unfold isPlain at h ⊢
  rw [String.toList_append]
  cases hname : name.toList with
  | nil => rw [hname] at h; cases h
  | cons c cs =>
    rw [hname] at h
    rw [Bool.and_eq_true] at h
    rw [List.cons_append, Bool.and_eq_true, List.all_append, Bool.and_eq_true]
    exact ⟨h.1, h.2, hmore⟩

theorem digits_part (n : Nat) : (toString n).toList.all isPart = true := by
  have hdigits : (toString n).toList = Nat.toDigits 10 n := by simp
  rw [hdigits]
  exact Sql.digits_all_part (fun _ h => h) n

end Ident

namespace ParamName

/-- A plain name stays plain in an operand. -/
theorem inOperand_plain (index : Nat) {name : String} (h : Ident.isPlain name = true) :
    Ident.isPlain (inOperand index name) = true := by
  have hnumber : Ident.isPlain ("q" ++ toString index) = true :=
    Ident.isPlain_append (by decide) (Ident.digits_part index)
  have hqualifier : Ident.isPlain (operandQualifier index) = true := by
    rw [operandQualifier]
    exact Ident.isPlain_append hnumber (by decide)
  rw [inOperand]
  exact Ident.isPlain_append hqualifier (Sql.plain_all (fun _ h => h) h)

/-- A plain name stays plain in a row. -/
theorem inRow_plain (index : Nat) {name : String} (h : Ident.isPlain name = true) :
    Ident.isPlain (inRow index name) = true := by
  rw [inRow]
  exact Ident.isPlain_append (Ident.isPlain_append h (by decide)) (Ident.digits_part index)

end ParamName

/-! ## Sources of tokens -/

/-- The names and the numbers that the tokens of a statement may hold. -/
structure Sources where
  names : List String
  numbers : List Nat

namespace Sources

/-- A token that holds no other name or number. -/
def Allows (v : Sources) : Token String → Prop
  | .identifier name => Ident.isPlain name = true ∧ name ∈ v.names
  | .param name => Ident.isPlain name = true
  | .number n => n ∈ v.numbers
  | .keyword _ | .call _ | .symbol _ => True

/-- Tokens that hold no other names or numbers. -/
def Within (v : Sources) (ts : Tokens) : Prop :=
  ∀ t ∈ ts, v.Allows t

variable {v : Sources}

@[simp]
theorem allows_keyword (k : Keyword) : v.Allows (.keyword k) :=
  trivial

@[simp]
theorem allows_call (k : Keyword) : v.Allows (.call k) :=
  trivial

@[simp]
theorem allows_symbol (s : Symbol) : v.Allows (.symbol s) :=
  trivial

@[simp]
theorem within_nil : v.Within [] := by
  rintro t ⟨⟩

@[simp]
theorem within_cons {t : Token String} {ts : Tokens} :
    v.Within (t :: ts) ↔ v.Allows t ∧ v.Within ts :=
  List.forall_mem_cons

@[simp]
theorem within_append {ts us : Tokens} : v.Within (ts ++ us) ↔ v.Within ts ∧ v.Within us :=
  List.forall_mem_append

@[simp]
theorem within_parenthesized {ts : Tokens} : v.Within (Sql.parenthesized ts) ↔ v.Within ts := by
  simp [Sql.parenthesized]

@[simp]
theorem within_keywords (ks : List Keyword) : v.Within (Sql.keywords ks) := by
  intro t ht
  obtain ⟨k, -, rfl⟩ := List.mem_map.1 ht
  exact v.allows_keyword k

theorem Within.append {ts us : Tokens} (ht : v.Within ts) (hu : v.Within us) :
    v.Within (ts ++ us) :=
  within_append.2 ⟨ht, hu⟩

theorem Within.intercalate {sep : Tokens} (hsep : v.Within sep) {tss : List Tokens}
    (h : ∀ ts ∈ tss, v.Within ts) : v.Within (sep.intercalate tss) := by
  induction tss with
  | nil => exact within_nil
  | cons ts tss ih =>
    have hts := h ts List.mem_cons_self
    have hrest := ih fun us hus => h us (.tail _ hus)
    -- a separator stands only between two, so the last has none
    cases tss with
    | nil => rwa [List.intercalate_singleton]
    | cons us tss =>
      rw [List.intercalate_cons_cons, within_append, within_append]
      exact ⟨⟨hts, hsep⟩, hrest⟩

section

variable {α : Type} {write : α → Tokens} {xs : List α}

theorem Within.commaSeparated (h : ∀ x ∈ xs, v.Within (write x)) :
    v.Within (Sql.commaSeparated (xs.map write)) :=
  .intercalate (by simp) (List.forall_mem_map.2 h)

theorem Within.clauseTokens {lead : Tokens} {sep : Token String} (hlead : v.Within lead)
    (hsep : v.Allows sep) (h : ∀ x ∈ xs, v.Within (write x)) :
    v.Within (clauseTokens lead sep write xs) := by
  unfold Sql.clauseTokens
  split
  · exact within_nil
  · rw [within_append]
    exact ⟨hlead, .intercalate (by simpa using hsep) (List.forall_mem_map.2 h)⟩

end

/-! ## Conditions and expressions -/

@[simp]
theorem within_operator (op : Operator) : v.Within (op.tokens : Tokens) := by
  cases op <;> simp [Operator.tokens]

theorem Within.columns {cs : List Column} (h : ∀ c ∈ cs, v.Allows c.token) :
    v.Within (columnTokens cs) :=
  .commaSeparated fun c hc => by simpa using h c hc

theorem Within.comparison (op : Operator) {p : Param} (h : v.Allows p.token) :
    v.Within (comparisonTokens op p) := by
  unfold comparisonTokens
  split <;> simp [h]

theorem Within.aggregate (fn : AggregateFn) {arg : Option Tokens}
    (h : ∀ ts ∈ arg, v.Within ts) : v.Within (aggregateTokens fn arg) := by
  unfold aggregateTokens
  cases arg with
  | none => simp
  | some ts =>
    have hts := h ts rfl
    by_cases hfn : fn = .countDistinct <;> simp [hfn, hts]

/-- Conditions joined to one are within the sources of each of them. -/
theorem Within.ofMembers {junction : Junction} {cs : List Cond}
    (h : ∀ c ∈ cs, v.Within c.tokens) : ∀ c ∈ Cond.ofMembers junction cs, v.Within c.tokens := by
  intro c hc
  unfold Cond.ofMembers at hc
  split at hc
  · cases hc
  · cases hc
    exact h c List.mem_cons_self
  · cases hc
    rw [Cond.tokens, Cond.tokensEach_eq_map, within_parenthesized]
    exact .intercalate (by simp) (List.forall_mem_map.2 h)

theorem Within.conditions (k : Keyword) {cs : List Cond} (h : ∀ c ∈ cs, v.Within c.tokens) :
    v.Within (Sql.clauseTokens [.keyword k] (.keyword .AND) Cond.tokens cs) :=
  .clauseTokens (by simp) (allows_keyword _) h

theorem Within.columnClause (lead : List Keyword) {cs : List Column}
    (h : ∀ c ∈ cs, v.Allows c.token) :
    v.Within (Sql.clauseTokens (Sql.keywords lead) (.symbol .comma) (fun c => [c.token]) cs) :=
  .clauseTokens (within_keywords lead) (allows_symbol _) fun c hc => by simpa using h c hc

theorem Within.orderClause {os : List OrderItem} (h : ∀ o ∈ os, v.Within o.tokens) :
    v.Within (Sql.clauseTokens [.keyword .ORDER, .keyword .BY] (.symbol .comma)
      OrderItem.tokens os) :=
  .clauseTokens (by simp) (allows_symbol _) h

theorem Within.window {partitionBy : List Column} {orderBy : List OrderItem}
    (hpartition : ∀ c ∈ partitionBy, v.Allows c.token)
    (horder : ∀ o ∈ orderBy, v.Within o.tokens) :
    v.Within (Window.mk partitionBy orderBy).tokens := by
  have hcolumns := Within.columnClause [.PARTITION, .BY] hpartition
  rw [Window.tokens_eq, within_cons, within_parenthesized, within_append]
  exact ⟨allows_keyword _, hcolumns, .orderClause horder⟩

theorem Within.filter {filter : Option Cond} (h : ∀ c ∈ filter, v.Within c.tokens) :
    v.Within (filterTokens filter) := by
  cases filter with
  | none => exact within_nil
  | some c => simpa [filterTokens] using h c rfl

theorem Within.aggregateExpr (fn : AggregateFn) {arg : Option Expr} {filter : Option Cond}
    {window : Option Window} (harg : ∀ e ∈ arg, v.Within e.tokens)
    (hfilter : ∀ c ∈ filter, v.Within c.tokens) (hwindow : v.Within (Window.tokens? window)) :
    v.Within (Expr.aggregate fn arg filter window).tokens := by
  have hcall : v.Within (aggregateTokens fn (arg.map Expr.tokens)) := by
    refine .aggregate fn fun ts hts => ?_
    obtain ⟨e, he, rfl⟩ := Option.map_eq_some_iff.1 hts
    exact harg e he
  rw [Expr.tokens_aggregate, within_append, within_append]
  exact ⟨⟨hcall, .filter hfilter⟩, hwindow⟩

/-! ## Statements -/

theorem within_tail {orderBy : List OrderItem} {limit offset : Option Bound}
    (horder : ∀ o ∈ orderBy, v.Within o.tokens) (hlimit : ∀ b ∈ limit, v.Allows b.token)
    (hoffset : ∀ b ∈ offset, v.Allows b.token) : v.Within (tailTokens orderBy limit offset) := by
  have hbound (k : Keyword) {b : Option Bound} (h : ∀ x ∈ b, v.Allows x.token) :
      v.Within (boundTokens k b) := by
    cases b with
    | none => exact within_nil
    | some b => simpa [boundTokens] using h b rfl
  rw [tailTokens, within_append, within_append, orderByTokens_eq]
  exact ⟨⟨.orderClause horder, hbound _ hlimit⟩, hbound _ hoffset⟩

/-- A SELECT of which every part is within the sources. -/
structure Select (v : Sources) (s : SelectStatement) : Prop where
  table : v.Allows (.identifier s.table)
  items : ∀ i ∈ s.items, v.Within i.tokens
  conditions : ∀ c ∈ s.conditions, v.Within c.tokens
  groupBy : ∀ c ∈ s.groupBy, v.Allows c.token
  having : ∀ c ∈ s.having, v.Within c.tokens
  orderBy : ∀ o ∈ s.orderBy, v.Within o.tokens
  limit : ∀ b ∈ s.limit, v.Allows b.token
  offset : ∀ b ∈ s.offset, v.Allows b.token

theorem Select.within {s : SelectStatement} (h : v.Select s) : v.Within s.tokens := by
  have hitems : v.Within (if s.items.isEmpty then [.symbol .star]
      else Sql.commaSeparated (s.items.map SelectItem.tokens)) := by
    split
    · simp
    · exact .commaSeparated h.items
  have hsource : v.Within (sourceTokens s.distinct s.items s.table) := by
    have hdistinct : v.Within (if s.distinct then [.keyword .DISTINCT] else []) := by
      split <;> simp
    have hfrom : v.Within ([Token.keyword .FROM] ++ [Token.identifier s.table]) := by
      simpa using h.table
    exact .append (by simp) (hdistinct.append (hitems.append hfrom))
  have hrows : v.Within (whereTokens s.conditions
      ++ (groupByTokens s.groupBy ++ havingTokens s.having)) := by
    rw [whereTokens_eq, havingTokens_eq]
    exact (Within.conditions _ h.conditions).append
      ((Within.columnClause [.GROUP, .BY] h.groupBy).append (.conditions _ h.having))
  have hlock : v.Within (lockTokens s.lock) := by
    cases s.lock <;> simp [lockTokens]
  rw [s.tokens_eq]
  exact hsource.append (hrows.append
    ((within_tail h.orderBy h.limit h.offset).append (hlock.append within_nil)))

theorem within_returning {cs : List Column} (h : ∀ c ∈ cs, v.Allows c.token) :
    v.Within (returningTokens cs) :=
  .columnClause [.RETURNING] h

/-- A conflict clause of which every column is within the sources. -/
inductive OnConflict (v : Sources) : Conflict → Prop
  | skip {target : List Column} : (∀ c ∈ target, v.Allows c.token) → OnConflict v (.skip target)
  | overwrite {target columns : List Column} : (∀ c ∈ target, v.Allows c.token) →
      (∀ c ∈ columns, v.Allows c.token) → OnConflict v (.overwrite target columns)

theorem OnConflict.target {c : Conflict} (h : v.OnConflict c) :
    ∀ x ∈ c.target, v.Allows x.token := by
  cases h with
  | skip htarget => exact htarget
  | overwrite htarget _ => exact htarget

theorem OnConflict.within {c : Conflict} (h : v.OnConflict c) : v.Within c.tokens := by
  have htarget : v.Within (targetTokens c.target) := by
    unfold targetTokens
    split
    · exact within_nil
    · rw [within_parenthesized]
      exact .columns h.target
  have haction : v.Within c.actionTokens := by
    cases h with
    | skip _ => simp [Conflict.actionTokens]
    | overwrite _ hcolumns =>
      rw [Conflict.actionTokens, within_append]
      exact ⟨by simp, .commaSeparated fun c hc => by simp [hcolumns c hc]⟩
  rw [c.tokens_eq]
  simp [htarget, haction]

/-- An INSERT of which every part is within the sources. -/
structure Insert (v : Sources) (s : InsertStatement) : Prop where
  table : v.Allows (.identifier s.table)
  columns : ∀ c ∈ s.columns, v.Allows c.token
  rows : ∀ row ∈ s.rows, ∀ p ∈ row, v.Allows p.token
  conflict : ∀ c ∈ s.conflict, v.OnConflict c
  returning : ∀ c ∈ s.returning, v.Allows c.token

theorem Insert.within {s : InsertStatement} (h : v.Insert s) : v.Within s.tokens := by
  have hcolumns : v.Within (columnTokens s.columns) := .columns h.columns
  have hrows : v.Within (Sql.commaSeparated (s.rows.map fun row =>
      Sql.parenthesized (Sql.commaSeparated (row.map fun p => [p.token])))) := by
    refine .commaSeparated fun row hrow => ?_
    rw [within_parenthesized]
    exact .commaSeparated fun p hp => by simpa using h.rows row hrow p hp
  have hconflict : v.Within (conflictTokens s.conflict) := by
    cases hc : s.conflict with
    | none => exact within_nil
    | some c => exact (h.conflict c hc).within
  have htail := hconflict.append ((within_returning h.returning).append within_nil)
  have hvalues : v.Within ([.keyword .VALUES] : Tokens) := by simp
  have hlead : v.Within ([.keyword .INSERT, .keyword .INTO] : Tokens) := by simp
  rw [s.tokens_eq]
  refine hlead.append (within_cons.2 ⟨h.table, ?_⟩)
  exact (within_parenthesized.2 hcolumns).append (hvalues.append (hrows.append htail))

theorem within_update {s : UpdateStatement} (htable : v.Allows (.identifier s.table))
    (hassignments : ∀ a ∈ s.assignments, v.Allows a.1.token ∧ v.Allows a.2.token)
    (hconditions : ∀ c ∈ s.conditions, v.Within c.tokens)
    (hreturning : ∀ c ∈ s.returning, v.Allows c.token) : v.Within s.tokens := by
  have hassign : v.Within (Sql.commaSeparated
      (s.assignments.map fun a => [a.1.token, .symbol .eq, a.2.token])) :=
    .commaSeparated fun a ha => by simp [hassignments a ha]
  have htail := (Within.conditions .WHERE hconditions).append
    ((within_returning hreturning).append within_nil)
  have hset : v.Within ([.keyword .SET] : Tokens) := by simp
  have hlead : v.Within ([.keyword .UPDATE] : Tokens) := by simp
  rw [s.tokens_eq, whereTokens_eq]
  exact hlead.append (within_cons.2 ⟨htable, hset.append (hassign.append htail)⟩)

theorem within_delete {s : DeleteStatement} (htable : v.Allows (.identifier s.table))
    (hconditions : ∀ c ∈ s.conditions, v.Within c.tokens) : v.Within s.tokens := by
  unfold DeleteStatement.tokens
  rw [whereTokens_eq]
  simp only [within_append, within_cons, within_keywords, true_and]
  exact ⟨htable, .conditions _ hconditions⟩

theorem Within.inOperand (index : Nat) {ts : Tokens} (h : v.Within ts) :
    v.Within (ts.map (Token.map (ParamName.inOperand index))) := by
  refine List.forall_mem_map.2 fun t ht => ?_
  have hallows := h t ht
  cases t with
  | param name => exact ParamName.inOperand_plain index hallows
  | _ => exact hallows

theorem within_compound {s : CompoundStatement} (hfirst : v.Within s.first.tokens)
    (hrest : ∀ x ∈ s.rest, v.Within x.2.tokens) (horder : ∀ o ∈ s.orderBy, v.Within o.tokens)
    (hlimit : ∀ b ∈ s.limit, v.Allows b.token) (hoffset : ∀ b ∈ s.offset, v.Allows b.token) :
    v.Within s.tokens := by
  have hoperand (index : Nat) {x : SelectStatement} (h : v.Within x.tokens) :
      v.Within (operandTokens index x) := by
    rw [operandTokens, within_parenthesized]
    exact h.inOperand index
  have hchain (rest : List (SetOp × SelectStatement)) (h : ∀ x ∈ rest, v.Within x.2.tokens)
      (index : Nat) : v.Within (restTokens index rest) := by
    induction rest generalizing index with
    | nil => exact within_nil
    | cons x rest ih =>
      obtain ⟨op, x⟩ := x
      have hx : v.Within x.tokens := h (op, x) List.mem_cons_self
      have hmore := ih (fun y hy => h y (.tail _ hy)) (index + 1)
      rw [restTokens, within_append, within_append]
      exact ⟨⟨within_keywords _, hoperand index hx⟩, hmore⟩
  rw [CompoundStatement.tokens, within_append, within_append]
  exact ⟨⟨hoperand 0 hfirst, hchain s.rest hrest 1⟩, within_tail horder hlimit hoffset⟩

end Sources

end CheckedSql
