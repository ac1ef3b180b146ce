/-
The filter of an aggregate. Filters that are given one after the other are one filter that joins
them by AND: they are resolved in the same order and fail alike, and what is left of them is the
same condition. Filters that say nothing leave no FILTER behind, and ask for none of the dialect.
-/
import CheckedSql.Proofs.Query.Writes
import CheckedSql.Proofs.Refusal

namespace CheckedSql

open Check (firstFault)
open Sql (Token)

variable {s : Schema}

/-! ## Conditions joined twice -/

/-- What is left of conditions that are joined by AND, joined once more, is the same. -/
theorem Cond.all_toList (cs : List Cond) : Cond.all (Cond.all cs).toList = Cond.all cs := by
  match cs with
  | [] | [_] | _ :: _ :: _ => rfl

/-- A group fails with the first of its members that does. -/
theorem Condition.firstFault_group (junction : Junction) (cs : List Condition) :
    cs.findSome? (fun c => firstFault s c.checks) =
      firstFault s (Condition.group junction cs).checks := by
  induction cs with
  | nil => rfl
  | cons c cs ih =>
    have hchecks : (group junction (c :: cs)).checks = c.checks ++ (group junction cs).checks :=
      List.flatMap_append
    rw [hchecks, Check.firstFault_append, ← ih, List.findSome?_cons]
    cases firstFault s c.checks <;> rfl

/-- Conditions resolve if their group does. -/
theorem Condition.resolveAll_ok {junction : Junction} {cs : List Condition}
    (h : firstFault s (Condition.group junction cs).checks = none) :
    ∃ rs, resolveAll s cs = .ok rs := by
  have hgroup : faultOf ((group junction cs).resolve s) = faultOf (resolveAll s cs) :=
    faultOf_bind_ok fun _ => rfl
  rw [← faultOf_eq_none, ← hgroup, faultOf_resolve_checks, h]

theorem Condition.resolveAll_of_no_leaf {cs : List Condition} (h : ∀ c ∈ cs, c.leaves = []) :
    resolveAll s cs = .ok [] := by
  induction cs with
  | nil => rfl
  | cons c cs ih =>
    obtain ⟨hc, hcs⟩ := List.forall_mem_cons.1 h
    rw [resolveAll_cons_of_no_leaf hc, ih hcs]

/-! ## A dialect with and without FILTER -/

/-- The table, in a dialect that has FILTER or not. -/
def Table.filtering (t : Table) (supported : Bool) : Table :=
  { t with
    renderer :=
      { t.renderer with
        capabilities := { t.renderer.capabilities with aggregateFilter := supported } } }

/-- Conditions do not ask for FILTER. -/
theorem Table.meets_filtering (t : Table) (supported : Bool) {d : Demand} (h : d.OfCondition) :
    (t.filtering supported).renderer.meets d = t.renderer.meets d := by
  cases d with
  | flaw f => rfl
  | feature f =>
    cases f with
    | aggregateFilter => exact h.elim
    | _ => rfl

/-! ## Texts without FILTER -/

theorem Operator.filter_not_mem (op : Operator) :
    (.keyword .FILTER : Token String) ∉ op.tokens := by
  cases op <;> simp [tokens]

theorem comparisonTokens_filter_not_mem (op : Operator) (p : Param) :
    (.keyword .FILTER : Token String) ∉ comparisonTokens op p := by
  cases op <;> simp [comparisonTokens, Operator.tokens, Param.token]

theorem aggregateTokens_filter_not_mem (fn : AggregateFn) (column : Option Column) :
    (.keyword .FILTER : Token String) ∉ aggregateTokens fn (column.map fun c => [c.token]) := by
  cases column <;> cases fn <;> simp [aggregateTokens, Column.token]

mutual

theorem Cond.filter_not_mem : ∀ c : Cond, .keyword .FILTER ∉ c.tokens
  | .compare column op param => by
    simp [Cond.tokens, Column.token, comparisonTokens_filter_not_mem]
  | .compareColumns left op right => by simp [Cond.tokens, Column.token, Operator.filter_not_mem]
  | .null column negated => by cases negated <;> simp [Cond.tokens, Column.token, Sql.keywords]
  | .nullSafeEq column param => by
    simp [Cond.tokens, Column.token, Param.token, Sql.keywords, Sql.parenthesized]
  | .between column low high negated => by
    cases negated <;> simp [Cond.tokens, Column.token, Param.token, Sql.keywords]
  | .aggregate fn column op param => by
    simp [Cond.tokens, aggregateTokens_filter_not_mem, comparisonTokens_filter_not_mem]
  | .group junction members => by
    have hmembers : .keyword .FILTER ∉ [.keyword junction.keyword].intercalate
        (Cond.tokensEach members) :=
      Sql.not_mem_intercalate (by cases junction <;> simp [Junction.keyword])
        (Cond.filter_not_mem_each members)
    simp [Cond.tokens, Sql.parenthesized, hmembers]

theorem Cond.filter_not_mem_each :
    ∀ cs : List Cond, ∀ ts ∈ Cond.tokensEach cs, .keyword .FILTER ∉ ts
  | [] => List.forall_mem_nil _
  | c :: cs => List.forall_mem_cons.2 ⟨c.filter_not_mem, Cond.filter_not_mem_each cs⟩

end

theorem whereTokens_filter_not_mem (cs : List Cond) : .keyword .FILTER ∉ whereTokens cs := by
  have hconjunction : .keyword .FILTER ∉ conjunctionTokens cs :=
    Sql.not_mem_intercalate (by simp) (Cond.filter_not_mem_each cs)
  unfold whereTokens
  split
  · exact List.not_mem_nil
  · simp [hconjunction]

namespace AggregateQuery

/-- Clauses without a filter. -/
theorem Clauses.demands_unfiltered {c : Clauses} (h : c.filter = []) :
    ∀ d ∈ (c.statement s).demands, d.OfCondition := by
  have hvalue : ∀ d ∈ (Expr.aggregate c.fn (c.column.map Expr.column) none none).demands,
      d.OfCondition := by
    cases hcolumn : c.column with
    | none => simpa [Expr.demands, Window.demands?] using c.fn.demands_ofCondition
    | some column => simp [Expr.demands, Window.demands?]
  have hconditions := Cond.demandsAll_ofCondition c.conditions
  have hdemands : (c.statement s).demands =
      (Expr.aggregate c.fn (c.column.map Expr.column) none none).demands ++
        Cond.demandsAll c.conditions := by
    simp [statement, SelectStatement.demands, Expr.demands, h, Cond.all, Cond.ofMembers,
      Cond.demandsAll, OrderItem.demandsAll]
  rw [hdemands]
  exact List.forall_mem_append.2 ⟨hvalue, hconditions⟩

theorem Clauses.filter_not_mem {c : Clauses} (h : c.filter = []) :
    .keyword .FILTER ∉ (c.statement s).tokens := by
  have harg : Expr.tokens? (c.column.map Expr.column) = c.column.map fun c => [c.token] := by
    cases c.column <;> rfl
  have hall : Cond.all c.filter = none := by
    rw [h]
    rfl
  let type : Tokens := .keyword .AS :: Sql.keywords CastType.doublePrecision.keywords
  let name : Tokens := [.symbol .closeParen, .keyword .AS, .identifier outputName]
  have hitem : SelectItem.tokens
      ⟨.cast (.aggregate c.fn (c.column.map Expr.column) none none) .doublePrecision,
        some outputName⟩ =
      .call .CAST :: aggregateTokens c.fn (c.column.map fun c => [c.token]) ++ type ++ name := by
    rw [SelectItem.tokens, Expr.tokens, Expr.tokens, harg]
    simp [Window.tokens?, type, name]
  have htokens : (c.statement s).tokens =
      .keyword .SELECT :: SelectItem.tokens
        ⟨.cast (.aggregate c.fn (c.column.map Expr.column) none none) .doublePrecision,
          some outputName⟩
        ++ [.keyword .FROM, .identifier s.table] ++ whereTokens c.conditions := by
    rw [statement, hall, SelectStatement.tokens]
    simp [Sql.commaSeparated, groupByTokens, havingTokens, tailTokens, orderByTokens, boundTokens]
  -- an aggregate without filter writes keywords, names and the conditions, none of which has one
  rw [htokens, hitem]
  simp [aggregateTokens_filter_not_mem, whereTokens_filter_not_mem, type, name, Sql.keywords,
    CastType.keywords]

/-! ## Filters between conditions -/

/-- Filters after some conditions of the WHERE clause and before others. -/
def between (before : List Condition) (filters : List Call) (after : List Condition) : List Call :=
  before.map .whereCond ++ filters ++ after.map .whereCond

/-- Filters one after the other add what they come to. -/
theorem make_filters {cs : List Condition} {rs : List Cond}
    (h : Condition.resolveAll s cs = .ok rs) (g : Clauses) :
    Chain.make (fun (call : Call) g => Clauses.apply s g call) (cs.map .filter) g =
      { g with filter := g.filter ++ rs } := by
  induction cs generalizing rs g with
  | nil =>
    cases h
    simp [Chain.make]
  | cons c cs ih =>
    obtain ⟨r, hr, h⟩ := bind_ok h
    obtain ⟨more, hmore, h⟩ := bind_ok h
    cases h
    have hstep : g.apply s (.filter c) = .ok { g with filter := g.filter ++ r.toList } := by
      rw [Clauses.apply, attach, hr]
      rfl
    rw [List.map_cons, Chain.make_cons hstep, ih hmore, List.append_assoc]

/-- A group adds what is left of its members, as one condition. -/
theorem make_group {cs : List Condition} {rs : List Cond}
    (h : Condition.resolveAll s cs = .ok rs) (g : Clauses) :
    Chain.make (fun (call : Call) g => Clauses.apply s g call) [.filter (.group .and cs)] g =
      { g with filter := g.filter ++ (Cond.all rs).toList } := by
  have hgroup : Condition.resolveAll s [.group .and cs] = .ok (Cond.all rs).toList := by
    rw [Condition.resolveAll, Condition.resolve, h]
    simp [Condition.resolveAll, Cond.all]
  exact make_filters hgroup g

section

variable {before after : List Condition} {filters : List Call}

theorem filter_between_own (hfilters : ∀ f ∈ filters, f.clause = .filter) :
    (between before filters after).filter (·.clause = .filter) = filters := by
  have hown : filters.filter (·.clause = .filter) = filters :=
    List.filter_eq_self.2 fun f hf => by simp [hfilters f hf]
  have hwhere (c : Condition) : (Call.whereCond c).clause = .conditions := rfl
  simp [between, List.filter_map, Function.comp_def, hwhere, hown]

theorem filter_between_other (hfilters : ∀ f ∈ filters, f.clause = .filter) {k : Clause}
    (hk : k ≠ .filter) :
    (between before filters after).filter (·.clause = k) =
      (between before [] after).filter (·.clause = k) := by
  have hnone : filters.filter (·.clause = k) = [] :=
    List.filter_eq_nil_iff.2 fun f hf => by simpa [hfilters f hf] using Ne.symm hk
  simp [between, hnone]

/-- The conditions around filters do not matter to them, nor they to the conditions. -/
theorem make_between (hfilters : ∀ f ∈ filters, f.clause = .filter)
    (hfault : ∀ c ∈ between before filters after, firstFault s c.checks = none) (g : Clauses) :
    let step := fun (call : Call) g => Clauses.apply s g call
    Chain.make step (between before filters after) g =
      { Chain.make step (between before [] after) g with
        filter := (Chain.make step filters g).filter } := by
  intro step
  have hplain : ∀ c ∈ between before [] after, firstFault s c.checks = none := by
    intro c hc
    refine hfault c ?_
    simp only [between, List.append_nil, List.mem_append] at hc ⊢
    exact hc.elim (fun h => .inl (.inl h)) .inr
  refine (writes s).ext fun k => ?_
  rw [(writes s).get_make_filter hfault rfl]
  by_cases hk : k = .filter
  · subst hk
    rw [filter_between_own hfilters]
    rfl
  · rw [filter_between_other hfilters hk, ← (writes s).get_make_filter hplain rfl]
    cases k with
    | filter => exact absurd rfl hk
    | target | conditions => rfl

end

/-! ## What is sent -/

section

variable {t : Table} {fn : Except BuildError AggregateFn} {column : Option String}

theorem filter_new : (new t fn column).chain.clauses.filter = [] := by
  unfold new
  cases target t.schema fn column <;> rfl

/-- What calls without a fault make. -/
theorem calls_of_fault {xs : List Call} (h : ((new t fn column).calls xs).chain.fault = none) :
    (∀ c ∈ xs, firstFault t.schema c.checks = none) ∧
      ((new t fn column).calls xs).chain.clauses =
        Chain.make (fun call g => Clauses.apply t.schema g call) xs
          (new t fn column).chain.clauses := by
  obtain ⟨htable, -, htarget⟩ := new_eq t fn column
  rw [fault_calls, Option.or_eq_none_iff, List.findSome?_eq_none_iff] at h
  refine ⟨h.2, ?_⟩
  rw [calls_eq, htable, (writes t.schema).foldl_eq_make h.2 (htarget.trans h.1)]

/-- Queries with the same fault, or else the same statement. -/
theorem render_congr {q q' : AggregateQuery} (htable : q'.table = q.table)
    (hfault : q'.chain.fault = q.chain.fault)
    (hstatement : q.chain.fault = none →
      q'.chain.clauses.statement q.table.schema = q.chain.clauses.statement q.table.schema) :
    q'.render = q.render := by
  rw [render, render, Chain.result, Chain.result, hfault, htable]
  cases hq : q.chain.fault with
  | some e => rfl
  | none => exact congrArg (fun st => q.table.renderer.render (.select st)) (hstatement hq)

/-- Filters with the same fault, or else the same conjunction, between the same conditions. -/
theorem render_between {before after : List Condition} {filters filters' : List Call}
    (hfilters : ∀ f ∈ filters, f.clause = .filter) (hfilters' : ∀ f ∈ filters', f.clause = .filter)
    (hfault : filters'.findSome? (fun c => firstFault t.schema c.checks) =
      filters.findSome? fun c => firstFault t.schema c.checks)
    (hall : ∀ g : Clauses, g.filter = [] → (∀ f ∈ filters, firstFault t.schema f.checks = none) →
      Cond.all (Chain.make (fun call g => Clauses.apply t.schema g call) filters' g).filter =
        Cond.all (Chain.make (fun call g => Clauses.apply t.schema g call) filters g).filter) :
    ((new t fn column).calls (between before filters' after)).render =
      ((new t fn column).calls (between before filters after)).render := by
  have hsame : ((new t fn column).calls (between before filters' after)).chain.fault =
      ((new t fn column).calls (between before filters after)).chain.fault := by
    simp only [fault_calls, between, List.findSome?_append, hfault]
  refine render_congr (by rw [table_calls, table_calls]) hsame fun hnone => ?_
  obtain ⟨hxs, hclauses⟩ := calls_of_fault hnone
  obtain ⟨hxs', hclauses'⟩ := calls_of_fault (hsame.trans hnone)
  have hown : ∀ f ∈ filters, firstFault t.schema f.checks = none := fun f hf =>
    hxs f (List.mem_append_left _ (List.mem_append_right _ hf))
  rw [hclauses, hclauses', make_between hfilters hxs, make_between hfilters' hxs', table_calls]
  simp only [Clauses.statement, hall _ filter_new hown]

/-- Filters that say nothing may as well not be there. -/
theorem render_between_of_no_leaf {before cs after : List Condition} (h : ∀ c ∈ cs, c.leaves = []) :
    ((new t fn column).calls (between before (cs.map .filter) after)).render =
      ((new t fn column).calls (between before [] after)).render := by
  refine render_between (List.forall_mem_nil _) (List.forall_mem_map.2 fun _ _ => rfl) ?_ ?_
  · rw [List.findSome?_map]
    refine List.findSome?_eq_none_iff.2 fun c hc => ?_
    show firstFault t.schema c.checks = none
    rw [Condition.checks, h c hc]
    rfl
  · intro g hg _
    rw [make_filters (Condition.resolveAll_of_no_leaf h), List.append_nil]
    rfl

theorem filter_of_result {before after : List Condition} {c : Clauses}
    (h : ((new t fn column).calls (between before [] after)).chain.result = .ok c) :
    c.filter = [] := by
  obtain ⟨hnone, rfl⟩ := Chain.result_ok_iff.1 h
  obtain ⟨hxs, hclauses⟩ := calls_of_fault hnone
  rw [hclauses, make_between (List.forall_mem_nil _) hxs]
  exact filter_new

/-- Nothing but the statement's refusal depends on the dialect. -/
theorem calls_filtering (supported : Bool) (calls : List Call) :
    (new (t.filtering supported) fn column).calls calls =
      { (new t fn column).calls calls with table := t.filtering supported } := by
  have hnew : new (t.filtering supported) fn column =
      { new t fn column with table := t.filtering supported } := by
    have hschema : (t.filtering supported).schema = t.schema := rfl
    rw [new, new, hschema]
    cases target t.schema fn column <;> rfl
  rw [hnew, calls_eq, calls_eq, (new_eq t fn column).1]
  rfl

/-- Without filters the query is the same whether or not the dialect has FILTER. -/
theorem render_filtering (supported : Bool) (before after : List Condition) :
    ((new (t.filtering supported) fn column).calls (between before [] after)).render =
      ((new t fn column).calls (between before [] after)).render := by
  rw [calls_filtering, render, render, table_calls]
  cases hresult : ((new t fn column).calls (between before [] after)).chain.result with
  | error e => rfl
  | ok c =>
    have hdemands := c.demands_unfiltered (s := t.schema) (filter_of_result hresult)
    have hdialect : (t.filtering supported).renderer.dialect = t.renderer.dialect := rfl
    have hrefusal := Renderer.refusal?_congr hdialect fun d hd =>
      t.meets_filtering supported (hdemands d hd)
    show (t.filtering supported).renderer.render (.select (c.statement t.schema)) =
      t.renderer.render (.select (c.statement t.schema))
    rw [Renderer.render_eq, Renderer.render_eq, Statement.demands, hrefusal]

/-- Without filters the text that is sent has no FILTER. -/
theorem filter_not_mem_of_render {before after : List Condition} {o : Rendered}
    (h : ((new t fn column).calls (between before [] after)).render = .ok o) :
    ∃ ts, Sql.scan o.sql = some ts ∧ .keyword .FILTER ∉ ts := by
  obtain ⟨c, hc, h⟩ := bind_ok h
  obtain ⟨ho, -⟩ := Renderer.render_ok h
  have hfilter := filter_of_result (liftBuild_ok hc)
  obtain ⟨-, hsql⟩ := Rendered.ofTokens_eq (Statement.select (c.statement _)).tokens
  rw [← ho] at hsql
  refine ⟨_, by rw [hsql, Sql.scan_textOf], ?_⟩
  exact Sql.not_mem_map_keyword (c.filter_not_mem hfilter) _

/-- Filters are one filter that joins them by AND. Between any conditions of the WHERE clause, with
whatever names and groups in them, the query is sent in the same words with the same names, or is
refused for the same reason. Filters none of which says anything are none at all: the query is that
of the conditions alone, has no FILTER in its text, and is the same whether or not the dialect has
it. -/
theorem render_filters (t : Table) (fn : Except BuildError AggregateFn) (column : Option String)
    (before cs after : List Condition) :
    let each (t : Table) := (new t fn column).calls (between before (cs.map .filter) after)
    let joined := (new t fn column).calls (between before [.filter (.group .and cs)] after)
    (each t).render = joined.render ∧
      ((∀ c ∈ cs, c.leaves = []) →
        (each t).render = ((new t fn column).calls (between before [] after)).render ∧
          (∀ supported, (each (t.filtering supported)).render = (each t).render) ∧
          ∀ o, (each t).render = .ok o → ∃ ts, Sql.scan o.sql = some ts ∧ .keyword .FILTER ∉ ts) := by
  intro each joined
  refine ⟨?_, fun hempty => ?_⟩
  · refine render_between (List.forall_mem_singleton.2 rfl) (List.forall_mem_map.2 fun _ _ => rfl)
      ?_ fun g hg hfault => ?_
    · rw [List.findSome?_map, List.findSome?_singleton]
      exact Condition.firstFault_group .and cs
    · obtain ⟨rs, hrs⟩ := Condition.resolveAll_ok (hfault _ List.mem_cons_self)
      rw [make_filters hrs, make_group hrs, hg, List.nil_append, List.nil_append, Cond.all_toList]
  · have hsame (t : Table) :
        (each t).render = ((new t fn column).calls (between before [] after)).render :=
      render_between_of_no_leaf hempty
    refine ⟨hsame t, fun supported => ?_, fun o ho => ?_⟩
    · exact (hsame (t.filtering supported)).trans
        ((render_filtering supported before after).trans (hsame t).symm)
    · exact filter_not_mem_of_render ((hsame t).symm.trans ho)

/-- In a dialect without FILTER: groups that say nothing between conditions are accepted, with one
more that says something they are refused, and a name that is not found comes before both. -/
theorem render_filters_redshift :
    let schema : Schema :=
      ⟨"users", [⟨"id", true, false⟩, ⟨"email", false, false⟩, ⟨"age", false, true⟩], by decide,
        by decide, by decide, by decide⟩
    let table : Table := { schema, renderer := .ofDialect .redshift }
    let known : Condition := .null "email" true
    let grown : Condition := .compare "age" ">=" "min_age"
    let empty : List Condition := [.group .or [], .group .and [.group .or []]]
    let joined (cs : List Condition) : AggregateQuery :=
      (new table (.ok .count) none).calls [.whereCond known, .filter (.group .and cs)]
    (joined empty).render =
        .ok ⟨"SELECT CAST(COUNT(*) AS DOUBLE PRECISION) AS \"value\" FROM \"users\" "
          ++ "WHERE \"email\" IS NOT NULL", []⟩ ∧
      (joined (grown :: empty)).render =
        .error (.render "aggregate FILTER is not supported by redshift") ∧
      (joined [grown, .null "years" false]).render = .error (.build (.unresolved .field "years")) ∧
      ∃ ts, Sql.scan ("SELECT CAST(COUNT(*) AS DOUBLE PRECISION) AS \"value\" FROM \"users\" "
        ++ "WHERE \"email\" IS NOT NULL") = some ts ∧ .keyword .FILTER ∉ ts := by
  intro schema table known grown empty joined
  have hjoined (cs : List Condition) := (render_filters table (.ok .count) none [known] cs []).1
  have hempty : ∀ c ∈ empty, c.leaves = [] := by
    simp [empty, Condition.leaves, Condition.leavesAll]
  obtain ⟨-, -, htext⟩ := (render_filters table (.ok .count) none [known] empty []).2 hempty
  have hrender : (joined empty).render =
      .ok ⟨"SELECT CAST(COUNT(*) AS DOUBLE PRECISION) AS \"value\" FROM \"users\" "
        ++ "WHERE \"email\" IS NOT NULL", []⟩ :=
    (hjoined empty).symm.trans (by decide +kernel)
  have hscan := htext _ ((hjoined empty).trans hrender)
  exact ⟨hrender, (hjoined (grown :: empty)).symm.trans (by decide +kernel),
    (hjoined [grown, .null "years" false]).symm.trans (by decide +kernel), hscan⟩

end

end AggregateQuery

end CheckedSql
