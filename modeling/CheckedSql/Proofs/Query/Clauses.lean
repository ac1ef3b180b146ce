/-
The clauses that chains of calls make. Each call adds to them what it resolves, an output name it
is given, or a number it is given, and nothing else: clauses within some sources stay within them
under every call whose own names and numbers are among the sources.
-/
import CheckedSql.Proofs.Query.Resolve
import CheckedSql.Query.Aggregate
import CheckedSql.Query.Compound
import CheckedSql.Query.Delete
import CheckedSql.Query.Insert
import CheckedSql.Query.Update

namespace CheckedSql

variable {v : Sources} {s : Schema}

/-! ## Chains -/

/-- A list with one more member of a kind. -/
theorem forall_mem_concat {α : Type} {P : α → Prop} {xs : List α} {x : α} (hxs : ∀ y ∈ xs, P y)
    (hx : P x) : ∀ y ∈ xs ++ [x], P y :=
  List.forall_mem_append.2 ⟨hxs, List.forall_mem_singleton.2 hx⟩

theorem forall_mem_some {α : Type} {P : α → Prop} {x : α} (hx : P x) : ∀ y ∈ some x, P y := by
  rintro y ⟨⟩
  exact hx

namespace Chain

variable {γ : Type} {c : Chain γ}

/-- What a step keeps, a call keeps: a call that fails leaves the clauses as they are. -/
theorem call_keeps {P : γ → Prop} {step : γ → Except BuildError γ} (hc : P c.clauses)
    (hstep : ∀ next, step c.clauses = .ok next → P next) : P (c.call step).clauses := by
  unfold call
  split
  · exact hc
  · split
    · rename_i next hnext
      exact hstep next hnext
    · exact hc

theorem result_ok {g : γ} (h : c.result = .ok g) : g = c.clauses := by
  unfold result at h
  split at h
  · cases h
  · cases h
    rfl

theorem result_ok_iff {g : γ} : c.result = .ok g ↔ c.fault = none ∧ c.clauses = g := by
  unfold result
  cases hfault : c.fault <;> simp

/-- A call without a fault is one step, after calls without a fault. -/
theorem call_ok {step : γ → Except BuildError γ} (h : (c.call step).fault = none) :
    c.fault = none ∧ step c.clauses = .ok (c.call step).clauses := by
  unfold call at h ⊢
  cases hfault : c.fault with
  | some e => simp [hfault] at h
  | none =>
    cases hstep : step c.clauses with
    | ok next => simp
    | error e => simp [hfault, hstep] at h

/-- An invariant of the clauses that is indexed by the calls made so far: if no call fails, it holds
of the clauses and all calls. -/
theorem result_foldl {α : Type} {step : α → γ → Except BuildError γ} {P : List α → γ → Prop}
    (hstep : ∀ done g x next, P done g → step x g = .ok next → P (done ++ [x]) next)
    (xs : List α) {done : List α} {c : Chain γ} {g : γ} (hc : c.fault = none → P done c.clauses)
    (h : (xs.foldl (fun c x => c.call (step x)) c).result = .ok g) : P (done ++ xs) g := by
  induction xs generalizing done c with
  | nil =>
    obtain ⟨hfault, rfl⟩ := result_ok_iff.1 h
    rw [List.append_nil]
    exact hc hfault
  | cons x xs ih =>
    rw [List.append_cons]
    refine ih (fun hfault => ?_) h
    obtain ⟨hnone, hnext⟩ := call_ok hfault
    exact hstep done c.clauses x _ (hc hnone) hnext

end Chain

/-! ## Rows read -/

namespace SelectQuery

/-- The name that a call gives to an output column. -/
def Call.outputNames : Call → List String
  | .expr _ name => [name]
  | _ => []

/-- The number that a call gives as a bound. -/
def Call.literals : Call → List Nat
  | .limit n | .offset n => [n]
  | _ => []

/-- Clauses of which every part is within the sources. -/
structure Clauses.Within (v : Sources) (c : Clauses) : Prop where
  columns : ∀ x ∈ c.columns, v.Allows x.token
  exprs : ∀ i ∈ c.exprs, v.Within i.tokens
  conditions : ∀ x ∈ c.conditions, v.Within x.tokens
  groupBy : ∀ x ∈ c.groupBy, v.Allows x.token
  having : ∀ x ∈ c.having, v.Within x.tokens
  orderBy : ∀ o ∈ c.orderBy, v.Within o.tokens
  limit : ∀ b ∈ c.limit, v.Allows b.token
  offset : ∀ b ∈ c.offset, v.Allows b.token

theorem Clauses.empty_within : ({} : Clauses).Within v := by
  constructor <;> simp

end SelectQuery

namespace Sources

/-- The test of an aggregate in HAVING. -/
theorem Covers.aggregated (hs : v.Covers s) (fn : AggregateFn) (op : Operator) {column : String}
    {c : Option Column} {p : Param} (hc : s.resolveAggregated column = .ok c)
    (hp : v.Allows p.token) : v.Within (Cond.aggregate fn c op p).tokens := by
  rw [Cond.tokens, within_append]
  refine ⟨.aggregate fn fun ts hts => ?_, .comparison op hp⟩
  obtain ⟨x, rfl, rfl⟩ := Option.map_eq_some_iff.1 hts
  unfold Schema.resolveAggregated at hc
  split at hc
  · cases hc
  · obtain ⟨y, hy, hc⟩ := bind_ok hc
    cases hc
    simpa using hs.resolveColumn hy

end Sources

namespace SelectQuery

open Sources

theorem Clauses.Within.apply (hs : v.Covers s) {c next : Clauses} (hc : c.Within v) {call : Call}
    (hnames : call.outputNames ⊆ v.names) (hnumbers : call.literals ⊆ v.numbers)
    (h : c.apply s call = .ok next) : next.Within v := by
  cases call with
  | whereCond cond =>
    obtain ⟨cs, hcs, h⟩ := bind_ok h
    cases h
    exact { hc with conditions := hs.attach hc.conditions hcs }
  | columns names =>
    obtain ⟨cs, hcs, h⟩ := bind_ok h
    cases h
    exact { hc with columns := List.forall_mem_append.2 ⟨hc.columns, hs.resolveColumns hcs⟩ }
  | distinct =>
    cases h
    exact { hc with }
  -- an output name is the caller's own string, so it is among the allowed names by hypothesis
  | expr p name =>
    obtain ⟨e, he, h⟩ := bind_ok h
    obtain ⟨out, hout, h⟩ := bind_ok h
    cases h
    have hname := resolveOutputName_allows (hnames List.mem_cons_self) hout
    have hitem : v.Within (SelectItem.mk e (some out)).tokens := by
      simpa [SelectItem.tokens] using And.intro (hs.projection he) hname
    exact { hc with exprs := forall_mem_concat hc.exprs hitem }
  | exprsOnly =>
    cases h
    exact { hc with }
  | orderBy column direction | orderByNulls column direction nulls =>
    obtain ⟨item, hitem, h⟩ := bind_ok h
    cases h
    exact { hc with orderBy := forall_mem_concat hc.orderBy (hs.orderItem hitem) }
  | orderByExpr p direction =>
    obtain ⟨e, he, h⟩ := bind_ok h
    obtain ⟨d, -, h⟩ := bind_ok h
    cases h
    have hitem : v.Within (OrderItem.mk e d none).tokens := by
      simpa [OrderItem.tokens] using hs.projection he
    exact { hc with orderBy := forall_mem_concat hc.orderBy hitem }
  -- a literal bound is the caller's own number
  | limit n =>
    cases h
    exact { hc with limit := forall_mem_some (hnumbers List.mem_cons_self) }
  | offset n =>
    cases h
    exact { hc with offset := forall_mem_some (hnumbers List.mem_cons_self) }
  | limitParam name =>
    obtain ⟨p, hp, h⟩ := bind_ok h
    cases h
    exact { hc with limit := forall_mem_some (resolveParam_allows hp) }
  | offsetParam name =>
    obtain ⟨p, hp, h⟩ := bind_ok h
    cases h
    exact { hc with offset := forall_mem_some (resolveParam_allows hp) }
  | groupBy names =>
    obtain ⟨cs, hcs, h⟩ := bind_ok h
    cases h
    exact { hc with groupBy := List.forall_mem_append.2 ⟨hc.groupBy, hs.resolveColumns hcs⟩ }
  | having cond =>
    obtain ⟨cs, hcs, h⟩ := bind_ok h
    cases h
    exact { hc with having := hs.attach hc.having hcs }
  | havingAggregate fn column op param =>
    obtain ⟨fn, -, h⟩ := bind_ok h
    obtain ⟨c, hcolumn, h⟩ := bind_ok h
    obtain ⟨op, -, h⟩ := bind_ok h
    obtain ⟨p, hp, h⟩ := bind_ok h
    cases h
    have htest := hs.aggregated fn op hcolumn (resolveParam_allows hp)
    exact { hc with having := forall_mem_concat hc.having htest }
  | lock l =>
    cases h
    exact { hc with }

/-- A statement without chosen columns has all of them. -/
theorem Clauses.Within.statement (hs : v.Covers s) {c : Clauses} (hc : c.Within v)
    {st : SelectStatement} (h : c.statement s = .ok st) : v.Within st.tokens := by
  unfold Clauses.statement at h
  split at h
  · cases h
  · cases h
    have hcolumns : ∀ x ∈ (if c.columns.isEmpty then s.allColumns else c.columns),
        v.Allows x.token := by
      split
      · exact hs.allColumns
      · exact hc.columns
    have hitems : ∀ i ∈ (if c.exprsOnly then []
        else (if c.columns.isEmpty then s.allColumns else c.columns).map SelectItem.ofColumn),
          v.Within i.tokens := by
      split
      · exact List.forall_mem_nil _
      · refine List.forall_mem_map.2 fun x hx => ?_
        simpa [SelectItem.ofColumn, SelectItem.tokens, Expr.tokens] using hcolumns x hx
    exact Select.within
      { hc with
        table := hs.table
        items := List.forall_mem_append.2 ⟨hitems, hc.exprs⟩ }

end SelectQuery

/-- A query of which every part so far is within the sources. -/
structure SelectQuery.Within (v : Sources) (q : SelectQuery) : Prop where
  covers : v.Covers q.table.schema
  clauses : q.chain.clauses.Within v

namespace SelectQuery

theorem Within.call {q : SelectQuery} (hq : q.Within v) {c : Call}
    (hnames : c.outputNames ⊆ v.names) (hnumbers : c.literals ⊆ v.numbers) :
    (q.call c).Within v :=
  ⟨hq.covers, Chain.call_keeps hq.clauses fun _ h => hq.clauses.apply hq.covers hnames hnumbers h⟩

theorem ofCalls_within {t : Table} (hs : v.Covers t.schema) {calls : List Call}
    (hnames : ∀ c ∈ calls, c.outputNames ⊆ v.names)
    (hnumbers : ∀ c ∈ calls, c.literals ⊆ v.numbers) : (ofCalls t calls).Within v :=
  List.foldlRecOn calls call ⟨hs, Clauses.empty_within⟩ fun _ hq c hc =>
    hq.call (hnames c hc) (hnumbers c hc)

theorem Within.statement {q : SelectQuery} (hq : q.Within v) {st : SelectStatement}
    (h : q.statement = .ok st) : v.Within st.tokens := by
  obtain ⟨c, hc, h⟩ := bind_ok h
  rw [Chain.result_ok hc] at h
  exact hq.clauses.statement hq.covers h

end SelectQuery

/-! ## Rows added, changed and removed -/

namespace InsertQuery

open Sources

/-- The columns of a conflict clause are resolved. -/
theorem Call.conflict_within (hs : v.Covers s) {c : Call} {conflict : Conflict}
    (h : c.conflict s = .ok conflict) : v.OnConflict conflict := by
  cases c with
  | onConflictSkip target =>
    obtain ⟨target, htarget, h⟩ := bind_ok h
    cases h
    exact .skip (hs.resolveColumns htarget)
  | onConflictOverwrite target columns =>
    obtain ⟨target, htarget, h⟩ := bind_ok h
    obtain ⟨columns, hcolumns, h⟩ := bind_ok h
    split at h
    · cases h
    · cases h
      exact .overwrite (hs.resolveColumns htarget) (hs.resolveColumns hcolumns)

/-- A query of which every part so far is within the sources. -/
structure Within (v : Sources) (q : InsertQuery) : Prop where
  covers : v.Covers q.table.schema
  conflict : ∀ c ∈ q.chain.clauses, v.OnConflict c

theorem Within.call {q : InsertQuery} (hq : q.Within v) (c : Call) : (q.call c).Within v := by
  refine ⟨hq.covers, Chain.call_keeps (P := fun o => ∀ c ∈ o, v.OnConflict c) hq.conflict ?_⟩
  intro next h
  obtain ⟨conflict, hconflict, h⟩ := bind_ok h
  cases h
  exact forall_mem_some (c.conflict_within hq.covers hconflict)

theorem ofCalls_within {t : Table} (hs : v.Covers t.schema) (calls : List Call) :
    (ofCalls t calls).Within v :=
  List.foldlRecOn calls call ⟨hs, fun _ h => by cases h⟩ fun _ hq c _ => hq.call c

/-- An INSERT whose parameters have plain names. -/
theorem Within.statement {q : InsertQuery} (hq : q.Within v) {conflict : Option Conflict}
    (hconflict : q.chain.result = .ok conflict) {rows : List (List Param)}
    (hrows : ∀ row ∈ rows, ∀ p ∈ row, v.Allows p.token) {returning : List Column}
    (hreturning : ∀ c ∈ returning, v.Allows c.token) :
    v.Within (q.statement conflict rows returning).tokens := by
  rw [Chain.result_ok hconflict]
  exact Insert.within
    { table := hq.covers.table
      columns := hq.covers.nonPrimary
      rows := hrows
      conflict := hq.conflict
      returning := hreturning }

end InsertQuery

namespace UpdateQuery

open Sources

/-- Clauses of which every part is within the sources. -/
structure Clauses.Within (v : Sources) (c : Clauses) : Prop where
  assignments : ∀ a ∈ c.assignments, v.Allows a.1.token ∧ v.Allows a.2.token
  conditions : ∀ x ∈ c.conditions, v.Within x.tokens

theorem Clauses.Within.apply (hs : v.Covers s) {c next : Clauses} (hc : c.Within v) {call : Call}
    (h : c.apply s call = .ok next) : next.Within v := by
  cases call with
  | whereCond cond =>
    obtain ⟨cs, hcs, h⟩ := bind_ok h
    cases h
    exact { hc with conditions := hs.attach hc.conditions hcs }
  | assign column param =>
    obtain ⟨x, hx, h⟩ := bind_ok h
    obtain ⟨p, hp, h⟩ := bind_ok h
    cases h
    have hassign : v.Allows x.token ∧ v.Allows p.token :=
      ⟨hs.resolveColumn hx, resolveParam_allows hp⟩
    exact { hc with assignments := forall_mem_concat hc.assignments hassign }

/-- A query of which every part so far is within the sources. -/
structure Within (v : Sources) (q : UpdateQuery) : Prop where
  covers : v.Covers q.table.schema
  clauses : q.chain.clauses.Within v

theorem Within.call {q : UpdateQuery} (hq : q.Within v) (c : Call) : (q.call c).Within v :=
  ⟨hq.covers, Chain.call_keeps hq.clauses fun _ h => hq.clauses.apply hq.covers h⟩

theorem ofCalls_within {t : Table} (hs : v.Covers t.schema) (calls : List Call) :
    (ofCalls t calls).Within v :=
  List.foldlRecOn calls call ⟨hs, List.forall_mem_nil _, List.forall_mem_nil _⟩ fun _ hq c _ =>
    hq.call c

end UpdateQuery

namespace DeleteQuery

/-- A query of which every part so far is within the sources. -/
structure Within (v : Sources) (q : DeleteQuery) : Prop where
  covers : v.Covers q.table.schema
  conditions : ∀ c ∈ q.chain.clauses, v.Within c.tokens

theorem Within.call {q : DeleteQuery} (hq : q.Within v) (c : Call) : (q.call c).Within v := by
  cases c with
  | whereCond cond =>
    refine ⟨hq.covers, Chain.call_keeps (P := fun cs : List Cond => ∀ x ∈ cs, v.Within x.tokens)
      hq.conditions ?_⟩
    exact fun _ h => hq.covers.attach hq.conditions h

theorem ofCalls_within {t : Table} (hs : v.Covers t.schema) (calls : List Call) :
    (ofCalls t calls).Within v :=
  List.foldlRecOn calls call ⟨hs, List.forall_mem_nil _⟩ fun _ hq c _ => hq.call c

end DeleteQuery

/-! ## One number -/

namespace AggregateQuery

open Sources

/-- Clauses of which every part is within the sources. -/
structure Clauses.Within (v : Sources) (c : Clauses) : Prop where
  column : ∀ x ∈ c.column, v.Allows x.token
  filter : ∀ x ∈ c.filter, v.Within x.tokens
  conditions : ∀ x ∈ c.conditions, v.Within x.tokens

theorem Clauses.Within.apply (hs : v.Covers s) {c next : Clauses} (hc : c.Within v) {call : Call}
    (h : c.apply s call = .ok next) : next.Within v := by
  cases call with
  | whereCond cond =>
    obtain ⟨cs, hcs, h⟩ := bind_ok h
    cases h
    exact { hc with conditions := hs.attach hc.conditions hcs }
  | filter cond =>
    obtain ⟨cs, hcs, h⟩ := bind_ok h
    cases h
    exact { hc with filter := hs.attach hc.filter hcs }

theorem target_within (hs : v.Covers s) {fn : Except BuildError AggregateFn}
    {column : Option String} {r : AggregateFn × Option Column} (h : target s fn column = .ok r) :
    ∀ x ∈ r.2, v.Allows x.token := by
  obtain ⟨fn, -, h⟩ := bind_ok h
  cases column with
  | some name =>
    obtain ⟨x, hx, h⟩ := bind_ok h
    cases h
    exact forall_mem_some (hs.resolveColumn hx)
  | none =>
    dsimp only at h
    split at h
    · cases h
      exact fun x hx => by cases hx
    · cases h

/-- A query of which every part so far is within the sources. -/
structure Within (v : Sources) (q : AggregateQuery) : Prop where
  covers : v.Covers q.table.schema
  clauses : q.chain.clauses.Within v

theorem new_within {t : Table} (hs : v.Covers t.schema) (fn : Except BuildError AggregateFn)
    (column : Option String) : (new t fn column).Within v := by
  unfold new
  split
  · rename_i htarget
    exact ⟨hs, ⟨target_within hs htarget, List.forall_mem_nil _, List.forall_mem_nil _⟩⟩
  · refine ⟨hs, ⟨?_, List.forall_mem_nil _, List.forall_mem_nil _⟩⟩
    exact fun x hx => by cases hx

theorem Within.call {q : AggregateQuery} (hq : q.Within v) (c : Call) : (q.call c).Within v :=
  ⟨hq.covers, Chain.call_keeps hq.clauses fun _ h => hq.clauses.apply hq.covers h⟩

theorem Within.calls {q : AggregateQuery} (hq : q.Within v) (cs : List Call) :
    (q.calls cs).Within v :=
  List.foldlRecOn cs AggregateQuery.call hq fun _ hq c _ => hq.call c

/-- The output column is the only name that neither the schema nor the caller gives. -/
theorem Clauses.Within.statement (hs : v.Covers s) (hname : v.Allows (.identifier outputName))
    {c : Clauses} (hc : c.Within v) : v.Within (c.statement s).tokens := by
  have harg : ∀ e ∈ c.column.map Expr.column, v.Within e.tokens := by
    intro e he
    obtain ⟨x, hx, rfl⟩ := Option.map_eq_some_iff.1 he
    simpa [Expr.tokens] using hc.column x hx
  have hvalue : v.Within (Expr.aggregate c.fn (c.column.map Expr.column) (Cond.all c.filter)
      none).tokens :=
    .aggregateExpr c.fn harg (Within.ofMembers hc.filter) within_nil
  have hitem : v.Within (SelectItem.mk (.cast (.aggregate c.fn (c.column.map Expr.column)
      (Cond.all c.filter) none) .doublePrecision) (some outputName)).tokens := by
    rw [SelectItem.tokens, Expr.tokens]
    simpa using And.intro hvalue hname
  exact Select.within
    { table := hs.table
      items := List.forall_mem_singleton.2 hitem
      conditions := hc.conditions
      groupBy := List.forall_mem_nil _
      having := List.forall_mem_nil _
      orderBy := List.forall_mem_nil _
      limit := fun b hb => by cases hb
      offset := fun b hb => by cases hb }

end AggregateQuery

/-! ## Queries joined -/

namespace CompoundQuery

open Sources

/-- A call whose number, or whose operand, is within the sources. -/
def Call.Within (v : Sources) : Call → Prop
  | .combine _ operand => operand.Within v
  | .limit n | .offset n => n ∈ v.numbers
  | _ => True

/-- Clauses of which every part is within the sources. -/
structure Clauses.Within (v : Sources) (c : Clauses) : Prop where
  rest : ∀ x ∈ c.rest, v.Within x.2.tokens
  orderBy : ∀ o ∈ c.orderBy, v.Within o.tokens
  limit : ∀ b ∈ c.limit, v.Allows b.token
  offset : ∀ b ∈ c.offset, v.Allows b.token

theorem Clauses.Within.apply (hs : v.Covers s) {c next : Clauses} (hc : c.Within v) {call : Call}
    (hcall : call.Within v) (h : c.apply s call = .ok next) : next.Within v := by
  cases call with
  | combine op operand =>
    obtain ⟨st, hst, h⟩ := bind_ok h
    cases h
    exact { hc with rest := forall_mem_concat hc.rest (SelectQuery.Within.statement hcall hst) }
  | orderBy column direction | orderByNulls column direction nulls =>
    obtain ⟨item, hitem, h⟩ := bind_ok h
    cases h
    exact { hc with orderBy := forall_mem_concat hc.orderBy (hs.orderItem hitem) }
  | limit n =>
    cases h
    exact { hc with limit := forall_mem_some hcall }
  | offset n =>
    cases h
    exact { hc with offset := forall_mem_some hcall }
  | limitParam name =>
    obtain ⟨p, hp, h⟩ := bind_ok h
    cases h
    exact { hc with limit := forall_mem_some (resolveParam_allows hp) }
  | offsetParam name =>
    obtain ⟨p, hp, h⟩ := bind_ok h
    cases h
    exact { hc with offset := forall_mem_some (resolveParam_allows hp) }

/-- A query of which every part so far is within the sources. -/
structure Within (v : Sources) (q : CompoundQuery) : Prop where
  covers : v.Covers q.table.schema
  first : ∀ st, q.first = .ok st → v.Within st.tokens
  clauses : q.chain.clauses.Within v

theorem Within.call {q : CompoundQuery} (hq : q.Within v) {c : Call} (hc : c.Within v) :
    (q.call c).Within v :=
  ⟨hq.covers, hq.first,
    Chain.call_keeps hq.clauses fun _ h => hq.clauses.apply hq.covers hc h⟩

theorem ofCalls_within {first : SelectQuery} (hfirst : first.Within v) {calls : List Call}
    (h : ∀ c ∈ calls, c.Within v) : (ofCalls first calls).Within v := by
  refine List.foldlRecOn calls call ?_ fun _ hq c hc => hq.call (h c hc)
  refine ⟨hfirst.covers, fun st hst => hfirst.statement hst, List.forall_mem_nil _,
    List.forall_mem_nil _, ?_, ?_⟩
  · exact fun b hb => by cases hb
  · exact fun b hb => by cases hb

theorem Within.statement {q : CompoundQuery} (hq : q.Within v) {st : CompoundStatement}
    (h : q.statement = .ok st) : v.Within st.tokens := by
  obtain ⟨first, hfirst, h⟩ := bind_ok h
  obtain ⟨c, hc, h⟩ := bind_ok h
  rw [Chain.result_ok hc] at h
  split at h
  · cases h
  · cases h
    exact within_compound (hq.first first hfirst) hq.clauses.rest hq.clauses.orderBy
      hq.clauses.limit hq.clauses.offset

end CompoundQuery

end CheckedSql
