/-
What a chain of calls accepts can be written. Where no call and no check of the whole fails, a
renderer without missing features refuses the statement in three cases only: an aggregate of whole
rows other than their number is tested in HAVING, a joined query locks its rows, or no rows are added
at once; and in these it does.
-/
import CheckedSql.Proofs.Query.FirstFault
import CheckedSql.Proofs.Query.Resolved

namespace CheckedSql

variable {s : Schema} {r : Renderer}

/-- A list with one more member that has the property anyway. -/
theorem forall_mem_concat_iff {α : Type} {P : α → Prop} {xs : List α} {x : α} (hx : P x) :
    (∀ y ∈ xs ++ [x], P y) ↔ ∀ y ∈ xs, P y := by
  rw [List.forall_mem_append, List.forall_mem_singleton, and_iff_left hx]

/-! ## Rows read -/

namespace SelectQuery

/-- The derived columns that a call is given. -/
def Call.projections : Call → List Projection
  | expr p _ | orderByExpr p _ => [p]
  | _ => []

/-- A call that tests an aggregate of whole rows other than their number. -/
def Call.TestsRows : Call → Prop
  | havingAggregate fn column _ _ => column = "*" ∧ Vocabulary.aggregates.resolve fn ≠ .ok .count
  | _ => False

/-- A call that locks the rows. -/
def Call.Locks : Call → Prop
  | lock _ => True
  | _ => False

/-- Clauses that calls have made, each of which a renderer without missing features can write,
unless an aggregate of whole rows is tested. -/
structure Clauses.Sound (r : Renderer) (calls : List Call) (c : Clauses) : Prop where
  exprs : ∀ i ∈ c.exprs, r.MeetsAll (Node.expr i.expr).demands
  conditions : ∀ x ∈ c.conditions, r.MeetsAll (Node.cond x).demands
  having : (∀ x ∈ c.having, r.MeetsAll (Node.cond x).demands) ↔ ∀ call ∈ calls, ¬call.TestsRows
  orderBy : ∀ o ∈ c.orderBy, r.MeetsAll (Node.key o).demands
  lock : c.lock = none ↔ ∀ call ∈ calls, ¬call.Locks

theorem Clauses.Sound.empty : ({} : Clauses).Sound r [] := by
  constructor <;> simp

/-- A call that neither tests an aggregate nor locks. -/
theorem Clauses.Sound.concat {calls : List Call} {c : Clauses} {call : Call}
    (hc : c.Sound r calls) (htests : ¬call.TestsRows) (hlocks : ¬call.Locks) :
    c.Sound r (calls ++ [call]) where
  exprs := hc.exprs
  conditions := hc.conditions
  having := hc.having.trans
    (forall_mem_concat_iff (P := fun c : Call => ¬c.TestsRows) htests).symm
  orderBy := hc.orderBy
  lock := hc.lock.trans
    (forall_mem_concat_iff (P := fun c : Call => ¬c.Locks) hlocks).symm

/-- Conditions in HAVING to which one is added that can be written. -/
theorem Clauses.Sound.having_append {calls : List Call} {c : Clauses} {next : List Cond}
    (hc : c.Sound r calls) (hnext : ∀ x ∈ next, r.MeetsAll (Node.cond x).demands) :
    (∀ x ∈ c.having ++ next, r.MeetsAll (Node.cond x).demands) ↔
      ∀ call ∈ calls, ¬call.TestsRows := by
  rw [List.forall_mem_append, and_iff_left hnext, hc.having]

/-- The test of an aggregate can be written unless it is one of whole rows. -/
theorem meetsAll_aggregateTest (hr : r.Full) {fn column op param : String} {f : AggregateFn}
    {c : Option Column} (hf : Vocabulary.aggregates.resolve fn = .ok f)
    (hc : s.resolveAggregated column = .ok c) (o : Operator) (p : Param) :
    r.MeetsAll (Node.cond (.aggregate f c o p)).demands ↔
      ¬(Call.havingAggregate fn column op param).TestsRows := by
  have hparts : Node.AllMet r (Node.cond (.aggregate f c o p)).parts := List.forall_mem_nil _
  rw [Node.meetsAll_iff_of_full hr, and_iff_left hparts]
  show (c = none → f = .count) ↔ ¬(column = "*" ∧ Vocabulary.aggregates.resolve fn ≠ .ok .count)
  have hnone : c = none ↔ column = "*" := by
    unfold Schema.resolveAggregated at hc
    split at hc
    · rename_i hstar
      cases hc
      exact iff_of_true rfl hstar
    · rename_i hstar
      obtain ⟨x, -, hc⟩ := bind_ok hc
      cases hc
      exact iff_of_false (by rintro ⟨⟩) hstar
  rw [hnone, hf]
  simp

theorem Clauses.Sound.apply (hr : r.Full) {calls : List Call} {c next : Clauses} {call : Call}
    (hc : c.Sound r calls) (hmade : ∀ p ∈ call.projections, p.Made)
    (h : c.apply s call = .ok next) : next.Sound r (calls ++ [call]) := by
  cases call with
  | whereCond cond =>
    obtain ⟨cs, hcs, h⟩ := bind_ok h
    cases h
    exact { hc.concat id id with conditions := meetsAll_of_attach hr hc.conditions hcs }
  | having cond =>
    obtain ⟨cs, hcs, h⟩ := bind_ok h
    cases h
    obtain ⟨x, hx, hcs⟩ := bind_ok hcs
    cases hcs
    have hadded : ∀ y ∈ x.toList, r.MeetsAll (Node.cond y).demands := fun y hy =>
      Condition.meetsAll_of_resolve hr hx y (Option.mem_toList.1 hy)
    have hnow : c.Sound r (calls ++ [.having cond]) := hc.concat id id
    exact { hnow with having := hnow.having_append hadded }
  | havingAggregate fn column op param =>
    obtain ⟨f, hf, h⟩ := bind_ok h
    obtain ⟨x, hx, h⟩ := bind_ok h
    obtain ⟨o, -, h⟩ := bind_ok h
    obtain ⟨p, -, h⟩ := bind_ok h
    cases h
    -- the one call after which HAVING may hold what cannot be written
    constructor
    · exact hc.exprs
    · exact hc.conditions
    · show (∀ y ∈ c.having ++ [.aggregate f x o p], r.MeetsAll (Node.cond y).demands) ↔ _
      rw [List.forall_mem_append, List.forall_mem_append, hc.having, List.forall_mem_singleton,
        List.forall_mem_singleton, meetsAll_aggregateTest hr hf hx]
    · exact hc.orderBy
    · exact hc.lock.trans (forall_mem_concat_iff id).symm
  | expr p name =>
    obtain ⟨e, he, h⟩ := bind_ok h
    obtain ⟨out, -, h⟩ := bind_ok h
    cases h
    have hexpr := (hmade p List.mem_cons_self).meetsAll hr e he
    exact { hc.concat id id with exprs := forall_mem_concat hc.exprs hexpr }
  | orderBy column direction | orderByNulls column direction nulls =>
    obtain ⟨o, ho, h⟩ := bind_ok h
    cases h
    have hkey := OrderItem.meetsAll_of_resolve hr ho
    exact { hc.concat id id with orderBy := forall_mem_concat hc.orderBy hkey }
  | orderByExpr p direction =>
    obtain ⟨e, he, h⟩ := bind_ok h
    obtain ⟨d, -, h⟩ := bind_ok h
    cases h
    have hkey : r.MeetsAll (Node.key (.mk e d none)).demands :=
      Node.meetsAll_of_full hr trivial
        (List.forall_mem_singleton.2 ((hmade p List.mem_cons_self).meetsAll hr e he))
    exact { hc.concat id id with orderBy := forall_mem_concat hc.orderBy hkey }
  | columns names | groupBy names | limitParam name | offsetParam name =>
    obtain ⟨x, -, h⟩ := bind_ok h
    cases h
    exact { hc.concat id id with }
  | distinct | exprsOnly | limit n | offset n =>
    cases h
    exact { hc.concat id id with }
  | lock l =>
    cases h
    constructor
    · exact hc.exprs
    · exact hc.conditions
    · exact hc.having.trans (forall_mem_concat_iff id).symm
    · exact hc.orderBy
    · refine iff_of_false (by rintro ⟨⟩) fun hall => ?_
      exact hall (.lock l) (List.mem_append_right _ List.mem_cons_self) trivial

/-- A statement that a chain of calls amounts to: it can be written unless a call tests an aggregate
of whole rows, and its rows are locked if and only if a call locks them. -/
theorem statement_sound (hr : r.Full) {t : Table} {calls : List Call} {st : SelectStatement}
    (hmade : ∀ c ∈ calls, ∀ p ∈ c.projections, p.Made)
    (h : (ofCalls t calls).statement = .ok st) :
    (r.MeetsAll st.demands ↔ ∀ c ∈ calls, ¬c.TestsRows) ∧
      (st.lock = none ↔ ∀ c ∈ calls, ¬c.Locks) := by
  rw [ofCalls_eq] at h
  obtain ⟨c, hc, h⟩ := bind_ok h
  -- the invariant is indexed by the calls, as these decide what may stand in HAVING
  have hsound : (∀ c ∈ [] ++ calls, ∀ p ∈ c.projections, p.Made) → c.Sound r ([] ++ calls) := by
    refine Chain.result_foldl
      (P := fun done g => (∀ c ∈ done, ∀ p ∈ c.projections, p.Made) → g.Sound r done)
      (fun done g call next hdone hstep hall => ?_) calls (fun _ _ => .empty) hc
    obtain ⟨hbefore, hcall⟩ := List.forall_mem_append.1 hall
    exact (hdone hbefore).apply hr (hcall call List.mem_cons_self) hstep
  have hsound := hsound hmade
  unfold Clauses.statement at h
  split at h
  · cases h
  · cases h
    refine ⟨?_, hsound.lock⟩
    have hcolumns : ∀ i ∈ (if c.exprsOnly then []
        else (if c.columns.isEmpty then t.schema.allColumns else c.columns).map SelectItem.ofColumn),
          r.MeetsAll (Node.expr i.expr).demands := by
      split
      · exact List.forall_mem_nil _
      · exact List.forall_mem_map.2 fun x _ =>
          Node.meetsAll_of_full hr trivial (List.forall_mem_nil _)
    have hlocking : r.capabilities.rowLocking = true := hr.provides .rowLocking
    rw [SelectStatement.meetsAll_demands, and_iff_right fun _ => hlocking]
    simp only [SelectStatement.nodes, Node.AllMet, List.forall_mem_append, List.forall_mem_map]
    rw [and_iff_left hsound.orderBy, and_iff_right ⟨⟨hcolumns, hsound.exprs⟩, hsound.conditions⟩]
    exact hsound.having

end SelectQuery

/-! ## Rows added, changed and removed -/

namespace InsertQuery

/-- A conflict clause of a chain that takes over columns has a target and columns. -/
theorem overwrites_some (t : Table) (calls : List Call) :
    ∀ target columns, (ofCalls t calls).chain.clauses = some (.overwrite target columns) →
      target ≠ [] ∧ columns ≠ [] := by
  rw [ofCalls_eq]
  refine Chain.foldl_keeps (P := fun conflict : Option Conflict => ∀ target columns,
    conflict = some (.overwrite target columns) → target ≠ [] ∧ columns ≠ [])
    (fun c _ next _ h target columns hnext => ?_) calls (fun _ _ h => by cases h)
  subst hnext
  obtain ⟨conflict, hconflict, h⟩ := bind_ok h
  cases h
  cases c with
  | onConflictSkip names =>
    obtain ⟨ts, -, h⟩ := bind_ok hconflict
    cases h
  | onConflictOverwrite names taken =>
    obtain ⟨ts, -, h⟩ := bind_ok hconflict
    obtain ⟨cs, -, h⟩ := bind_ok h
    split at h
    · cases h
    · rename_i hsome
      cases h
      simpa using hsome

/-- An INSERT of a chain can be written if there are rows, each as wide as the columns. -/
theorem meetsAll_statement (hr : r.Full) {t : Table} {calls : List Call}
    {rows : List (List Param)} (hrows : ∀ row ∈ rows, row.length = (ofCalls t calls).columns.length)
    (returning : List Column) :
    r.MeetsAll (Statement.insert ((ofCalls t calls).statement (ofCalls t calls).chain.clauses rows
      returning)).demands ↔ rows ≠ [] := by
  have hupsert : r.capabilities.upsert = true := hr.provides .onConflict
  have hreturning : r.capabilities.returningOnInsert = true := hr.provides .insertReturning
  show r.MeetsAll (InsertStatement.demands _) ↔ _
  rw [InsertStatement.meetsAll_demands, and_iff_left ⟨fun _ => hupsert, fun _ => hreturning⟩]
  exact and_iff_left ⟨hrows, overwrites_some t calls⟩

end InsertQuery

namespace UpdateQuery

theorem conditions_meet (hr : r.Full) (t : Table) (calls : List Call) :
    ∀ x ∈ (ofCalls t calls).chain.clauses.conditions, r.MeetsAll (Node.cond x).demands := by
  rw [ofCalls_eq]
  refine Chain.foldl_keeps (P := fun g : Clauses => ∀ x ∈ g.conditions,
    r.MeetsAll (Node.cond x).demands) (fun c g next hg h => ?_) calls (List.forall_mem_nil _)
  cases c with
  | whereCond cond =>
    obtain ⟨cs, hcs, h⟩ := bind_ok h
    cases h
    exact meetsAll_of_attach hr hg hcs
  | assign column param =>
    obtain ⟨x, -, h⟩ := bind_ok h
    obtain ⟨p, -, h⟩ := bind_ok h
    cases h
    exact hg

end UpdateQuery

namespace DeleteQuery

theorem conditions_meet (hr : r.Full) (t : Table) (calls : List Call) :
    ∀ x ∈ (ofCalls t calls).chain.clauses, r.MeetsAll (Node.cond x).demands := by
  rw [ofCalls_eq]
  exact Chain.foldl_keeps (P := fun cs : List Cond => ∀ x ∈ cs, r.MeetsAll (Node.cond x).demands)
    (fun _ _ _ hcs h => meetsAll_of_attach hr hcs h) calls (List.forall_mem_nil _)

end DeleteQuery

/-! ## One number -/

namespace AggregateQuery

/-- Clauses that can be written: only rows are counted without a column. -/
structure Clauses.Sound (r : Renderer) (c : Clauses) : Prop where
  column : c.column = none → c.fn = .count
  filter : ∀ x ∈ c.filter, r.MeetsAll (Node.cond x).demands
  conditions : ∀ x ∈ c.conditions, r.MeetsAll (Node.cond x).demands

theorem new_sound (t : Table) (fn : Except BuildError AggregateFn) (column : Option String) :
    (new t fn column).chain.clauses.Sound r := by
  unfold new
  split
  · rename_i f c htarget
    refine ⟨fun hnone => ?_, List.forall_mem_nil _, List.forall_mem_nil _⟩
    obtain ⟨f', -, h⟩ := bind_ok htarget
    cases column with
    | some name =>
      obtain ⟨x, -, h⟩ := bind_ok h
      cases h
      cases hnone
    | none =>
      dsimp only at h
      split at h
      · rename_i hcount
        cases h
        exact hcount
      · cases h
  · exact ⟨fun _ => rfl, List.forall_mem_nil _, List.forall_mem_nil _⟩

theorem calls_sound (hr : r.Full) {q : AggregateQuery} (hq : q.chain.clauses.Sound r)
    (calls : List Call) : (q.calls calls).chain.clauses.Sound r := by
  rw [calls_eq]
  refine Chain.foldl_keeps (fun c g next hg h => ?_) calls hq
  cases c with
  | whereCond cond =>
    obtain ⟨cs, hcs, h⟩ := bind_ok h
    cases h
    exact { hg with conditions := meetsAll_of_attach hr hg.conditions hcs }
  | filter cond =>
    obtain ⟨cs, hcs, h⟩ := bind_ok h
    cases h
    exact { hg with filter := meetsAll_of_attach hr hg.filter hcs }

theorem Clauses.Sound.statement (hr : r.Full) {c : Clauses} (hc : c.Sound r) :
    r.MeetsAll (Statement.select (c.statement s)).demands := by
  have hvalue : r.MeetsAll (Node.expr (.aggregate c.fn (c.column.map Expr.column)
      (Cond.all c.filter) none)).demands := by
    refine Node.meetsAll_of_full hr (fun hnone => hc.column (Option.map_eq_none_iff.1 hnone)) ?_
    refine List.forall_mem_append.2 ⟨List.forall_mem_append.2 ⟨?_, ?_⟩, List.forall_mem_nil _⟩
    · refine Projection.meetsAll_toList fun e he => ?_
      obtain ⟨x, -, rfl⟩ := Option.map_eq_some_iff.1 he
      exact Node.meetsAll_of_full hr trivial (List.forall_mem_nil _)
    · exact Projection.meetsAll_toList (Cond.meetsAll_all hr hc.filter)
  have hitem : r.MeetsAll (Node.expr (.cast (.aggregate c.fn (c.column.map Expr.column)
      (Cond.all c.filter) none) .doublePrecision)).demands :=
    Node.meetsAll_of_full hr trivial (List.forall_mem_singleton.2 hvalue)
  have hlocking : r.capabilities.rowLocking = true := hr.provides .rowLocking
  show r.MeetsAll (SelectStatement.demands _)
  rw [SelectStatement.meetsAll_demands, and_iff_right fun _ => hlocking]
  simp only [Clauses.statement, SelectStatement.nodes, Node.AllMet, List.forall_mem_append,
    List.forall_mem_map]
  exact ⟨⟨⟨List.forall_mem_singleton.2 hitem, hc.conditions⟩, List.forall_mem_nil _⟩,
    List.forall_mem_nil _⟩

end AggregateQuery

/-! ## Queries joined -/

namespace CompoundQuery

theorem orderBy_meets (hr : r.Full) (first : SelectQuery) (calls : List Call) :
    ∀ o ∈ (ofCalls first calls).chain.clauses.orderBy, r.MeetsAll (Node.key o).demands := by
  rw [ofCalls_eq]
  refine Chain.foldl_keeps (P := fun g : Clauses => ∀ o ∈ g.orderBy,
    r.MeetsAll (Node.key o).demands) (fun c g next hg h => ?_) calls (List.forall_mem_nil _)
  cases c with
  | orderBy column direction | orderByNulls column direction nulls =>
    obtain ⟨o, ho, h⟩ := bind_ok h
    cases h
    exact forall_mem_concat hg (OrderItem.meetsAll_of_resolve hr ho)
  | combine op operand =>
    obtain ⟨st, -, h⟩ := bind_ok h
    cases h
    exact hg
  | limitParam name | offsetParam name =>
    obtain ⟨p, -, h⟩ := bind_ok h
    cases h
    exact hg
  | limit n | offset n =>
    cases h
    exact hg

theorem orderBy_of_statement {q : CompoundQuery} {st : CompoundStatement}
    (h : q.statement = .ok st) : st.orderBy = q.chain.clauses.orderBy := by
  obtain ⟨first, -, h⟩ := bind_ok h
  obtain ⟨c, hc, h⟩ := bind_ok h
  rw [Chain.result_ok hc] at h
  split at h
  · cases h
  · cases h
    rfl

end CompoundQuery

/-! ## Queries of any kind -/

namespace SelectCalls

/-- The derived columns that the calls are given. -/
def projections (q : SelectCalls) : List Projection :=
  q.calls.flatMap (·.projections)

/-- Some call tests an aggregate of whole rows other than their number. -/
def TestsRows (q : SelectCalls) : Prop :=
  ∃ c ∈ q.calls, c.TestsRows

/-- Some call locks the rows. -/
def Locks (q : SelectCalls) : Prop :=
  ∃ c ∈ q.calls, c.Locks

theorem statement_sound (hr : r.Full) {q : SelectCalls} {st : SelectStatement}
    (hmade : ∀ p ∈ q.projections, p.Made) (h : q.query.statement = .ok st) :
    (r.MeetsAll st.demands ↔ ¬q.TestsRows) ∧ (st.lock = none ↔ ¬q.Locks) := by
  have hcalls : ∀ c ∈ q.calls, ∀ p ∈ c.projections, p.Made := fun c hc p hp =>
    hmade p (List.mem_flatMap.2 ⟨c, hc, hp⟩)
  simpa [TestsRows, Locks] using SelectQuery.statement_sound hr hcalls h

end SelectCalls

/-- The query that a call joins. -/
def CompoundStep.operand? : CompoundStep → Option SelectCalls
  | combine _ operand => some operand
  | _ => none

namespace Query

/-- The table whose rows are read or written; that of joined queries is the first one's. -/
def table : Query → Table
  | select q => q.table
  | insert table _ | insertBatch table _ _ | update table _ | delete table _
  | aggregate table _ _ _ => table
  | compound first _ => first.table

/-- The queries that read rows, alone or joined. -/
def reads : Query → List SelectCalls
  | select q => [q]
  | compound first steps => first :: steps.filterMap CompoundStep.operand?
  | _ => []

/-- The derived columns that a query is given. -/
def projections (q : Query) : List Projection :=
  q.reads.flatMap (·.projections)

/-- A query that no renderer can write: it tests an aggregate of whole rows other than their number,
joins a query that locks its rows, or adds no rows at once. -/
def Unwritable : Query → Prop
  | select q => q.TestsRows
  | compound first steps => ∃ q ∈ (compound first steps).reads, q.TestsRows ∨ q.Locks
  | insertBatch _ _ count => count = 0
  | insert _ _ | update _ _ | delete _ _ | aggregate _ _ _ _ => False

/-- The statement of a query: it is what is rendered, and it can be written unless the query is one
that cannot be. -/
def Amounts (q : Query) (st : Statement) : Prop :=
  q.render = q.table.renderer.render st ∧
    (q.table.renderer.MeetsAll st.demands ↔ ¬q.Unwritable)

end Query

/-! ## The statement of a query -/

theorem Chain.result_of_sound {γ : Type} {c : Chain γ} (h : c.fault = none) :
    c.result = .ok c.clauses :=
  result_ok_iff.2 ⟨h, rfl⟩

/-- The operands of a compound can be written if none of them tests an aggregate of whole rows or
locks its rows. -/
theorem operands_sound (hr : r.Full) {qs : List SelectCalls} {sts : List SelectStatement}
    (hmade : ∀ q ∈ qs, ∀ p ∈ q.projections, p.Made)
    (h : List.Forall₂ (fun q st => q.query.statement = .ok st) qs sts) :
    (∀ st ∈ sts, r.MeetsAll st.operandDemands) ↔ ∀ q ∈ qs, ¬(q.TestsRows ∨ q.Locks) := by
  induction h with
  | nil => simp
  | cons hst _ ih =>
    obtain ⟨hhead, htail⟩ := List.forall_mem_cons.1 hmade
    obtain ⟨htests, hlocks⟩ := SelectCalls.statement_sound hr hhead hst
    rw [List.forall_mem_cons, List.forall_mem_cons, ih htail,
      SelectStatement.meetsAll_operandDemands, htests, hlocks, not_or, and_comm (a := ¬_)]

theorem joined_steps (steps : List CompoundStep) :
    (CompoundQuery.joined (steps.map (·.call))).map (·.2) =
      (steps.filterMap CompoundStep.operand?).map (·.query) := by
  induction steps with
  | nil => rfl
  | cons step steps ih =>
    unfold CompoundQuery.joined at ih ⊢
    cases step with
    | combine op operand => exact congrArg (operand.query :: ·) ih
    | _ => exact ih

namespace InsertQuery

theorem render_of_sound {q : InsertQuery} (h : q.chain.fault = none) :
    ∃ returning, q.render = q.table.renderer.render
      (.insert (q.statement q.chain.clauses [q.columns.map Column.param] returning)) := by
  rw [render, Chain.result_of_sound h]
  exact ⟨_, rfl⟩

theorem renderBatch_of_sound {q : InsertQuery} (h : q.chain.fault = none) (count : Nat) :
    q.renderBatch count = q.table.renderer.render (.insert (q.statement q.chain.clauses
      ((List.range count).map fun i => q.columns.map (Column.rowParam i)) [])) := by
  rw [renderBatch, Chain.result_of_sound h]
  rfl

end InsertQuery

namespace UpdateQuery

/-- Without a fault an UPDATE lacks what it would set, or a condition, or is rendered. -/
theorem render_of_sound {q : UpdateQuery} (h : q.chain.fault = none) :
    (∃ detail, q.render = .error (.build (.incomplete detail))) ∨
      (∃ verb, q.render = .error (.missingWhere verb)) ∨
      q.chain.clauses.assignments ≠ [] ∧
        ∃ returning, q.render = q.table.renderer.render (q.change returning) := by
  have hassigned : q.assigned = if q.chain.clauses.assignments.isEmpty then
      .error (.build (.incomplete "update without any SET column")) else .ok q.chain.clauses := by
    rw [assigned, Chain.result_of_sound h]
    rfl
  unfold render
  -- first the assignments are asked for, then the WHERE condition
  cases hset : q.chain.clauses.assignments.isEmpty with
  | true =>
    rw [hassigned, hset]
    exact .inl ⟨_, rfl⟩
  | false =>
    rw [hassigned, hset]
    cases hwhere : q.chain.clauses.conditions.isEmpty with
    | true =>
      refine .inr (.inl ⟨OperationKind.update.verb, ?_⟩)
      simp [bind, Except.bind, Clauses.requireWhere, hwhere]
    | false =>
      refine .inr (.inr ⟨List.isEmpty_eq_false_iff.1 hset,
        if q.table.capabilities.returningOnUpdate then q.table.schema.allColumns else [], ?_⟩)
      simp [bind, Except.bind, Clauses.requireWhere, hwhere]
      rfl

end UpdateQuery

namespace Query

theorem amounts_select {q : SelectCalls} (hr : q.table.renderer.Full)
    (hmade : ∀ p ∈ q.projections, p.Made) (hfault : (select q).fault = none)
    (hcomplete : ∀ detail, (select q).render ≠ .error (.build (.incomplete detail))) :
    ∃ st, (select q).Amounts st := by
  have hrender : (select q).render = liftBuild q.query.statement >>= fun s =>
      q.table.renderer.render (.select s) := by
    rw [render, SelectQuery.render, q.table_query]
  rw [fault_select] at hfault
  cases hst : q.query.statement with
  | error b =>
    obtain ⟨detail, rfl⟩ := SelectQuery.statement_incomplete hfault hst
    rw [hst] at hrender
    exact absurd hrender (hcomplete detail)
  | ok st =>
    rw [hst] at hrender
    exact ⟨.select st, hrender, (q.statement_sound hr hmade hst).1⟩

theorem amounts_insert {table : Table} {calls : List InsertQuery.Call}
    (hr : table.renderer.Full) (hfault : (insert table calls).fault = none) :
    ∃ st, (insert table calls).Amounts st := by
  rw [fault_insert] at hfault
  obtain ⟨returning, hrender⟩ := InsertQuery.render_of_sound hfault
  rw [InsertQuery.table_ofCalls] at hrender
  refine ⟨_, hrender, ?_⟩
  refine (InsertQuery.meetsAll_statement hr ?_ _).trans (iff_of_true (List.cons_ne_nil _ _) id)
  exact List.forall_mem_singleton.2 (List.length_map _)

theorem amounts_insertBatch {table : Table} {calls : List InsertQuery.Call} {count : Nat}
    (hr : table.renderer.Full) (hfault : (insertBatch table calls count).fault = none) :
    ∃ st, (insertBatch table calls count).Amounts st := by
  have hfault : (insert table calls).fault = none := hfault
  rw [fault_insert] at hfault
  have hrender := InsertQuery.renderBatch_of_sound hfault count
  rw [InsertQuery.table_ofCalls] at hrender
  refine ⟨_, hrender, (InsertQuery.meetsAll_statement hr ?_ _).trans ?_⟩
  · exact List.forall_mem_map.2 fun i _ => List.length_map _
  · simp [Unwritable]

theorem amounts_update {table : Table} {calls : List UpdateQuery.Call}
    (hr : table.renderer.Full) (hfault : (update table calls).fault = none)
    (hcomplete : ∀ detail, (update table calls).render ≠ .error (.build (.incomplete detail)))
    (hwhere : ∀ verb, (update table calls).render ≠ .error (.missingWhere verb)) :
    ∃ st, (update table calls).Amounts st := by
  rw [fault_update] at hfault
  rcases UpdateQuery.render_of_sound hfault with ⟨detail, h⟩ | ⟨verb, h⟩ | ⟨hset, returning, h⟩
  · exact absurd h (hcomplete detail)
  · exact absurd h (hwhere verb)
  · rw [UpdateQuery.table_ofCalls] at h
    have hreturning : table.renderer.capabilities.returningOnUpdate = true :=
      hr.provides .updateReturning
    refine ⟨_, h, iff_of_true ?_ id⟩
    refine (Statement.meetsAll_demands _).2 ⟨⟨hset, fun _ => hreturning⟩, ?_⟩
    exact List.forall_mem_map.2 (UpdateQuery.conditions_meet hr table calls)

theorem amounts_delete {table : Table} {calls : List DeleteQuery.Call}
    (hr : table.renderer.Full) (hfault : (delete table calls).fault = none)
    (hwhere : ∀ verb, (delete table calls).render ≠ .error (.missingWhere verb)) :
    ∃ st, (delete table calls).Amounts st := by
  have hrender : (delete table calls).render = if
      (DeleteQuery.ofCalls table calls).chain.clauses.isEmpty then
        .error (.missingWhere OperationKind.delete.verb)
      else table.renderer.render (DeleteQuery.ofCalls table calls).change := by
    rw [fault_delete] at hfault
    rw [render, DeleteQuery.render, DeleteQuery.change, Chain.result_of_sound hfault,
      DeleteQuery.table_ofCalls]
    rfl
  split at hrender
  · exact absurd hrender (hwhere _)
  · refine ⟨_, hrender, iff_of_true ?_ id⟩
    refine (Statement.meetsAll_demands _).2 ⟨⟨trivial, trivial⟩, ?_⟩
    exact List.forall_mem_map.2 (DeleteQuery.conditions_meet hr table calls)

theorem amounts_aggregate {table : Table} {fn : Except BuildError AggregateFn}
    {column : Option String} {calls : List AggregateQuery.Call} (hr : table.renderer.Full)
    (hfault : (aggregate table fn column calls).fault = none) :
    ∃ st, (aggregate table fn column calls).Amounts st := by
  have htable : ((AggregateQuery.new table fn column).calls calls).table = table := by
    rw [AggregateQuery.calls_eq, (AggregateQuery.new_eq table fn column).1]
  have hrender : (aggregate table fn column calls).render = table.renderer.render (.select
      (((AggregateQuery.new table fn column).calls calls).chain.clauses.statement
        table.schema)) := by
    rw [fault_aggregate] at hfault
    rw [render, AggregateQuery.render, Chain.result_of_sound hfault, htable]
    rfl
  refine ⟨_, hrender, iff_of_true ?_ id⟩
  exact (AggregateQuery.calls_sound hr (AggregateQuery.new_sound table fn column) calls).statement hr

theorem amounts_compound {first : SelectCalls} {steps : List CompoundStep}
    (hr : first.table.renderer.Full) (hmade : ∀ p ∈ (compound first steps).projections, p.Made)
    (hfault : (compound first steps).fault = none)
    (hcomplete : ∀ detail, (compound first steps).render ≠ .error (.build (.incomplete detail))) :
    ∃ st, (compound first steps).Amounts st := by
  have htable : (CompoundQuery.ofCalls first.query (steps.map (·.call))).table = first.table := by
    rw [CompoundQuery.ofCalls_eq, first.table_query]
  have hrender : (compound first steps).render =
      liftBuild (CompoundQuery.ofCalls first.query (steps.map (·.call))).statement >>= fun s =>
        first.table.renderer.render (.compound s) := by
    rw [render, CompoundQuery.render, htable]
  rw [fault_compound, ← CompoundQuery.first_ofCalls _ (steps.map (·.call))] at hfault
  cases hst : (CompoundQuery.ofCalls first.query (steps.map (·.call))).statement with
  | error b =>
    obtain ⟨detail, rfl⟩ := CompoundQuery.statement_incomplete hfault hst
    rw [hst] at hrender
    exact absurd hrender (hcomplete detail)
  | ok st =>
    rw [hst] at hrender
    obtain ⟨hoperands, -⟩ := CompoundQuery.statement_ofCalls hst
    rw [joined_steps, ← List.map_cons, List.forall₂_map_left_iff] at hoperands
    -- the projections of the operands are all the projections there are
    have hreads : ∀ q ∈ first :: steps.filterMap CompoundStep.operand?, ∀ p ∈ q.projections,
        p.Made :=
      fun q hq p hp => hmade p (List.mem_flatMap.2 ⟨q, hq, hp⟩)
    have horder : Node.AllMet first.table.renderer (st.orderBy.map .key) := by
      rw [CompoundQuery.orderBy_of_statement hst]
      exact List.forall_mem_map.2 (CompoundQuery.orderBy_meets hr _ _)
    -- the demands are those of the operands and of the ordering, which are met
    refine ⟨.compound st, hrender, ?_⟩
    show first.table.renderer.MeetsAll (CompoundStatement.demands st) ↔ _
    rw [CompoundStatement.demands, Renderer.meetsAll_append, Renderer.meetsAll_flatMap,
      operands_sound hr hreads hoperands, ← Node.allMet_keys,
      and_iff_left horder]
    simp [Unwritable, reads]

/-- A query of which no call and no check of the whole fails amounts to a statement. -/
theorem exists_amounts {q : Query} (hr : q.table.renderer.Full)
    (hmade : ∀ p ∈ q.projections, p.Made) (hfault : q.fault = none)
    (hcomplete : ∀ detail, q.render ≠ .error (.build (.incomplete detail)))
    (hwhere : ∀ verb, q.render ≠ .error (.missingWhere verb)) : ∃ st, q.Amounts st := by
  cases q with
  | select q =>
    refine amounts_select hr (fun p hp => hmade p ?_) hfault hcomplete
    exact List.mem_flatMap.2 ⟨q, List.mem_cons_self, hp⟩
  | insert table calls => exact amounts_insert hr hfault
  | insertBatch table calls count => exact amounts_insertBatch hr hfault
  | update table calls => exact amounts_update hr hfault hcomplete hwhere
  | delete table calls => exact amounts_delete hr hfault hwhere
  | aggregate table fn column calls => exact amounts_aggregate hr hfault
  | compound first steps => exact amounts_compound hr hmade hfault hcomplete

/-! ## What is refused -/

theorem render_of_unmet {r : Renderer} {st : Statement} (h : ¬r.MeetsAll st.demands) :
    ∃ detail, r.render st = .error (.render detail) := by
  have hrefusal (d : Demand) : ∃ detail, r.refusal d = .render detail := by
    cases d <;> exact ⟨_, rfl⟩
  have hrefused : r.refusal? st.demands ≠ none := fun hnone =>
    h (Renderer.refusal?_eq_none.1 hnone)
  obtain ⟨e, he⟩ := Option.ne_none_iff_exists'.1 hrefused
  obtain ⟨d, -, hd⟩ := Option.map_eq_some_iff.1 he
  obtain ⟨detail, hdetail⟩ := hrefusal d
  exact ⟨detail, Renderer.render_eq_error.2 (he.trans (congrArg some (hd.symm.trans hdetail)))⟩

/-- What a chain accepts can be written. Let a renderer have every capability, let the derived
columns be made as callers can make them, and let no call and no check of the whole fail. Then the
query is refused by the renderer if and only if it tests an aggregate of whole rows other than their
number, alone or joined, joins a query that locks its rows, or adds no rows at once; and any other is
rendered. -/
theorem refused_iff_unwritable {q : Query} (hfull : q.table.capabilities = {})
    (hmade : ∀ p ∈ q.projections, p.Made) (hfault : q.fault = none)
    (hcomplete : ∀ detail, q.render ≠ .error (.build (.incomplete detail)))
    (hwhere : ∀ verb, q.render ≠ .error (.missingWhere verb)) :
    ((∃ detail, q.render = .error (.render detail)) ↔ q.Unwritable) ∧
      (¬q.Unwritable → ∃ o, q.render = .ok o) := by
  obtain ⟨st, hrender, hmet⟩ := exists_amounts hfull hmade hfault hcomplete hwhere
  have hok (h : ¬q.Unwritable) : ∃ o, q.render = .ok o :=
    ⟨_, hrender.trans (Renderer.render_eq_ok.2 ⟨Renderer.refusal?_eq_none.2 (hmet.2 h), rfl⟩)⟩
  refine ⟨⟨fun ⟨detail, hrefused⟩ => ?_, fun hunwritable => ?_⟩, hok⟩
  · by_contra hwritable
    obtain ⟨o, ho⟩ := hok hwritable
    rw [ho] at hrefused
    cases hrefused
  · obtain ⟨detail, hrefused⟩ := render_of_unmet (mt hmet.1 (not_not_intro hunwritable))
    exact ⟨detail, hrender.trans hrefused⟩

/-- A sum under a condition over a window, in a branch of a CASE, is written; joined with a query
that locks its rows it is not. -/
theorem refused_iff_unwritable_locked :
    let schema : Schema :=
      ⟨"users", [⟨"id", true, false⟩, ⟨"age", false, true⟩], by decide, by decide, by decide,
        by decide⟩
    let table : Table := { schema, renderer := ⟨.redshift, {}⟩ }
    let total : Projection :=
      .aggregate .sum (some (.column "age")) (some (.compare "id" "in" "ids"))
        (some { orderBy := [("id", "desc")] })
    let ranked : SelectCalls :=
      ⟨table, [.expr (.case [(.null "age" true, total)] none) "total", .exprsOnly]⟩
    let locked : SelectCalls := ⟨table, [.columns ["age"], .lock .share]⟩
    let o : Rendered :=
      ⟨"SELECT CASE WHEN \"age\" IS NOT NULL THEN SUM(\"age\") FILTER (WHERE \"id\" = ANY($1)) "
        ++ "OVER (ORDER BY \"id\" DESC) END AS \"total\" FROM \"users\"", ["ids"]⟩
    (Query.select ranked).render = .ok o ∧ ¬(Query.select ranked).Unwritable ∧
      (Query.compound ranked [.combine .union locked]).Unwritable := by
  intro schema table total ranked locked o
  have htotal : total.Made := by
    refine .aggregate _ _ (by rintro ⟨⟩) ?_
    rintro p ⟨⟩
    exact .column _
  have hcase : (Projection.case [(.null "age" true, total)] none).Made :=
    .case (List.forall_mem_singleton.2 htotal) (by rintro p ⟨⟩)
  have hwritten : (Query.select ranked).render = .ok o := by decide +kernel
  have hrefused : (Query.compound ranked [.combine .union locked]).render =
      .error (.render "row locking is not allowed inside a compound query") := by decide +kernel
  refine ⟨hwritten, fun hunwritable => ?_, ?_⟩
  · obtain ⟨hiff, -⟩ := refused_iff_unwritable (q := .select ranked) rfl
      (List.forall_mem_singleton.2 hcase) (by decide +kernel) (by simp [hwritten])
      (by simp [hwritten])
    obtain ⟨detail, h⟩ := hiff.2 hunwritable
    rw [hwritten] at h
    cases h
  · obtain ⟨hiff, -⟩ := refused_iff_unwritable (q := .compound ranked [.combine .union locked]) rfl
      (List.forall_mem_singleton.2 hcase) (by decide +kernel) (by simp [hrefused])
      (by simp [hrefused])
    exact hiff.1 ⟨_, hrefused⟩

end Query

end CheckedSql
