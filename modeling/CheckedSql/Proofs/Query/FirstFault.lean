/-
The first error wins. Each call of a chain is judged as if it were made alone; the error of the
first that fails is what rendering comes to, and every way of executing the query, with whatever
values and whatever client, before anything is sent. Without such a call there is no error of a name
or of a condition.
-/
import CheckedSql.Proofs.Execution.Faults
import CheckedSql.Proofs.Query.Faults
import CheckedSql.Proofs.Query.Text

namespace CheckedSql

open Check (firstFault)
open Run (Faults start_bind_error start_error)

/-! ## Calls by themselves -/

/-- A call of a chain by itself. -/
structure Query.Step where
  /-- Its error, if it fails when it is made alone. -/
  fault : Option BuildError
  /-- Whether it adds a WHERE condition. -/
  attaches : Bool := false
  /-- The strings that it looks up, each with what it is meant to name. -/
  given : List (NameKind × String)

/-- The strings that checks look up. -/
def Check.given (cs : List Check) : List (NameKind × String) :=
  cs.filterMap subject?

namespace SelectCalls

/-- The strings that the calls look up. -/
def given (q : SelectCalls) : List (NameKind × String) :=
  q.calls.flatMap fun c => Check.given c.checks

end SelectCalls

namespace CompoundStep

/-- The error of a call alone: that of its operand, or of itself on a query without any call. -/
def fault (first : SelectCalls) : CompoundStep → Option BuildError
  | combine _ operand => faultOf operand.query.statement
  | step => (CompoundQuery.ofCalls first.query [step.call]).chain.fault

/-- The strings that a call looks up, or its operand. -/
def given : CompoundStep → List (NameKind × String)
  | combine _ operand => operand.given
  | orderBy column direction => Check.given (OrderItem.checks column direction none)
  | orderByNulls column direction nulls =>
    Check.given (OrderItem.checks column direction (some nulls))
  | limitParam name | offsetParam name => [(.param, name)]
  | limit _ | offset _ => []

end CompoundStep

namespace Query

/-- The calls that build a query, each on a query of the same table without any other. An aggregate
begins with its target, and queries that are joined with the first of them. -/
def steps : Query → List Step
  | select q =>
    q.calls.map fun c =>
      { fault := (SelectQuery.ofCalls q.table [c]).chain.fault
        attaches := c.attaches
        given := Check.given c.checks }
  | insert table calls | insertBatch table calls _ =>
    calls.map fun c =>
      { fault := (InsertQuery.ofCalls table [c]).chain.fault
        given := Check.given c.checks }
  | update table calls =>
    calls.map fun c =>
      { fault := (UpdateQuery.ofCalls table [c]).chain.fault
        attaches := c.attaches
        given := Check.given c.checks }
  | delete table calls =>
    calls.map fun c =>
      { fault := (DeleteQuery.ofCalls table [c]).chain.fault
        attaches := c.attaches
        given := Check.given c.checks }
  | aggregate table fn column calls =>
    { fault := (AggregateQuery.new table fn column).chain.fault
      given := ((faultOf fn).bind BuildError.offender?).toList ++ column.toList.map (.field, ·) } ::
    calls.map fun c =>
      { fault := ((AggregateQuery.new table (.ok .count) none).calls [c]).chain.fault
        attaches := c.attaches
        given := Check.given c.checks }
  | compound first steps =>
    { fault := faultOf first.query.statement, given := first.given } ::
    steps.map fun step => { fault := step.fault first, given := step.given }

/-- The error of the first call that fails. -/
def fault (q : Query) : Option BuildError :=
  q.steps.findSome? (·.fault)

/-- Whether the chain has a WHERE condition; rows that are added and queries that are joined have no
place for one. -/
def hasWhere : Query → Bool
  | select q => q.query.hasWhere
  | update table calls => (UpdateQuery.ofCalls table calls).hasWhere
  | delete table calls => (DeleteQuery.ofCalls table calls).hasWhere
  | aggregate table fn column calls => ((AggregateQuery.new table fn column).calls calls).hasWhere
  | insert _ _ | insertBatch _ _ _ | compound _ _ => false

/-- The ways of executing a query, each with the values it is given. Records are read by `decode`,
and the number of an aggregate by whatever gets it from a row. -/
inductive Executes {α β : Type} (decode : Row → Except QueryError α) :
    Query → {ρ : Type} → Run β ρ → Prop
  | fetchOne (q : SelectCalls) (ps : Params β) :
    Executes decode (.select q) (q.query.fetchOne decode ps)
  | fetchOneRow (q : SelectCalls) (ps : Params β) :
    Executes decode (.select q) (q.query.fetchOneRow ps)
  | fetchAll (q : SelectCalls) (ps : Params β) :
    Executes decode (.select q) (q.query.fetchAll decode ps)
  | fetchRows (q : SelectCalls) (ps : Params β) :
    Executes decode (.select q) (q.query.fetchRows ps)
  | insert (table : Table) (calls : List InsertQuery.Call) (ps : Params β) :
    Executes decode (.insert table calls) ((InsertQuery.ofCalls table calls).exec decode ps)
  | insertBatch (table : Table) (calls : List InsertQuery.Call) (rows : List (Params β)) :
    Executes decode (.insertBatch table calls rows.length)
      ((InsertQuery.ofCalls table calls).execBatch rows)
  | update (table : Table) (calls : List UpdateQuery.Call) (ps : Params β) :
    Executes decode (.update table calls) ((UpdateQuery.ofCalls table calls).exec decode ps)
  | updateBatch (table : Table) (calls : List UpdateQuery.Call) (sets : List (Params β)) :
    Executes decode (.update table calls) ((UpdateQuery.ofCalls table calls).execBatch sets)
  | delete (table : Table) (calls : List DeleteQuery.Call) (ps : Params β) :
    Executes decode (.delete table calls) ((DeleteQuery.ofCalls table calls).exec ps)
  | deleteBatch (table : Table) (calls : List DeleteQuery.Call) (sets : List (Params β)) :
    Executes decode (.delete table calls) ((DeleteQuery.ofCalls table calls).execBatch sets)
  | aggregate (table : Table) (fn : Except BuildError AggregateFn) (column : Option String)
    (calls : List AggregateQuery.Call) (ps : Params β)
    (get : Row → String → Except String (Option Double)) :
    Executes decode (.aggregate table fn column calls)
      (((AggregateQuery.new table fn column).calls calls).fetch ps get)
  | compoundAll (first : SelectCalls) (steps : List CompoundStep) (ps : Params β) :
    Executes decode (.compound first steps)
      ((CompoundQuery.ofCalls first.query (steps.map (·.call))).fetchAll decode ps)
  | compoundRows (first : SelectCalls) (steps : List CompoundStep) (ps : Params β) :
    Executes decode (.compound first steps)
      ((CompoundQuery.ofCalls first.query (steps.map (·.call))).fetchRows ps)

end Query

/-! ## The fault of a chain -/

namespace Query

theorem fault_select (q : SelectCalls) : (select q).fault = q.query.chain.fault := by
  simp [fault, steps, SelectCalls.query, SelectQuery.fault_ofCalls, List.findSome?_map,
    Function.comp_def]

theorem fault_insert (table : Table) (calls : List InsertQuery.Call) :
    (insert table calls).fault = (InsertQuery.ofCalls table calls).chain.fault := by
  simp [fault, steps, InsertQuery.fault_ofCalls, List.findSome?_map, Function.comp_def]

theorem fault_update (table : Table) (calls : List UpdateQuery.Call) :
    (update table calls).fault = (UpdateQuery.ofCalls table calls).chain.fault := by
  simp [fault, steps, UpdateQuery.fault_ofCalls, List.findSome?_map, Function.comp_def]

theorem fault_delete (table : Table) (calls : List DeleteQuery.Call) :
    (delete table calls).fault = (DeleteQuery.ofCalls table calls).chain.fault := by
  simp [fault, steps, DeleteQuery.fault_ofCalls, List.findSome?_map, Function.comp_def]

/-- A call alone on a target that resolves fails with its own checks. -/
theorem fault_aggregate_alone (table : Table) (c : AggregateQuery.Call) :
    ((AggregateQuery.new table (.ok .count) none).calls [c]).chain.fault =
      firstFault table.schema c.checks := by
  have htarget : faultOf (AggregateQuery.target table.schema (.ok .count) none) = none := rfl
  simp [AggregateQuery.fault_calls, htarget]

theorem fault_aggregate (table : Table) (fn : Except BuildError AggregateFn)
    (column : Option String) (calls : List AggregateQuery.Call) :
    (aggregate table fn column calls).fault =
      ((AggregateQuery.new table fn column).calls calls).chain.fault := by
  obtain ⟨-, -, htarget⟩ := AggregateQuery.new_eq table fn column
  rw [AggregateQuery.fault_calls]
  simp only [fault, steps, List.findSome?_cons, htarget, fault_aggregate_alone, List.findSome?_map,
    Function.comp_def]
  cases faultOf (AggregateQuery.target table.schema fn column) <;> rfl

end Query

theorem SelectCalls.table_query (q : SelectCalls) : q.query.table = q.table :=
  SelectQuery.table_ofCalls q.table q.calls

theorem CompoundStep.fault_eq (first : SelectCalls) (step : CompoundStep) :
    step.fault first = step.call.fault first.table.schema := by
  cases step with
  | combine op operand => rfl
  | _ => simp [fault, CompoundQuery.fault_ofCalls, first.table_query]

namespace Query

theorem fault_compound (first : SelectCalls) (steps : List CompoundStep) :
    (compound first steps).fault =
      (faultOf first.query.statement).or
        (CompoundQuery.ofCalls first.query (steps.map (·.call))).chain.fault := by
  simp only [fault, Query.steps, List.findSome?_cons, List.findSome?_map, Function.comp_def,
    CompoundStep.fault_eq, CompoundQuery.fault_ofCalls, first.table_query]
  cases faultOf first.query.statement <;> rfl

/-! ## WHERE conditions -/

/-- Calls none of which adds a WHERE condition. -/
theorem not_any_attaches {xs : List Step} (h : ∀ x ∈ xs, x.attaches = false) :
    (xs.takeWhile (·.fault.isNone)).any (·.attaches) = false := by
  rw [List.any_eq_false]
  intro x hx
  simp [h x (List.takeWhile_subset _ hx)]

/-- There is a WHERE condition if and only if a call before the first that fails has added one. -/
theorem hasWhere_eq (q : Query) :
    q.hasWhere = (q.steps.takeWhile (·.fault.isNone)).any (·.attaches) := by
  cases q with
  | select q =>
    simp only [hasWhere, SelectCalls.query, SelectQuery.hasWhere_ofCalls, steps,
      SelectQuery.fault_ofCalls, List.findSome?_singleton, List.takeWhile_map, List.any_map,
      Function.comp_def]
  | update table calls =>
    simp only [hasWhere, UpdateQuery.hasWhere_ofCalls, steps,
      UpdateQuery.fault_ofCalls, List.findSome?_singleton, List.takeWhile_map, List.any_map,
      Function.comp_def]
  | delete table calls =>
    simp only [hasWhere, DeleteQuery.hasWhere_ofCalls, steps,
      DeleteQuery.fault_ofCalls, List.findSome?_singleton, List.takeWhile_map, List.any_map,
      Function.comp_def]
  -- the target is a step of its own, which attaches nothing
  | aggregate table fn column calls =>
    obtain ⟨-, -, htarget⟩ := AggregateQuery.new_eq table fn column
    simp only [hasWhere, AggregateQuery.hasWhere_calls, steps, htarget, fault_aggregate_alone,
      List.takeWhile_cons, List.takeWhile_map]
    cases (faultOf (AggregateQuery.target table.schema fn column)).isNone with
    | false => rfl
    | true => simp [Function.comp_def]
  -- these take no conditions
  | insert table calls | insertBatch table calls count =>
    exact (not_any_attaches (List.forall_mem_map.2 fun _ _ => rfl)).symm
  | compound first steps =>
    refine (not_any_attaches (List.forall_mem_cons.2 ⟨rfl, ?_⟩)).symm
    exact List.forall_mem_map.2 fun _ _ => rfl

end Query

/-! ## With a fault -/

/-- A step that comes to an error after one that comes to it, or to a value. -/
theorem bind_error {ε α β : Type} {x : Except ε α} {f : α → Except ε β} {e : ε}
    (h : (x >>= f) = .error e) : x = .error e ∨ ∃ a, x = .ok a ∧ f a = .error e := by
  cases x with
  | error e' =>
    cases h
    exact .inl rfl
  | ok a => exact .inr ⟨a, rfl, h⟩

theorem Chain.liftBuild_result {γ : Type} {c : Chain γ} {e : BuildError} (h : c.fault = some e) :
    liftBuild c.result = .error (.build e) := by
  rw [result, h]
  rfl

theorem SelectQuery.statement_of_fault {q : SelectQuery} {e : BuildError}
    (h : q.chain.fault = some e) : q.statement = .error e := by
  rw [statement, Chain.result, h]
  rfl

theorem CompoundQuery.statement_of_fault {q : CompoundQuery} {e : BuildError}
    (h : (faultOf q.first).or q.chain.fault = some e) : q.statement = .error e := by
  unfold statement
  cases hfirst : q.first with
  | error e' =>
    rw [hfirst] at h
    cases h
    rfl
  | ok first =>
    rw [hfirst] at h
    have hchain : q.chain.fault = some e := h
    rw [Chain.result, hchain]
    rfl

namespace Query

theorem render_of_fault {q : Query} {e : BuildError} (h : q.fault = some e) :
    q.render = .error (.build e) := by
  -- every way of rendering asks for the result of the chain first
  cases q with
  | select q =>
    rw [fault_select] at h
    rw [render, SelectQuery.render, SelectQuery.statement_of_fault h]
    rfl
  | insert table calls =>
    rw [fault_insert] at h
    rw [render, InsertQuery.render, Chain.liftBuild_result h]
    rfl
  | insertBatch table calls count =>
    have h : (insert table calls).fault = some e := h
    rw [fault_insert] at h
    rw [render, InsertQuery.renderBatch, Chain.liftBuild_result h]
    rfl
  | update table calls =>
    rw [fault_update] at h
    rw [render, UpdateQuery.render, UpdateQuery.assigned, Chain.liftBuild_result h]
    rfl
  | delete table calls =>
    rw [fault_delete] at h
    rw [render, DeleteQuery.render, Chain.liftBuild_result h]
    rfl
  | aggregate table fn column calls =>
    rw [fault_aggregate] at h
    rw [render, AggregateQuery.render, Chain.liftBuild_result h]
    rfl
  | compound first steps =>
    rw [fault_compound, ← CompoundQuery.first_ofCalls _ (steps.map (·.call))] at h
    rw [render, CompoundQuery.render, CompoundQuery.statement_of_fault h]
    rfl

variable {α β ρ : Type} {decode : Row → Except QueryError α}

/-- However it is executed, a query with a fault comes to it before it does anything. -/
theorem Executes.start_of_fault {q : Query} {x : Run β ρ} (hx : q.Executes decode x)
    {e : BuildError} (h : q.fault = some e) (c : Client β) :
    x.start c = (.error (.build e), []) := by
  have hrender := render_of_fault h
  cases hx with
  | fetchOneRow q ps | fetchRows q ps | insert table calls ps | update table calls ps
  | delete table calls ps | aggregate table fn column calls ps get | compoundRows first steps ps =>
    exact start_error hrender c
  | fetchOne q ps | fetchAll q ps | compoundAll first steps ps =>
    exact start_bind_error (start_error hrender c)
  | insertBatch table calls rows =>
    have h : (Query.insert table calls).fault = some e := h
    rw [fault_insert] at h
    exact start_error (Chain.liftBuild_result h) c
  | updateBatch table calls sets =>
    rw [fault_update] at h
    have hassigned : (UpdateQuery.ofCalls table calls).assigned = .error (.build e) := by
      rw [UpdateQuery.assigned, Chain.liftBuild_result h]
      rfl
    exact start_error hassigned c
  | deleteBatch table calls sets =>
    rw [fault_delete] at h
    exact start_error (Chain.liftBuild_result h) c

end Query

/-! ## Without a fault -/

/-- A query that lacks a part it needs. -/
def BuildError.IsIncomplete (b : BuildError) : Prop :=
  ∃ detail, b = .incomplete detail

theorem Renderer.render_ne_build (r : Renderer) (st : Statement) (b : BuildError) :
    r.render st ≠ .error (.build b) := by
  unfold render
  split
  · rename_i d _
    cases d <;> rintro ⟨⟩
  · rintro ⟨⟩

theorem liftBuild_error {α : Type} {x : Except BuildError α} {b : BuildError}
    (h : liftBuild x = .error (.build b)) : x = .error b := by
  cases x with
  | error e =>
    cases h
    rfl
  | ok a => cases h

/-- A statement that is made before it is written has no other building error than that of making
it. -/
theorem build_error_of_lift {γ : Type} {x : Except BuildError γ} {r : Renderer}
    {f : γ → Statement} {b : BuildError}
    (h : (liftBuild x >>= fun a => r.render (f a)) = .error (.build b)) : x = .error b := by
  rcases bind_error h with h | ⟨a, -, h⟩
  · exact liftBuild_error h
  · exact absurd h (r.render_ne_build _ b)

theorem Chain.result_ne_error {γ : Type} {c : Chain γ} (h : c.fault = none) (b : BuildError) :
    c.result ≠ .error b := by
  rw [result, h]
  rintro ⟨⟩

theorem SelectQuery.statement_incomplete {q : SelectQuery} (h : q.chain.fault = none)
    {b : BuildError} (hb : q.statement = .error b) : b.IsIncomplete := by
  rcases bind_error hb with hb | ⟨c, -, hb⟩
  · exact absurd hb (Chain.result_ne_error h b)
  · unfold Clauses.statement at hb
    split at hb
    · cases hb
      exact ⟨_, rfl⟩
    · cases hb

theorem CompoundQuery.statement_incomplete {q : CompoundQuery}
    (h : (faultOf q.first).or q.chain.fault = none) {b : BuildError}
    (hb : q.statement = .error b) : b.IsIncomplete := by
  obtain ⟨hfirst, hchain⟩ := Option.or_eq_none_iff.1 h
  rcases bind_error hb with hb | ⟨first, -, hb⟩
  · rw [hb] at hfirst
    cases hfirst
  · rcases bind_error hb with hb | ⟨c, -, hb⟩
    · exact absurd hb (Chain.result_ne_error hchain b)
    · split at hb
      · cases hb
        exact ⟨_, rfl⟩
      · cases hb

theorem UpdateQuery.assigned_incomplete {q : UpdateQuery} (h : q.chain.fault = none)
    {b : BuildError} (hb : q.assigned = .error (.build b)) : b.IsIncomplete := by
  rcases bind_error hb with hb | ⟨c, -, hb⟩
  · exact absurd (liftBuild_error hb) (Chain.result_ne_error h b)
  · split at hb
    · cases hb
      exact ⟨_, rfl⟩
    · cases hb

theorem UpdateQuery.Clauses.requireWhere_ne_build (c : UpdateQuery.Clauses) (b : BuildError) :
    c.requireWhere ≠ .error (.build b) := by
  unfold requireWhere
  split <;> rintro ⟨⟩

namespace Query

theorem render_incomplete {q : Query} (h : q.fault = none) {b : BuildError}
    (hb : q.render = .error (.build b)) : b.IsIncomplete := by
  cases q with
  | select q =>
    rw [fault_select] at h
    exact SelectQuery.statement_incomplete h (build_error_of_lift hb)
  | insert table calls =>
    rw [fault_insert] at h
    exact absurd (build_error_of_lift hb) (Chain.result_ne_error h b)
  | insertBatch table calls count =>
    have h : (insert table calls).fault = none := h
    rw [fault_insert] at h
    exact absurd (build_error_of_lift hb) (Chain.result_ne_error h b)
  -- an UPDATE may lack assignments; the WHERE condition is asked for after that, as another error
  | update table calls =>
    rw [fault_update] at h
    rcases bind_error hb with hb | ⟨c, -, hb⟩
    · exact UpdateQuery.assigned_incomplete h hb
    · rcases bind_error hb with hb | ⟨u, -, hb⟩
      · exact absurd hb (c.requireWhere_ne_build b)
      · exact absurd hb (Renderer.render_ne_build _ _ b)
  | delete table calls =>
    rw [fault_delete] at h
    rcases bind_error hb with hb | ⟨cs, -, hb⟩
    · exact absurd (liftBuild_error hb) (Chain.result_ne_error h b)
    · split at hb
      · cases hb
      · exact absurd hb (Renderer.render_ne_build _ _ b)
  | aggregate table fn column calls =>
    rw [fault_aggregate] at h
    exact absurd (build_error_of_lift hb) (Chain.result_ne_error h b)
  | compound first steps =>
    rw [fault_compound, ← CompoundQuery.first_ofCalls _ (steps.map (·.call))] at h
    exact CompoundQuery.statement_incomplete h (build_error_of_lift hb)

variable {α β ρ : Type} {decode : Row → Except QueryError α}

/-- However it is executed, a query without a fault has no building error but that it lacks a part,
or one that reading a row comes to. -/
theorem Executes.faults {q : Query} {x : Run β ρ} (hx : q.Executes decode x)
    (h : q.fault = none) :
    Faults (fun b => b.IsIncomplete ∨ ∃ row, decode row = .error (.build b)) x := by
  have hrender (b : BuildError) (hb : q.render = .error (.build b)) :
      b.IsIncomplete ∨ ∃ row, decode row = .error (.build b) :=
    .inl (render_incomplete h hb)
  have hdecode (row : Row) (b : BuildError) (hb : decode row = .error (.build b)) :
      b.IsIncomplete ∨ ∃ row, decode row = .error (.build b) :=
    .inr ⟨row, hb⟩
  have hdecodeAll (rows : List Row) (b : BuildError)
      (hb : decodeAll decode rows = .error (.build b)) :
      b.IsIncomplete ∨ ∃ row, decode row = .error (.build b) :=
    .inr (decodeAll_error hb)
  cases hx with
  | fetchOne q ps =>
    exact .bind (q.query.faults_fetchOneRow hrender ps) fun row => .ofExcept (hdecode row)
  | fetchOneRow q ps => exact q.query.faults_fetchOneRow hrender ps
  | fetchAll q ps =>
    exact .bind (q.query.faults_fetchRows hrender ps) fun rows => .ofExcept (hdecodeAll rows)
  | fetchRows q ps => exact q.query.faults_fetchRows hrender ps
  | insert table calls ps =>
    refine .bindExcept hrender fun r _ => faults_bind ps _ fun args => ?_
    split
    · exact faults_writeReturning hdecode
    · refine .bindExcept (fun b hb => ?_) fun read _ => faults_bind ps _ fun readArgs =>
        faults_writeThenRead hdecode
      rw [fault_insert] at h
      exact absurd (build_error_of_lift hb) (Chain.result_ne_error h b)
  | insertBatch table calls rows =>
    have hchain : (Query.insert table calls).fault = none := h
    rw [fault_insert] at hchain
    -- the chain is looked at before the rows are counted
    refine .bindExcept (fun b hb => ?_) fun _ _ => ?_
    · exact absurd (liftBuild_error hb) (Chain.result_ne_error hchain b)
    · split
      · exact .pure _
      · refine .bindExcept hrender fun r _ => faults_bind _ _ fun args => ?_
        exact Operation.faults_monitored _ _ (Operation.faults_execute _ _ _)
  | update table calls ps =>
    refine .bindExcept hrender fun r _ => faults_bind ps _ fun args => ?_
    split
    · exact faults_writeReturning hdecode
    · refine .bindExcept (fun b hb => ?_) fun read _ => faults_bind ps _ fun readArgs =>
        faults_writeThenRead hdecode
      rw [fault_update] at h
      rcases bind_error hb with hb | ⟨c, -, hb⟩
      · exact .inl (UpdateQuery.assigned_incomplete h hb)
      · exact absurd hb (Renderer.render_ne_build _ _ b)
  | updateBatch table calls sets =>
    rw [fault_update] at h
    -- a missing WHERE is an error of its own kind
    refine .bindExcept (fun b hb => .inl (UpdateQuery.assigned_incomplete h hb)) fun c _ => ?_
    split
    · exact .pure _
    · refine .bindExcept (fun b hb => absurd hb (c.requireWhere_ne_build b)) fun _ _ =>
        .bindExcept (fun b hb => absurd hb (Renderer.render_ne_build _ _ b)) fun r _ => ?_
      exact Operation.faults_monitored _ _ (Operation.faults_batch _ r sets)
  | delete table calls ps =>
    refine .bindExcept hrender fun r _ => faults_bind ps _ fun args => ?_
    exact Operation.faults_monitored _ _ (Operation.faults_execute _ _ _)
  | deleteBatch table calls sets =>
    have hchain := h
    rw [fault_delete] at hchain
    refine .bindExcept (fun b hb => ?_) fun _ _ => ?_
    · exact absurd (liftBuild_error hb) (Chain.result_ne_error hchain b)
    · split
      · exact .pure _
      · refine .bindExcept hrender fun r _ => ?_
        exact Operation.faults_monitored _ _ (Operation.faults_batch _ r sets)
  | aggregate table fn column calls ps get =>
    refine .bindExcept hrender fun r _ => faults_bind ps _ fun args => ?_
    refine Operation.faults_monitored _ _ (.bind (Operation.faults_query _ _ _) fun rows => ?_)
    refine faults_exactlyOne _ rows fun row => .bindExcept (fun b hb => ?_) fun _ _ => .pure _
    exact absurd hb (Row.column_ne_build get row _ b)
  | compoundAll first steps ps =>
    exact .bind (CompoundQuery.faults_fetchRows hrender ps) fun rows => .ofExcept (hdecodeAll rows)
  | compoundRows first steps ps => exact CompoundQuery.faults_fetchRows hrender ps

/-! ## What is reported as not found -/

end Query

theorem SelectCalls.statement_unresolved {q : SelectCalls} {k : NameKind} {n : String}
    (h : faultOf q.query.statement = some (.unresolved k n)) : (k, n) ∈ q.given := by
  rw [faultOf_eq_some] at h
  cases hfault : q.query.chain.fault with
  | none =>
    obtain ⟨detail, hdetail⟩ := SelectQuery.statement_incomplete hfault h
    cases hdetail
  | some e =>
    rw [SelectQuery.statement_of_fault hfault] at h
    cases h
    rw [query, SelectQuery.fault_ofCalls] at hfault
    obtain ⟨c, hc, hfault⟩ := List.exists_of_findSome?_eq_some hfault
    exact List.mem_flatMap.2 ⟨c, hc, Check.firstFault_unresolved hfault⟩

theorem CompoundStep.fault_unresolved {first : SelectCalls} {step : CompoundStep} {k : NameKind}
    {n : String} (h : step.fault first = some (.unresolved k n)) : (k, n) ∈ step.given := by
  rw [step.fault_eq] at h
  cases step with
  | combine op operand => exact SelectCalls.statement_unresolved h
  | orderBy column direction | orderByNulls column direction nulls =>
    exact Check.firstFault_unresolved h
  | limitParam name | offsetParam name =>
    have hparam : (Check.param name).fault first.table.schema = some (.unresolved k n) := h
    cases Check.fault_unresolved hparam
    exact List.mem_cons_self
  | limit m | offset m => cases h

theorem AggregateQuery.target_unresolved {s : Schema} {fn : Except BuildError AggregateFn}
    {column : Option String} {k : NameKind} {n : String}
    (h : faultOf (target s fn column) = some (.unresolved k n)) :
    fn = .error (.unresolved k n) ∨ k = .field ∧ column = some n := by
  rw [faultOf_eq_some] at h
  rcases bind_error h with h | ⟨fn, -, h⟩
  · exact .inl h
  · cases column with
    | none =>
      dsimp only at h
      split at h <;> cases h
    | some name =>
      rcases bind_error h with h | ⟨c, -, h⟩
      · rw [← faultOf_eq_some, Schema.faultOf_resolveColumn] at h
        cases Check.fault_unresolved h
        exact .inr ⟨rfl, rfl⟩
      · cases h

namespace Query

/-- What is reported as not found is a string that the failing call is given, unchanged, as what it
is meant to name. -/
theorem unresolved_mem_given (q : Query) : ∀ step ∈ q.steps, ∀ k n,
    step.fault = some (.unresolved k n) → (k, n) ∈ step.given := by
  cases q with
  | select q =>
    refine List.forall_mem_map.2 fun c _ k n h => ?_
    simp only [SelectQuery.fault_ofCalls, List.findSome?_singleton] at h
    exact Check.firstFault_unresolved h
  | insert table calls | insertBatch table calls count =>
    refine List.forall_mem_map.2 fun c _ k n h => ?_
    simp only [InsertQuery.fault_ofCalls, List.findSome?_singleton] at h
    exact Check.firstFault_unresolved h
  | update table calls =>
    refine List.forall_mem_map.2 fun c _ k n h => ?_
    simp only [UpdateQuery.fault_ofCalls, List.findSome?_singleton] at h
    exact Check.firstFault_unresolved h
  | delete table calls =>
    refine List.forall_mem_map.2 fun c _ k n h => ?_
    simp only [DeleteQuery.fault_ofCalls, List.findSome?_singleton] at h
    exact Check.firstFault_unresolved h
  -- the target is resolved before the calls, and is given the function and the column
  | aggregate table fn column calls =>
    refine List.forall_mem_cons.2 ⟨fun k n h => ?_, List.forall_mem_map.2 fun c _ k n h => ?_⟩
    · obtain ⟨-, -, htarget⟩ := AggregateQuery.new_eq table fn column
      rcases AggregateQuery.target_unresolved (htarget ▸ h) with rfl | ⟨rfl, rfl⟩
      · exact List.mem_append_left _ List.mem_cons_self
      · exact List.mem_append_right _ List.mem_cons_self
    · rw [fault_aggregate_alone] at h
      exact Check.firstFault_unresolved h
  | compound first steps =>
    refine List.forall_mem_cons.2 ⟨fun k n h => first.statement_unresolved h, ?_⟩
    exact List.forall_mem_map.2 fun step _ k n h => step.fault_unresolved h

/-- An aggregate by the token of its function that is not found, or whose column is not. -/
theorem ofToken_unresolved {t : Table} {token column : String} {k : NameKind} {n : String}
    (h : (AggregateQuery.ofToken t token column).chain.fault = some (.unresolved k n)) :
    (k, n) ∈ [(.aggregate, token), (.field, column)] := by
  obtain ⟨-, -, htarget⟩ := AggregateQuery.new_eq t (Vocabulary.aggregates.resolve token)
    (if column = "*" then none else some column)
  rcases AggregateQuery.target_unresolved (htarget ▸ h) with hfn | ⟨rfl, hcolumn⟩
  · rw [← faultOf_eq_some, Vocabulary.faultOf_resolve] at hfn
    obtain ⟨rfl, rfl⟩ := Check.vocabulary_unresolved (fun _ _ _ h => by cases h) hfn
    exact List.mem_cons_self
  · split at hcolumn
    · cases hcolumn
    · cases hcolumn
      exact List.mem_cons_of_mem _ List.mem_cons_self

/-! ## The first fault -/

/-- The first call of a chain that would fail alone makes the error of the whole: rendering comes to
it, and however the query is executed, with whatever values and whatever client, it comes to it
without anything sent. Without such a call a building error can only be that the query lacks a part,
or what reading a row comes to. The chain has a WHERE condition if and only if a call before that
first one has added one. What is reported as not found is a string that the failing call is given;
and a condition fails with the first check of its leaves that does, from left to right. -/
theorem first_fault (q : Query) :
    (∀ e, q.fault = some e →
      q.render = .error (.build e) ∧
      ∀ (α β ρ : Type) (decode : Row → Except QueryError α) (x : Run β ρ), q.Executes decode x →
        ∀ c : Client β, x.start c = (.error (.build e), [])) ∧
    (q.fault = none →
      (∀ b, q.render = .error (.build b) → ∃ detail, b = .incomplete detail) ∧
      ∀ (α β ρ : Type) (decode : Row → Except QueryError α) (x : Run β ρ), q.Executes decode x →
        ∀ (c : Client β) (b : BuildError), (x.start c).1 = .error (.build b) →
          (∃ detail, b = .incomplete detail) ∨ ∃ row, decode row = .error (.build b)) ∧
    q.hasWhere = (q.steps.takeWhile (·.fault.isNone)).any (·.attaches) ∧
    (∀ step ∈ q.steps, ∀ k n, step.fault = some (.unresolved k n) → (k, n) ∈ step.given) ∧
    (∀ t token column k n,
      (AggregateQuery.ofToken t token column).chain.fault = some (.unresolved k n) →
        (k, n) ∈ [(.aggregate, token), (.field, column)]) ∧
    ∀ (s : Schema) (c : Condition),
      faultOf (c.resolve s) = firstFault s (c.leaves.flatMap Condition.leafChecks) :=
  ⟨fun _ h => ⟨render_of_fault h, fun _ _ _ _ _ hx c => hx.start_of_fault h c⟩,
    fun h => ⟨fun _ hb => render_incomplete h hb, fun _ _ _ _ _ hx c b hb => hx.faults h c [] b hb⟩,
    q.hasWhere_eq, q.unresolved_mem_given, fun _ _ _ _ _ h => ofToken_unresolved h,
    fun _ c => c.faultOf_resolve_checks⟩

/-- The first column that is not found is reported, though there is nothing to do; the condition
before it is kept. -/
theorem first_fault_update :
    let schema : Schema :=
      ⟨"users", [⟨"id", true, false⟩, ⟨"age", false, true⟩], by decide, by decide, by decide,
        by decide⟩
    let calls : List UpdateQuery.Call :=
      [.whereCond (.null "age" false), .assign "years" "n", .whereCond (.compare "name" "~~" "x y")]
    let table : Table := { schema, renderer := .ofDialect .postgres }
    let c : Client Nat := .ofScript [] ⟨0⟩
    (Query.update table calls).render = .error (.build (.unresolved .field "years")) ∧
      ((UpdateQuery.ofCalls table calls).execBatch []).start c =
        (.error (.build (.unresolved .field "years")), []) ∧
      (Query.update table calls).hasWhere = true := by
  intro schema calls table c
  obtain ⟨hfault, -, hwhere, -⟩ := first_fault (.update table calls)
  obtain ⟨hrender, hexec⟩ := hfault (.unresolved .field "years") (by decide)
  refine ⟨hrender, hexec _ _ _ (fun _ => .ok ()) _ (.updateBatch table calls []) c, ?_⟩
  rw [hwhere]
  decide

end Query

end CheckedSql
