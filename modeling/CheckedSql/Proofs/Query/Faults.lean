/-
Where chains of calls fail. A call fails with the first of its checks that does, whatever the calls
before it have made; so a chain fails with the first of its calls that would fail if it were made
alone, and what it has made is what the calls before that one make.
-/
import CheckedSql.Proofs.Query.Bounds
import CheckedSql.Proofs.Query.Checks
import CheckedSql.Proofs.Query.Mutation

namespace CheckedSql

open Check (firstFault)

variable {s : Schema}

/-! ## Chains -/

namespace Chain

variable {α γ : Type} {step : α → γ → Except BuildError γ}

/-- One more call is only made if no call has failed. -/
theorem fault_call (c : Chain γ) (step : γ → Except BuildError γ) :
    (c.call step).fault = c.fault.or (faultOf (step c.clauses)) := by
  unfold call
  cases hfault : c.fault with
  | some e => simpa using hfault
  | none => cases step c.clauses <;> simp

/-- Where the fault of a call does not depend on the clauses, that of a chain is the first. -/
theorem fault_foldl {fault : α → Option BuildError}
    (hfault : ∀ x g, faultOf (step x g) = fault x) (xs : List α) (c : Chain γ) :
    (xs.foldl (fun c x => c.call (step x)) c).fault = c.fault.or (xs.findSome? fault) := by
  induction xs generalizing c with
  | nil => simp
  | cons x xs ih =>
    rw [List.foldl_cons, ih, fault_call, hfault, Option.or_assoc, List.findSome?_cons]
    cases fault x <;> rfl

/-- What each step keeps, a chain of calls keeps. -/
theorem foldl_keeps {P : γ → Prop} (hstep : ∀ x g next, P g → step x g = .ok next → P next)
    (xs : List α) {c : Chain γ} (hc : P c.clauses) :
    P (xs.foldl (fun c x => c.call (step x)) c).clauses :=
  List.foldlRecOn (motive := fun c : Chain γ => P c.clauses) xs _ hc fun _ hc x _ =>
    call_keeps hc fun next h => hstep x _ next hc h

/-- What calls may add to the clauses, and nothing removes, is there if a call before the first that
fails has added it. -/
theorem any_foldl {fault : α → Option BuildError} {flag : γ → Bool} {adds : α → Bool}
    (hfault : ∀ x g, faultOf (step x g) = fault x)
    (hadds : ∀ x g next, step x g = .ok next → flag next = (flag g || adds x)) (xs : List α)
    (c : Chain γ) :
    flag (xs.foldl (fun c x => c.call (step x)) c).clauses =
      (flag c.clauses || c.fault.isNone && (xs.takeWhile fun x => (fault x).isNone).any adds) := by
  induction xs generalizing c with
  | nil => simp
  | cons x xs ih =>
    have hx := hfault x c.clauses
    rw [List.foldl_cons, ih, List.takeWhile_cons, call]
    -- behind a failure no call counts; else this one adds its part, or is the first to fail
    cases hc : c.fault with
    | some e => simp [hc]
    | none =>
      cases hstep : step x c.clauses with
      | ok next =>
        rw [hstep] at hx
        simp [← hx, hadds x _ _ hstep, Bool.or_assoc]
      | error e =>
        rw [hstep] at hx
        simp [← hx]

end Chain

/-- A list of conditions with one more has a member if it had one or that one says something. -/
theorem isEmpty_attach {c : Condition} {cs next : List Cond} (h : attach s c cs = .ok next) :
    (!next.isEmpty) = (!cs.isEmpty || !c.leaves.isEmpty) := by
  obtain ⟨r, hr, h⟩ := bind_ok h
  cases h
  cases r with
  | none => simp [Condition.resolve_none hr]
  | some r =>
    rw [List.isEmpty_eq_false_iff.2 (Condition.resolve_some hr).2.2.1]
    simp

/-! ## Rows read -/

namespace SelectQuery

/-- The checks of a call. -/
def Call.checks : Call → List Check
  | whereCond c | having c => c.checks
  | columns names | groupBy names => names.map .column
  | expr p outputName => p.checks ++ [.outputName outputName]
  | orderBy column direction => OrderItem.checks column direction none
  | orderByNulls column direction nulls => OrderItem.checks column direction (some nulls)
  | orderByExpr p direction => p.checks ++ [.direction direction]
  | limitParam name | offsetParam name => [.param name]
  | havingAggregate fn column op param =>
    .aggregate fn :: (if column = "*" then [] else [.column column]) ++ [.predicate op, .param param]
  | distinct | exprsOnly | limit _ | offset _ | lock _ => []

/-- Whether a call adds a WHERE condition: one that says something. -/
def Call.attaches : Call → Bool
  | whereCond c => !c.leaves.isEmpty
  | _ => false

theorem faultOf_resolveAggregated (column : String) :
    faultOf (s.resolveAggregated column) =
      firstFault s (if column = "*" then [] else [.column column]) := by
  unfold Schema.resolveAggregated
  split
  · rfl
  · refine (faultOf_bind_ok fun _ => rfl).trans ?_
    rw [Schema.faultOf_resolveColumn]
    simp

theorem Clauses.faultOf_apply (c : Clauses) (call : Call) :
    faultOf (c.apply s call) = firstFault s call.checks := by
  cases call with
  | whereCond cond | having cond =>
    exact (faultOf_bind_ok fun _ => rfl).trans (cond.faultOf_attach _)
  | columns names | groupBy names =>
    exact (faultOf_bind_ok fun _ => rfl).trans (Schema.faultOf_resolveColumns names)
  | expr p name =>
    rw [apply, faultOf_bind fun _ _ => faultOf_bind_ok fun _ => rfl, p.faultOf_resolve,
      Schema.faultOf_resolveOutputName]
    simp [Call.checks]
  | orderBy column direction | orderByNulls column direction nulls =>
    exact (faultOf_bind_ok fun _ => rfl).trans (OrderItem.faultOf_resolve ..)
  | orderByExpr p direction =>
    rw [apply, faultOf_bind fun _ _ => faultOf_bind_ok fun _ => rfl, p.faultOf_resolve,
      Vocabulary.faultOf_resolve]
    simp [Call.checks, Check.fault]
  | limitParam name | offsetParam name =>
    rw [apply, faultOf_bind_ok fun _ => rfl, Schema.faultOf_resolveParam]
    simp [Call.checks]
  | havingAggregate fn column op param =>
    rw [apply, faultOf_bind fun _ _ => faultOf_bind fun _ _ => faultOf_bind fun _ _ =>
      faultOf_bind_ok fun _ => rfl, Vocabulary.faultOf_resolve, faultOf_resolveAggregated,
      Vocabulary.faultOf_resolvePredicate s, Schema.faultOf_resolveParam]
    simp [Call.checks, Check.fault]
  | distinct | exprsOnly | limit n | offset n | lock l => rfl

theorem Clauses.hasConditions_apply {c next : Clauses} {call : Call} (h : c.apply s call = .ok next) :
    (!next.conditions.isEmpty) = (!c.conditions.isEmpty || call.attaches) := by
  cases call with
  | whereCond cond =>
    obtain ⟨cs, hcs, h⟩ := bind_ok h
    cases h
    exact isEmpty_attach hcs
  -- no other call touches the conditions
  | havingAggregate fn column op param =>
    obtain ⟨fn, -, h⟩ := bind_ok h
    obtain ⟨column, -, h⟩ := bind_ok h
    obtain ⟨op, -, h⟩ := bind_ok h
    obtain ⟨param, -, h⟩ := bind_ok h
    cases h
    exact (Bool.or_false _).symm
  | expr p name | orderByExpr p direction =>
    obtain ⟨e, -, h⟩ := bind_ok h
    obtain ⟨x, -, h⟩ := bind_ok h
    cases h
    exact (Bool.or_false _).symm
  | columns names | groupBy names | orderBy column direction
  | orderByNulls column direction nulls | limitParam name | offsetParam name | having cond =>
    obtain ⟨x, -, h⟩ := bind_ok h
    cases h
    exact (Bool.or_false _).symm
  | distinct | exprsOnly | limit n | offset n | lock l =>
    cases h
    exact (Bool.or_false _).symm

/-- A chain of calls is a chain on the clauses alone. -/
theorem ofCalls_eq (t : Table) (calls : List Call) :
    ofCalls t calls =
      { table := t
        chain := calls.foldl (fun ch c => ch.call fun g => g.apply t.schema c)
          { clauses := {} } } := by
  exact List.foldl_hom (fun ch => SelectQuery.mk t ch) fun _ _ => rfl

theorem table_ofCalls (t : Table) (calls : List Call) : (ofCalls t calls).table = t := by
  rw [ofCalls_eq]

theorem fault_ofCalls (t : Table) (calls : List Call) :
    (ofCalls t calls).chain.fault = calls.findSome? fun c => firstFault t.schema c.checks := by
  rw [ofCalls_eq, Chain.fault_foldl fun c g => g.faultOf_apply c]
  rfl

theorem hasWhere_ofCalls (t : Table) (calls : List Call) :
    (ofCalls t calls).hasWhere =
      (calls.takeWhile fun c => (firstFault t.schema c.checks).isNone).any Call.attaches := by
  have hany := Chain.any_foldl (fun c g => Clauses.faultOf_apply (s := t.schema) g c)
    (fun _ _ _ h => Clauses.hasConditions_apply h) calls { clauses := {} }
  rw [hasWhere, ofCalls_eq, hany]
  rfl

end SelectQuery

/-! ## Rows added, changed and removed -/

namespace InsertQuery

/-- The checks of a call. -/
def Call.checks : Call → List Check
  | onConflictSkip target => target.map .column
  | onConflictOverwrite target columns =>
    target.map .column ++ columns.map .column ++ [.overwrite target columns]

/-- The columns of a list of names are as many as the names. -/
theorem isEmpty_resolveColumns {names : List String} {columns : List Column}
    (h : s.resolveColumns names = .ok columns) : columns.isEmpty = names.isEmpty := by
  cases names with
  | nil =>
    cases h
    rfl
  | cons name names =>
    obtain ⟨c, -, h⟩ := bind_ok h
    obtain ⟨cs, -, h⟩ := bind_ok h
    cases h
    rfl

theorem Call.faultOf_conflict (c : Call) : faultOf (c.conflict s) = firstFault s c.checks := by
  cases c with
  | onConflictSkip target =>
    exact (faultOf_bind_ok fun _ => rfl).trans (Schema.faultOf_resolveColumns target)
  | onConflictOverwrite target columns =>
    rw [checks, List.append_assoc, Check.firstFault_append, Check.firstFault_append,
      ← Schema.faultOf_resolveColumns, ← Schema.faultOf_resolveColumns]
    refine faultOf_bind fun ts hts => faultOf_bind fun cs hcs => ?_
    rw [Check.firstFault_cons, Check.fault, isEmpty_resolveColumns hts, isEmpty_resolveColumns hcs]
    cases target.isEmpty || columns.isEmpty <;> rfl

/-- A chain of calls is a chain on the clauses alone. -/
theorem ofCalls_eq (t : Table) (calls : List Call) :
    ofCalls t calls =
      { table := t
        chain := calls.foldl
          (fun ch c => ch.call fun _ => return some (← c.conflict t.schema)) { clauses := none } } := by
  exact List.foldl_hom (fun ch => InsertQuery.mk t ch) fun _ _ => rfl

theorem table_ofCalls (t : Table) (calls : List Call) : (ofCalls t calls).table = t := by
  rw [ofCalls_eq]

theorem fault_ofCalls (t : Table) (calls : List Call) :
    (ofCalls t calls).chain.fault = calls.findSome? fun c => firstFault t.schema c.checks := by
  have hcall (c : Call) (g : Option Conflict) :
      faultOf (do return some (← c.conflict t.schema) : Except BuildError (Option Conflict)) =
        firstFault t.schema c.checks :=
    (faultOf_bind_ok fun _ => rfl).trans c.faultOf_conflict
  rw [ofCalls_eq, Chain.fault_foldl hcall]
  rfl

end InsertQuery

namespace UpdateQuery

/-- The checks of a call. -/
def Call.checks : Call → List Check
  | whereCond c => c.checks
  | assign column param => [.column column, .param param]

/-- Whether a call adds a WHERE condition: one that says something. -/
def Call.attaches : Call → Bool
  | whereCond c => !c.leaves.isEmpty
  | assign _ _ => false

theorem Clauses.faultOf_apply (c : Clauses) (call : Call) :
    faultOf (c.apply s call) = firstFault s call.checks := by
  cases call with
  | whereCond cond => exact (faultOf_bind_ok fun _ => rfl).trans (cond.faultOf_attach _)
  | assign column param =>
    rw [apply, faultOf_bind fun _ _ => faultOf_bind_ok fun _ => rfl, Schema.faultOf_resolveColumn,
      Schema.faultOf_resolveParam]
    simp [Call.checks]

theorem Clauses.hasConditions_apply {c next : Clauses} {call : Call} (h : c.apply s call = .ok next) :
    (!next.conditions.isEmpty) = (!c.conditions.isEmpty || call.attaches) := by
  cases call with
  | whereCond cond =>
    obtain ⟨cs, hcs, h⟩ := bind_ok h
    cases h
    exact isEmpty_attach hcs
  | assign column param =>
    obtain ⟨x, -, h⟩ := bind_ok h
    obtain ⟨p, -, h⟩ := bind_ok h
    cases h
    exact (Bool.or_false _).symm

theorem fault_ofCalls (t : Table) (calls : List Call) :
    (ofCalls t calls).chain.fault = calls.findSome? fun c => firstFault t.schema c.checks := by
  rw [ofCalls_eq, Chain.fault_foldl fun c g => g.faultOf_apply c]
  rfl

theorem hasWhere_ofCalls (t : Table) (calls : List Call) :
    (ofCalls t calls).hasWhere =
      (calls.takeWhile fun c => (firstFault t.schema c.checks).isNone).any Call.attaches := by
  have hany := Chain.any_foldl (fun c g => Clauses.faultOf_apply (s := t.schema) g c)
    (fun _ _ _ h => Clauses.hasConditions_apply h) calls { clauses := {} }
  rw [hasWhere, ofCalls_eq, hany]
  rfl

end UpdateQuery

namespace DeleteQuery

/-- The condition of a call. -/
def Call.condition : Call → Condition
  | whereCond c => c

/-- The checks of a call. -/
def Call.checks (c : Call) : List Check :=
  c.condition.checks

/-- Whether a call adds a WHERE condition: one that says something. -/
def Call.attaches (c : Call) : Bool :=
  !c.condition.leaves.isEmpty

/-- A chain of calls is a chain on the clauses alone. -/
theorem ofCalls_eq (t : Table) (calls : List Call) :
    ofCalls t calls =
      { table := t
        chain := calls.foldl (fun ch c => ch.call (attach t.schema c.condition))
          { clauses := [] } } := by
  exact List.foldl_hom (fun ch => DeleteQuery.mk t ch) fun _ _ => rfl

theorem fault_ofCalls (t : Table) (calls : List Call) :
    (ofCalls t calls).chain.fault = calls.findSome? fun c => firstFault t.schema c.checks := by
  rw [ofCalls_eq, Chain.fault_foldl fun c g => c.condition.faultOf_attach g]
  rfl

theorem hasWhere_ofCalls (t : Table) (calls : List Call) :
    (ofCalls t calls).hasWhere =
      (calls.takeWhile fun c => (firstFault t.schema c.checks).isNone).any Call.attaches := by
  have hany := Chain.any_foldl (fun c g => Condition.faultOf_attach (s := t.schema) c.condition g)
    (fun (c : Call) _ _ h => isEmpty_attach h) calls { clauses := [] }
  rw [hasWhere, ofCalls_eq, hany]
  rfl

end DeleteQuery

/-! ## One number -/

namespace AggregateQuery

/-- The checks of a call. -/
def Call.checks : Call → List Check
  | whereCond c | filter c => c.checks

/-- Whether a call adds a WHERE condition: one that says something. -/
def Call.attaches : Call → Bool
  | whereCond c => !c.leaves.isEmpty
  | filter _ => false

theorem Clauses.faultOf_apply (c : Clauses) (call : Call) :
    faultOf (c.apply s call) = firstFault s call.checks := by
  cases call with
  | whereCond cond | filter cond =>
    exact (faultOf_bind_ok fun _ => rfl).trans (cond.faultOf_attach _)

theorem Clauses.hasConditions_apply {c next : Clauses} {call : Call} (h : c.apply s call = .ok next) :
    (!next.conditions.isEmpty) = (!c.conditions.isEmpty || call.attaches) := by
  cases call with
  | whereCond cond =>
    obtain ⟨cs, hcs, h⟩ := bind_ok h
    cases h
    exact isEmpty_attach hcs
  | filter cond =>
    obtain ⟨cs, hcs, h⟩ := bind_ok h
    cases h
    exact (Bool.or_false _).symm

theorem new_eq (t : Table) (fn : Except BuildError AggregateFn) (column : Option String) :
    (new t fn column).table = t ∧ (new t fn column).chain.clauses.conditions = [] ∧
      (new t fn column).chain.fault = faultOf (target t.schema fn column) := by
  unfold new
  cases target t.schema fn column <;> exact ⟨rfl, rfl, rfl⟩

/-- A chain of calls is a chain on the clauses alone. -/
theorem calls_eq (q : AggregateQuery) (calls : List Call) :
    q.calls calls =
      { table := q.table
        chain := calls.foldl (fun ch c => ch.call fun g => g.apply q.table.schema c) q.chain } := by
  exact List.foldl_hom (fun ch => AggregateQuery.mk q.table ch) fun _ _ => rfl

theorem table_calls (t : Table) (fn : Except BuildError AggregateFn) (column : Option String)
    (calls : List Call) : ((new t fn column).calls calls).table = t := by
  rw [calls_eq]
  exact (new_eq t fn column).1

/-- The constructor is a call before the others. -/
theorem fault_calls (t : Table) (fn : Except BuildError AggregateFn) (column : Option String)
    (calls : List Call) :
    ((new t fn column).calls calls).chain.fault =
      (faultOf (target t.schema fn column)).or
        (calls.findSome? fun c => firstFault t.schema c.checks) := by
  obtain ⟨htable, -, hfault⟩ := new_eq t fn column
  rw [calls_eq, Chain.fault_foldl fun c g => g.faultOf_apply c, htable, hfault]

theorem hasWhere_calls (t : Table) (fn : Except BuildError AggregateFn) (column : Option String)
    (calls : List Call) :
    ((new t fn column).calls calls).hasWhere =
      ((faultOf (target t.schema fn column)).isNone &&
        (calls.takeWhile fun c => (firstFault t.schema c.checks).isNone).any Call.attaches) := by
  obtain ⟨htable, hnone, hfault⟩ := new_eq t fn column
  have hany := Chain.any_foldl (fun c g => Clauses.faultOf_apply (s := t.schema) g c)
    (fun _ _ _ h => Clauses.hasConditions_apply h) calls (new t fn column).chain
  rw [hasWhere, calls_eq, htable, hany, hnone, hfault]
  rfl

end AggregateQuery

/-! ## Queries joined -/

namespace CompoundQuery

/-- The fault of a call: that of its operand, or its first check that fails. -/
def Call.fault (s : Schema) : Call → Option BuildError
  | combine _ operand => faultOf operand.statement
  | orderBy column direction => firstFault s (OrderItem.checks column direction none)
  | orderByNulls column direction nulls =>
    firstFault s (OrderItem.checks column direction (some nulls))
  | limitParam name | offsetParam name => (Check.param name).fault s
  | limit _ | offset _ => none

theorem Clauses.faultOf_apply (c : Clauses) (call : Call) :
    faultOf (c.apply s call) = call.fault s := by
  cases call with
  | combine op operand => exact faultOf_bind_ok fun _ => rfl
  | orderBy column direction | orderByNulls column direction nulls =>
    exact (faultOf_bind_ok fun _ => rfl).trans (OrderItem.faultOf_resolve ..)
  | limitParam name | offsetParam name =>
    exact (faultOf_bind_ok fun _ => rfl).trans (Schema.faultOf_resolveParam name)
  | limit n | offset n => rfl

theorem first_ofCalls (first : SelectQuery) (calls : List Call) :
    (ofCalls first calls).first = first.statement := by
  rw [ofCalls_eq]

theorem fault_ofCalls (first : SelectQuery) (calls : List Call) :
    (ofCalls first calls).chain.fault = calls.findSome? (Call.fault first.table.schema) := by
  rw [ofCalls_eq, Chain.fault_foldl fun c g => g.faultOf_apply c]
  rfl

end CompoundQuery

end CheckedSql
