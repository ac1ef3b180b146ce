/-
Calls of a chain in another order. Where no call fails, only the calls for one clause have an order
among themselves: a chain that makes the same calls with these in the same order builds the same
query, and so does one that leaves out a call whose value a later one replaces. What is sent and
its parameters are then the same, whatever names the clauses share.
-/
import CheckedSql.Proofs.Query.FirstFault
import CheckedSql.Proofs.Query.Writes

namespace CheckedSql

/-! ## Rearrangements -/

/-- The same rows read by calls that are rearranged. -/
structure SelectCalls.Rearranged (q r : SelectCalls) : Prop where
  table : r.table = q.table
  calls : Chain.Rearranged SelectQuery.Call.clause SelectQuery.Clause.single q.calls r.calls

/-- A call that is the same, but that the calls of its operand may be rearranged. -/
inductive CompoundStep.Rearranged : CompoundStep → CompoundStep → Prop
  | refl (step : CompoundStep) : Rearranged step step
  | combine (op : SetOp) {q r : SelectCalls} (h : q.Rearranged r) :
    Rearranged (.combine op q) (.combine op r)

namespace Query

/-- A query of the same kind on the same table by calls that are rearranged. The calls of an insert
write to one clause, which holds one value, and those of a delete to one that holds all. -/
inductive Rearranged : Query → Query → Prop
  | select {q r : SelectCalls} (h : q.Rearranged r) : Rearranged (select q) (select r)
  | insert (table : Table) {calls others : List InsertQuery.Call}
    (h : Chain.Rearranged (fun _ => ()) (fun _ => true) calls others) :
    Rearranged (insert table calls) (insert table others)
  | insertBatch (table : Table) {calls others : List InsertQuery.Call} (count : Nat)
    (h : Chain.Rearranged (fun _ => ()) (fun _ => true) calls others) :
    Rearranged (insertBatch table calls count) (insertBatch table others count)
  | update (table : Table) {calls others : List UpdateQuery.Call}
    (h : Chain.Rearranged UpdateQuery.Call.clause (fun _ => false) calls others) :
    Rearranged (update table calls) (update table others)
  | delete (table : Table) {calls others : List DeleteQuery.Call}
    (h : Chain.Rearranged (fun _ => ()) (fun _ => false) calls others) :
    Rearranged (delete table calls) (delete table others)
  | aggregate (table : Table) (fn : Except BuildError AggregateFn) (column : Option String)
    {calls others : List AggregateQuery.Call}
    (h : Chain.Rearranged AggregateQuery.Call.clause (fun _ => false) calls others) :
    Rearranged (aggregate table fn column calls) (aggregate table fn column others)
  | compound {first first' : SelectCalls} (hfirst : first.Rearranged first')
    {steps same others : List CompoundStep}
    (hoperands : List.Forall₂ CompoundStep.Rearranged steps same)
    (h : Chain.Rearranged (·.call.clause) CompoundQuery.Clause.single same others) :
    Rearranged (compound first steps) (compound first' others)

end Query

/-! ## The queries that are built -/

theorem SelectCalls.Rearranged.query_eq {q r : SelectCalls} (h : q.Rearranged r)
    (hq : q.query.chain.fault = none) : r.query = q.query := by
  rw [query, SelectQuery.fault_ofCalls, List.findSome?_eq_none_iff] at hq
  rw [query, query, SelectQuery.ofCalls_eq, SelectQuery.ofCalls_eq, h.table,
    (SelectQuery.writes q.table.schema).foldl_rearranged h.calls rfl hq]

theorem InsertQuery.ofCalls_rearranged {t : Table} {calls others : List Call}
    (h : Chain.Rearranged (fun _ => ()) (fun _ => true) calls others)
    (hcalls : (ofCalls t calls).chain.fault = none) : ofCalls t others = ofCalls t calls := by
  rw [fault_ofCalls, List.findSome?_eq_none_iff] at hcalls
  rw [ofCalls_eq, ofCalls_eq, (writes t.schema).foldl_rearranged h rfl hcalls]

theorem UpdateQuery.ofCalls_rearranged {t : Table} {calls others : List Call}
    (h : Chain.Rearranged Call.clause (fun _ => false) calls others)
    (hcalls : (ofCalls t calls).chain.fault = none) : ofCalls t others = ofCalls t calls := by
  rw [fault_ofCalls, List.findSome?_eq_none_iff] at hcalls
  rw [ofCalls_eq, ofCalls_eq, (writes t.schema).foldl_rearranged h rfl hcalls]

theorem DeleteQuery.ofCalls_rearranged {t : Table} {calls others : List Call}
    (h : Chain.Rearranged (fun _ => ()) (fun _ => false) calls others)
    (hcalls : (ofCalls t calls).chain.fault = none) : ofCalls t others = ofCalls t calls := by
  rw [fault_ofCalls, List.findSome?_eq_none_iff] at hcalls
  rw [ofCalls_eq, ofCalls_eq, (writes t.schema).foldl_rearranged h rfl hcalls]

/-- The target is checked before the calls. -/
theorem AggregateQuery.calls_rearranged {t : Table} {fn : Except BuildError AggregateFn}
    {column : Option String} {calls others : List Call}
    (h : Chain.Rearranged Call.clause (fun _ => false) calls others)
    (hcalls : ((new t fn column).calls calls).chain.fault = none) :
    (new t fn column).calls others = (new t fn column).calls calls := by
  obtain ⟨htable, -, htarget⟩ := new_eq t fn column
  rw [fault_calls, Option.or_eq_none_iff, List.findSome?_eq_none_iff] at hcalls
  rw [calls_eq, calls_eq, htable,
    (writes t.schema).foldl_rearranged h (htarget.trans hcalls.1) hcalls.2]

theorem CompoundQuery.ofCalls_rearranged {first : SelectQuery} {calls others : List Call}
    (h : Chain.Rearranged Call.clause Clause.single calls others)
    (hcalls : (ofCalls first calls).chain.fault = none) :
    ofCalls first others = ofCalls first calls := by
  rw [fault_ofCalls, List.findSome?_eq_none_iff] at hcalls
  rw [ofCalls_eq, ofCalls_eq, (writes first.table.schema).foldl_rearranged h rfl hcalls]

/-- A chain that amounts to a statement has no fault. -/
theorem SelectQuery.fault_of_statement {q : SelectQuery} (h : faultOf q.statement = none) :
    q.chain.fault = none := by
  obtain ⟨st, hst⟩ := faultOf_eq_none.1 h
  obtain ⟨c, hc, -⟩ := bind_ok hst
  exact (Chain.result_ok_iff.1 hc).1

theorem CompoundStep.Rearranged.call_eq {s : Schema} {x y : CompoundStep} (h : x.Rearranged y)
    (hx : x.call.fault s = none) : y.call = x.call := by
  cases h with
  | refl => rfl
  | combine op h =>
    rw [call, call, h.query_eq (SelectQuery.fault_of_statement hx)]

theorem CompoundStep.Rearranged.map_call {s : Schema} {xs ys : List CompoundStep}
    (h : List.Forall₂ CompoundStep.Rearranged xs ys)
    (hxs : ∀ x ∈ xs, x.call.fault s = none) : ys.map (·.call) = xs.map (·.call) := by
  induction h with
  | nil => rfl
  | cons hx _ ih =>
    obtain ⟨hfault, hxs⟩ := List.forall_mem_cons.1 hxs
    rw [List.map_cons, List.map_cons, hx.call_eq hfault, ih hxs]

/-! ## What is sent -/

namespace Query

/-- A query of which no call fails, and one by the same calls in another order in which those for
one clause keep theirs; calls may be left out whose value a later one replaces. No call of the
second fails, it is sent as the first is or refused as the first is, and it has a WHERE condition if
the first has. -/
theorem render_rearranged {q r : Query} (h : q.Rearranged r) (hq : q.fault = none) :
    r.fault = none ∧ r.render = q.render ∧ r.hasWhere = q.hasWhere := by
  cases h with
  | select h =>
    rw [fault_select] at hq ⊢
    rw [render, render, hasWhere, hasWhere, h.query_eq hq]
    exact ⟨hq, rfl, rfl⟩
  | insert table h =>
    rw [fault_insert] at hq ⊢
    rw [render, render, InsertQuery.ofCalls_rearranged h hq]
    exact ⟨hq, rfl, rfl⟩
  | @insertBatch table calls others count h =>
    have hq : (Query.insert table calls).fault = none := hq
    have hfault : (Query.insertBatch table others count).fault =
      (Query.insert table others).fault := rfl
    rw [fault_insert] at hq
    rw [hfault, fault_insert, render, render, InsertQuery.ofCalls_rearranged h hq]
    exact ⟨hq, rfl, rfl⟩
  | update table h =>
    rw [fault_update] at hq ⊢
    rw [render, render, hasWhere, hasWhere, UpdateQuery.ofCalls_rearranged h hq]
    exact ⟨hq, rfl, rfl⟩
  | delete table h =>
    rw [fault_delete] at hq ⊢
    rw [render, render, hasWhere, hasWhere, DeleteQuery.ofCalls_rearranged h hq]
    exact ⟨hq, rfl, rfl⟩
  | aggregate table fn column h =>
    rw [fault_aggregate] at hq ⊢
    rw [render, render, hasWhere, hasWhere, AggregateQuery.calls_rearranged h hq]
    exact ⟨hq, rfl, rfl⟩
  | @compound first first' hfirst steps same others hoperands h =>
    rw [fault_compound, Option.or_eq_none_iff] at hq
    obtain ⟨hstatement, hsteps⟩ := hq
    -- the first operand is built alike, then the others, and then the calls change places
    have hfirst : first'.query = first.query :=
      hfirst.query_eq (SelectQuery.fault_of_statement hstatement)
    have hsame : same.map (·.call) = steps.map (·.call) := by
      rw [CompoundQuery.fault_ofCalls, List.findSome?_map, List.findSome?_eq_none_iff] at hsteps
      exact CompoundStep.Rearranged.map_call hoperands hsteps
    have hothers : CompoundQuery.ofCalls first.query (others.map (·.call)) =
        CompoundQuery.ofCalls first.query (same.map (·.call)) :=
      CompoundQuery.ofCalls_rearranged h.map (hsame ▸ hsteps)
    rw [fault_compound, render, render, hfirst, hothers, hsame, hstatement, hsteps]
    exact ⟨rfl, rfl, rfl⟩

/-- A name that is shared by three clauses, a limit that is replaced, and a word said twice: the
same calls in another order, and then without those that do not count. -/
theorem render_rearranged_shared :
    let schema : Schema :=
      ⟨"users", [⟨"id", true, false⟩, ⟨"email", false, false⟩, ⟨"age", false, true⟩], by decide,
        by decide, by decide, by decide⟩
    let table : Table := { schema, renderer := .ofDialect .postgres }
    let q : Query :=
      .select ⟨table, [.limit 3, .whereCond (.compare "id" ">" "n"), .distinct, .groupBy ["email"],
        .whereCond (.compare "age" "<" "top"), .havingAggregate "count" "*" ">" "n",
        .columns ["email"], .limitParam "n", .distinct]⟩
    let r : Query :=
      .select ⟨table, [.havingAggregate "count" "*" ">" "n", .distinct, .limit 3,
        .whereCond (.compare "id" ">" "n"), .limitParam "n", .columns ["email"],
        .whereCond (.compare "age" "<" "top"), .groupBy ["email"], .distinct]⟩
    let short : Query :=
      .select ⟨table, [.limitParam "n", .havingAggregate "count" "*" ">" "n",
        .whereCond (.compare "id" ">" "n"), .columns ["email"],
        .whereCond (.compare "age" "<" "top"), .groupBy ["email"], .distinct]⟩
    let o : Rendered :=
      ⟨"SELECT DISTINCT \"email\" FROM \"users\" WHERE \"id\" > $1 AND \"age\" < $2 "
        ++ "GROUP BY \"email\" HAVING COUNT(*) > $1 LIMIT $1", ["n", "top"]⟩
    q.render = .ok o ∧ r.render = .ok o ∧ short.render = .ok o ∧ short.hasWhere = true := by
  intro schema table q r short o
  have hfault : q.fault = none := by decide +kernel
  have hrender : q.render = .ok o := by decide +kernel
  have hr : q.Rearranged r := .select ⟨rfl, .of_filter fun k => by cases k <;> rfl⟩
  have hshort : q.Rearranged short := by
    refine .select ⟨rfl, ?_, fun k => ?_⟩
    · simp
    · cases k <;> rfl
  obtain ⟨-, hrender', -⟩ := render_rearranged hr hfault
  obtain ⟨-, hrender'', hwhere⟩ := render_rearranged hshort hfault
  refine ⟨hrender, hrender'.trans hrender, hrender''.trans hrender, ?_⟩
  rw [hwhere]
  decide

end Query

end CheckedSql
