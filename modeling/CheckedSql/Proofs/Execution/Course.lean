/-
The ways of executing a query, as data, and the course that each takes. Either it is settled before
anything is done, with an error of writing a statement or of binding its parameters or because there
is nothing to do, or it is one operation, which says to the client what its dialogue says. The course
depends on how operations are run only in that it is run so.
-/
import CheckedSql.Execution.Read
import CheckedSql.Proofs.Execution.Dialogue
import CheckedSql.Proofs.Query.FirstFault

namespace CheckedSql

variable {α β ρ : Type}

/-! ## Executions -/

/-- The ways of executing a query with one set of values, with the calls that build the query.
Records are of type `α`; the number of an aggregate is what `get` gets from a row. -/
inductive Method (α : Type) : Type → Type
  | fetchOne (calls : List SelectQuery.Call) : Method α α
  | fetchOneRow (calls : List SelectQuery.Call) : Method α Row
  | fetchAll (calls : List SelectQuery.Call) : Method α (List α)
  | fetchRows (calls : List SelectQuery.Call) : Method α (List Row)
  | compoundAll (first : List SelectQuery.Call) (calls : List CompoundQuery.Call) :
    Method α (List α)
  | compoundRows (first : List SelectQuery.Call) (calls : List CompoundQuery.Call) :
    Method α (List Row)
  | aggregate (get : Row → String → Except String (Option Double))
    (fn : Except BuildError AggregateFn) (column : Option String)
    (calls : List AggregateQuery.Call) : Method α Double
  | insert (calls : List InsertQuery.Call) : Method α α
  | update (calls : List UpdateQuery.Call) : Method α α
  | delete (calls : List DeleteQuery.Call) : Method α Nat

/-- The ways of executing a query with several sets of values. -/
inductive BatchMethod
  | insert (calls : List InsertQuery.Call)
  | update (calls : List UpdateQuery.Call)
  | delete (calls : List DeleteQuery.Call)

/-- One call of an execute method. -/
inductive Execution (α β : Type) : Type → Type 1
  | once {ρ : Type} (m : Method α ρ) (ps : Params β) : Execution α β ρ
  | batch (m : BatchMethod) (sets : List (Params β)) : Execution α β Nat

namespace Method

/-- The method as it is run on the query of a table. -/
def run (t : Table) (decode : Row → Except QueryError α) (ps : Params β) : Method α ρ → Run β ρ
  | fetchOne calls => (SelectQuery.ofCalls t calls).fetchOne decode ps
  | fetchOneRow calls => (SelectQuery.ofCalls t calls).fetchOneRow ps
  | fetchAll calls => (SelectQuery.ofCalls t calls).fetchAll decode ps
  | fetchRows calls => (SelectQuery.ofCalls t calls).fetchRows ps
  | compoundAll first calls =>
    (CompoundQuery.ofCalls (SelectQuery.ofCalls t first) calls).fetchAll decode ps
  | compoundRows first calls =>
    (CompoundQuery.ofCalls (SelectQuery.ofCalls t first) calls).fetchRows ps
  | aggregate get fn column calls => ((AggregateQuery.new t fn column).calls calls).fetch ps get
  | insert calls => (InsertQuery.ofCalls t calls).exec decode ps
  | update calls => (UpdateQuery.ofCalls t calls).exec decode ps
  | delete calls => (DeleteQuery.ofCalls t calls).exec ps

/-- The kind of operation. -/
def kind : Method α ρ → OperationKind
  | fetchOne _ | fetchOneRow _ => .selectOne
  | fetchAll _ | fetchRows _ => .selectMany
  | compoundAll _ _ | compoundRows _ _ => .compound
  | aggregate _ _ _ _ => .aggregate
  | insert _ => .insert
  | update _ => .update
  | delete _ => .delete

/-- The first statement as it is sent. -/
def render (t : Table) : Method α ρ → Except QueryError Rendered
  | fetchOne calls | fetchOneRow calls | fetchAll calls | fetchRows calls =>
    (SelectQuery.ofCalls t calls).render
  | compoundAll first calls | compoundRows first calls =>
    (CompoundQuery.ofCalls (SelectQuery.ofCalls t first) calls).render
  | aggregate _ fn column calls => ((AggregateQuery.new t fn column).calls calls).render
  | insert calls => (InsertQuery.ofCalls t calls).render
  | update calls => (UpdateQuery.ofCalls t calls).render
  | delete calls => (DeleteQuery.ofCalls t calls).render

/-- The statement that reads back the row which was written, where the first cannot return it. -/
def readBack (t : Table) : Method α ρ → Option (Except QueryError Rendered)
  | insert calls =>
    if t.capabilities.returningOnInsert then none
    else some (InsertQuery.ofCalls t calls).renderReadBack
  | update calls =>
    if t.capabilities.returningOnUpdate then none
    else some (UpdateQuery.ofCalls t calls).renderReadBack
  | _ => none

/-- How a statement is sent that is the only one. -/
def mode : Method α ρ → Mode
  | delete _ => .execute
  | _ => .query

/-- What must hold of the first answer before a row is read back: one row was written. -/
def check : Method α ρ → Answer → Except QueryError Unit
  | insert _, a => exactlyOneAffected "no rows inserted" a.affected
  | update _, a => exactlyOneAffected "no rows updated" a.affected
  | _, _ => .ok ()

end Method

/-- The number that an aggregate's row holds; NULL counts as zero. -/
def AggregateQuery.number (get : Row → String → Except String (Option Double)) (rows : List Row) :
    Except QueryError Double := do
  let row ← exactlyOne "aggregate returned no row" rows
  let value ← row.column get outputName
  return value.getD .zero

/-- The record that is returned by a statement, or read back after one. -/
def Report.written (decode : Row → Except QueryError α) (missing : String) (outcome : Outcome)
    (rows : List Row) : Except QueryError (Report α) := do
  let row ← exactlyOne missing rows
  let record ← decode row
  return ⟨outcome, .ok record⟩

/-- What is made of the last answer. The records of a query that reads are made of its rows when it
is reported already. -/
def Method.report (t : Table) (decode : Row → Except QueryError α) :
    Method α ρ → Answer → Except QueryError (Report ρ)
  | fetchOne _, a => do
    let row ← exactlyOne "no rows found" a.rows
    return ⟨.rows 1, decode row⟩
  | fetchOneRow _, a => do
    let row ← exactlyOne "no rows found" a.rows
    return ⟨.rows 1, .ok row⟩
  | fetchAll _, a | compoundAll _ _, a => return ⟨.rows a.rows.length, decodeAll decode a.rows⟩
  | fetchRows _, a | compoundRows _ _, a => return ⟨.rows a.rows.length, .ok a.rows⟩
  | aggregate get _ _ _, a => do
    let number ← AggregateQuery.number get a.rows
    return ⟨.rows 1, .ok number⟩
  | insert _, a =>
    if t.capabilities.returningOnInsert then
      Report.written decode "no rows inserted" (.rows 1) a.rows
    else Report.written decode "inserted row not found" (.affected 1) a.rows
  | update _, a =>
    if t.capabilities.returningOnUpdate then
      Report.written decode "no rows updated" (.rows 1) a.rows
    else Report.written decode "updated row not found" (.affected 1) a.rows
  | delete _, a => return .count a.affected

namespace BatchMethod

/-- The method as it is run on the query of a table. -/
def run (t : Table) (sets : List (Params β)) : BatchMethod → Run β Nat
  | insert calls => (InsertQuery.ofCalls t calls).execBatch sets
  | update calls => (UpdateQuery.ofCalls t calls).execBatch sets
  | delete calls => (DeleteQuery.ofCalls t calls).execBatch sets

/-- The kind of operation. -/
def kind : BatchMethod → OperationKind
  | insert _ => .insertBatch
  | update _ => .updateBatch
  | delete _ => .deleteBatch

/-- What is checked though there may be nothing to do. -/
def preflight (t : Table) : BatchMethod → Except QueryError Unit
  | insert calls => do
    let _ ← liftBuild (InsertQuery.ofCalls t calls).chain.result
    return ()
  | update calls => do
    let _ ← (UpdateQuery.ofCalls t calls).assigned
    return ()
  | delete calls => do
    let _ ← liftBuild (DeleteQuery.ofCalls t calls).chain.result
    return ()

/-- The statement for a number of sets, as it is sent. -/
def render (t : Table) (count : Nat) : BatchMethod → Except QueryError Rendered
  | insert calls => (InsertQuery.ofCalls t calls).renderBatch count
  | update calls => do
    let c ← (UpdateQuery.ofCalls t calls).assigned
    c.requireWhere
    (UpdateQuery.ofCalls t calls).renderStatement c []
  | delete calls => (DeleteQuery.ofCalls t calls).render

end BatchMethod

namespace Execution

/-- The execution on the query of a table. -/
def run (t : Table) (decode : Row → Except QueryError α) : Execution α β ρ → Run β ρ
  | once m ps => m.run t decode ps
  | batch m sets => m.run t sets

/-- The kind of operation. -/
def kind : Execution α β ρ → OperationKind
  | once m _ => m.kind
  | batch m _ => m.kind

end Execution

/-! ## Courses -/

/-- What an execution comes down to, if nothing is wrong with it: it has nothing to do, or it is an
operation with a first statement and a dialogue. -/
inductive Course (β ρ : Type)
  | idle (a : ρ)
  | operation (first : Rendered) (dialogue : Dialogue β (Report ρ))

/-- A course as it is run on a table. -/
def Course.run (t : Table) (kind : OperationKind) : Course β ρ → Run β ρ
  | idle a => pure a
  | operation first dialogue => (Operation.new t kind first).conduct dialogue

/-- The course of a method: every statement is written and bound before it begins. -/
def Method.course (t : Table) (decode : Row → Except QueryError α) (m : Method α ρ)
    (ps : Params β) : Except QueryError (Course β ρ) := do
  let r ← m.render t
  let args ← ps.bind r.params
  match m.readBack t with
  | none => return .operation r (.once ⟨m.mode, r.sql, args⟩ (m.report t decode))
  | some read => do
    let read ← read
    let readArgs ← ps.bind read.params
    return .operation r
      (.twice ⟨.execute, r.sql, args⟩ m.check ⟨.query, read.sql, readArgs⟩ (m.report t decode))

/-- What a batch says: the rows of an INSERT are one statement, the other methods send theirs once
for each set. -/
def BatchMethod.dialogue (r : Rendered) (sets : List (Params β)) :
    BatchMethod → Except QueryError (Dialogue β (Report Nat))
  | insert _ => do
    let args ← (Params.ofRows 0 .empty sets).bind r.params
    return .once ⟨.execute, r.sql, args⟩ fun a => .ok (.count a.affected)
  | update _ | delete _ => return .batchFrom r 0 0 sets

/-- The course of a batch. -/
def BatchMethod.course (t : Table) (m : BatchMethod) (sets : List (Params β)) :
    Except QueryError (Course β Nat) := do
  m.preflight t
  if sets.isEmpty then return .idle 0
  let r ← m.render t sets.length
  let d ← m.dialogue r sets
  return .operation r d

/-- The course of an execution. -/
def Execution.course (t : Table) (decode : Row → Except QueryError α) :
    Execution α β ρ → Except QueryError (Course β ρ)
  | once m ps => m.course t decode ps
  | batch m sets => m.course t sets

/-! ## An execution runs its course -/

namespace Operation

variable (o : Operation) {σ : Type} {sql : String} {args : List β}

/-- An operation that asks for rows, makes something of them, and something of that when it is
reported already. -/
theorem conduct_query (take : List Row → Except QueryError σ) (summary : σ → Outcome)
    (finish : σ → Except QueryError ρ) :
    o.conduct (.once ⟨.query, sql, args⟩ fun a =>
        take a.rows >>= fun v => .ok ⟨summary v, finish v⟩) =
      o.monitored summary (o.query sql args >>= fun rows => Run.ofExcept (take rows)) >>= fun v =>
        Run.ofExcept (finish v) := by
  refine o.conduct_eq ?_
  rw [Dialogue.run_once, query]
  simp only [bind_assoc, pure_bind, Run.ofExcept_bind]
  rfl

/-- An operation that asks for rows and makes something of them. -/
theorem conduct_query_ok (take : List Row → Except QueryError ρ) (summary : ρ → Outcome) :
    o.conduct (.once ⟨.query, sql, args⟩ fun a =>
        take a.rows >>= fun v => .ok ⟨summary v, .ok v⟩) =
      o.monitored summary (o.query sql args >>= fun rows => Run.ofExcept (take rows)) :=
  (o.conduct_query take summary .ok).trans (bind_pure _)

/-- An operation that asks for rows, and makes something of them when it is reported already. -/
theorem conduct_rows (finish : List Row → Except QueryError ρ) :
    o.conduct (.once ⟨.query, sql, args⟩ fun a => .ok ⟨.rows a.rows.length, finish a.rows⟩) =
      o.monitored (fun rows => .rows rows.length) (o.query sql args) >>= fun rows =>
        Run.ofExcept (finish rows) := by
  have hquery : (o.query sql args >>= fun rows => Run.ofExcept (.ok rows)) = o.query sql args :=
    bind_pure _
  rw [← hquery]
  exact o.conduct_query .ok (fun rows => .rows rows.length) finish

/-- An operation that counts the affected rows. -/
theorem conduct_execute :
    o.conduct (.once ⟨.execute, sql, args⟩ fun a => .ok (.count a.affected)) =
      o.monitored .affected (o.execute sql args) := by
  refine o.conduct_eq_ok ?_
  rw [Dialogue.run_once, execute]
  simp only [bind_assoc, pure_bind]
  rfl

/-- An operation that sends a statement for each set of values. -/
theorem conduct_batch (r : Rendered) (sets : List (Params β)) :
    o.conduct (.batchFrom r 0 0 sets) = o.monitored .affected (o.batch r sets) :=
  o.conduct_eq_ok (Dialogue.run_batchFrom o r 0 0 sets)

theorem conduct_returning (missing : String) (decode : Row → Except QueryError α) (r : Rendered) :
    o.conduct (.once ⟨.query, r.sql, args⟩ fun a =>
        Report.written decode missing (.rows 1) a.rows) =
      writeReturning o missing decode r args := by
  have hwritten (rows : List Row) : Report.written decode missing (.rows 1) rows =
      (exactlyOne missing rows >>= decode) >>= fun record => .ok ⟨.rows 1, .ok record⟩ := by
    rw [bind_assoc]
    rfl
  simp only [hwritten, o.conduct_query_ok (fun rows => exactlyOne missing rows >>= decode),
    Run.ofExcept_bind]
  rfl

theorem conduct_thenRead (missing lost : String) (decode : Row → Except QueryError α)
    (r read : Rendered) {readArgs : List β} :
    o.conduct (.twice ⟨.execute, r.sql, args⟩ (fun a => exactlyOneAffected missing a.affected)
        ⟨.query, read.sql, readArgs⟩ fun a =>
        Report.written decode lost (.affected 1) a.rows) =
      writeThenRead o missing lost decode r args read readArgs := by
  unfold writeThenRead
  refine o.conduct_eq_ok ?_
  rw [Dialogue.run_twice, execute, query]
  simp only [bind_assoc, pure_bind, Report.written, Run.ofExcept_bind]
  rfl

end Operation

namespace Method

variable (t : Table) (decode : Row → Except QueryError α)

/-- A method that sends one statement once it is written and bound. -/
theorem run_eq_of_once (m : Method α ρ) (ps : Params β) {f : Rendered → List β → Run β ρ}
    (hback : m.readBack t = none)
    (h : ∀ r args, (Operation.new t m.kind r).conduct
      (.once ⟨m.mode, r.sql, args⟩ (m.report t decode)) = f r args) :
    (Run.ofExcept (m.render t) >>= fun r => Run.ofExcept (ps.bind r.params) >>= f r) =
      Run.ofExcept (m.course t decode ps) >>= Course.run t m.kind := by
  simp only [course, hback, Run.ofExcept_bind, bind_assoc, ← funext (h _)]
  rfl

/-- A method that writes one row: the row is returned, or it is read back with a statement that is
written and bound before the first is sent. -/
theorem run_eq_of_write (m : Method α α) (ps : Params β) {returning : Bool}
    {read : Except QueryError Rendered} {missing lost : String} (hmode : m.mode = .query)
    (hback : m.readBack t = if returning then none else some read)
    (hcheck : m.check = fun a => exactlyOneAffected missing a.affected)
    (hreport : m.report t decode = fun a =>
      if returning then Report.written decode missing (.rows 1) a.rows
      else Report.written decode lost (.affected 1) a.rows) :
    (Run.ofExcept (m.render t) >>= fun r => Run.ofExcept (ps.bind r.params) >>= fun args =>
      if returning then writeReturning (Operation.new t m.kind r) missing decode r args
      else
        Run.ofExcept read >>= fun read => Run.ofExcept (ps.bind read.params) >>= fun readArgs =>
          writeThenRead (Operation.new t m.kind r) missing lost decode r args read readArgs) =
      Run.ofExcept (m.course t decode ps) >>= Course.run t m.kind := by
  cases returning with
  | true =>
    refine run_eq_of_once t decode m ps hback fun r args => ?_
    rw [hmode, hreport]
    exact Operation.conduct_returning _ missing decode r
  | false =>
    simp only [course, hback, hcheck, hreport, ← Operation.conduct_thenRead, Run.ofExcept_bind,
      bind_assoc, Bool.false_eq_true, if_false]
    rfl

/-- A method runs its course. -/
theorem run_eq (m : Method α ρ) (ps : Params β) :
    m.run t decode ps = Run.ofExcept (m.course t decode ps) >>= Course.run t m.kind := by
  -- each method is rewritten as writing, binding and an operation, of which `run_eq_of_once` and
  -- `run_eq_of_write` make a course
  cases m with
  | fetchOne calls =>
    simp only [run, SelectQuery.fetchOne, SelectQuery.fetchOneRow, SelectQuery.table_ofCalls,
      bind_assoc]
    exact run_eq_of_once t decode (fetchOne calls) ps rfl fun r args =>
      Operation.conduct_query _ (exactlyOne "no rows found") (fun _ => .rows 1) decode
  | fetchOneRow calls =>
    simp only [run, SelectQuery.fetchOneRow, SelectQuery.table_ofCalls]
    exact run_eq_of_once t decode (fetchOneRow calls) ps rfl fun r args =>
      Operation.conduct_query_ok _ (exactlyOne "no rows found") (fun _ => .rows 1)
  | fetchAll calls =>
    simp only [run, SelectQuery.fetchAll, SelectQuery.fetchRows, fetchRowsOf,
      SelectQuery.table_ofCalls, bind_assoc]
    exact run_eq_of_once t decode (fetchAll calls) ps rfl fun r args =>
      Operation.conduct_rows _ (decodeAll decode)
  | fetchRows calls =>
    simp only [run, SelectQuery.fetchRows, fetchRowsOf, SelectQuery.table_ofCalls]
    exact run_eq_of_once t decode (fetchRows calls) ps rfl fun r args =>
      (Operation.conduct_rows _ .ok).trans (bind_pure _)
  | compoundAll first calls =>
    simp only [run, CompoundQuery.fetchAll, CompoundQuery.fetchRows, fetchRowsOf,
      CompoundQuery.table_ofCalls, SelectQuery.table_ofCalls, bind_assoc]
    exact run_eq_of_once t decode (compoundAll first calls) ps rfl fun r args =>
      Operation.conduct_rows _ (decodeAll decode)
  | compoundRows first calls =>
    simp only [run, CompoundQuery.fetchRows, fetchRowsOf, CompoundQuery.table_ofCalls,
      SelectQuery.table_ofCalls]
    exact run_eq_of_once t decode (compoundRows first calls) ps rfl fun r args =>
      (Operation.conduct_rows _ .ok).trans (bind_pure _)
  | aggregate get fn column calls =>
    simp only [run, AggregateQuery.fetch, AggregateQuery.table_calls]
    refine run_eq_of_once t decode (aggregate get fn column calls) ps rfl fun r args => ?_
    refine (Operation.conduct_query_ok _ (AggregateQuery.number get) fun _ => .rows 1).trans ?_
    simp only [AggregateQuery.number, Run.ofExcept_bind]
    rfl
  | insert calls =>
    simp only [run, InsertQuery.exec, InsertQuery.table_ofCalls]
    exact run_eq_of_write t decode (insert calls) ps rfl rfl rfl rfl
  | update calls =>
    simp only [run, UpdateQuery.exec, UpdateQuery.table_ofCalls]
    exact run_eq_of_write t decode (update calls) ps rfl rfl rfl rfl
  | delete calls =>
    simp only [run, DeleteQuery.exec, DeleteQuery.table_ofCalls]
    exact run_eq_of_once t decode (delete calls) ps rfl fun r args =>
      Operation.conduct_execute _

variable {t : Table} {decode : Row → Except QueryError α} {m : Method α ρ} {ps : Params β}

/-- A method that sends one statement, written and bound. -/
theorem course_of_bound {r : Rendered} {args : List β} (hr : m.render t = .ok r)
    (hargs : ps.bind r.params = .ok args) (hback : m.readBack t = none) :
    m.course t decode ps = .ok (.operation r (.once ⟨m.mode, r.sql, args⟩ (m.report t decode))) := by
  simp only [course, hr, hback]
  show (ps.bind r.params >>= fun args => _) = _
  rw [hargs]
  rfl

/-- A method that reads back a row, with both statements written and bound. -/
theorem course_of_bound_readBack {r read : Rendered} {args readArgs : List β}
    (hr : m.render t = .ok r) (hargs : ps.bind r.params = .ok args)
    (hback : m.readBack t = some (.ok read)) (hreadArgs : ps.bind read.params = .ok readArgs) :
    m.course t decode ps =
      .ok (.operation r (.twice ⟨.execute, r.sql, args⟩ m.check ⟨.query, read.sql, readArgs⟩
        (m.report t decode))) := by
  simp only [course, hr, hback]
  show (ps.bind r.params >>= fun args => ps.bind read.params >>= fun readArgs => _) = _
  rw [hargs]
  show (ps.bind read.params >>= fun readArgs => _) = _
  rw [hreadArgs]
  rfl

/-- A method has a course only if its first statement is written and bound. -/
theorem bound_of_course {k : Course β ρ} (h : m.course t decode ps = .ok k) :
    ∃ r args, m.render t = .ok r ∧ ps.bind r.params = .ok args := by
  obtain ⟨r, hr, h⟩ := bind_ok h
  obtain ⟨args, hargs, -⟩ := bind_ok h
  exact ⟨r, args, hr, hargs⟩

end Method

namespace BatchMethod

variable {t : Table} {m : BatchMethod} {sets : List (Params β)}

theorem course_of_error {e : QueryError} (h : m.preflight t = .error e) :
    m.course t sets = .error e := by
  rw [course, h]
  rfl

theorem course_nil (h : m.preflight t = .ok ()) :
    m.course t ([] : List (Params β)) = .ok (.idle 0) := by
  rw [course, h]
  rfl

theorem course_of_sets (h : m.preflight t = .ok ()) (hsets : sets ≠ []) :
    m.course t sets = do
      let r ← m.render t sets.length
      let d ← m.dialogue r sets
      return .operation r d := by
  have hne : sets.isEmpty = false := List.isEmpty_eq_false_iff.2 hsets
  rw [course, h, hne]
  rfl

/-- A batch looks at its chain first, and without sets goes no further. -/
theorem run_eq_of_first {γ : Type} {first : Except QueryError γ} {rest : γ → Run β Nat}
    (hfirst : m.preflight t = first >>= fun _ => .ok ())
    (hrest : ∀ c, first = .ok c → rest c =
      Run.ofExcept (m.render t sets.length >>= fun r => m.dialogue r sets >>= fun d =>
        .ok (.operation r d)) >>= Course.run t m.kind) :
    (Run.ofExcept first >>= fun c => if sets.isEmpty then pure 0 else rest c) =
      Run.ofExcept (m.course t sets) >>= Course.run t m.kind := by
  cases hchain : first with
  | error e =>
    rw [hchain] at hfirst
    rw [course_of_error hfirst]
    rfl
  | ok c =>
    have hpre : m.preflight t = .ok () := by rw [hfirst, hchain]; rfl
    cases sets with
    | nil =>
      rw [course_nil hpre]
      rfl
    | cons set sets =>
      rw [course_of_sets hpre (List.cons_ne_nil set sets)]
      exact hrest c hchain

/-- A batch runs its course. -/
theorem run_eq (t : Table) (m : BatchMethod) (sets : List (Params β)) :
    m.run t sets = Run.ofExcept (m.course t sets) >>= Course.run t m.kind := by
  cases m with
  | insert calls =>
    simp only [run, InsertQuery.execBatch, InsertQuery.table_ofCalls]
    refine run_eq_of_first (m := insert calls) rfl fun conflict _ => ?_
    simp only [render, dialogue, Run.ofExcept_bind, bind_assoc, ← Operation.conduct_execute]
    rfl
  | update calls =>
    simp only [run, UpdateQuery.execBatch, UpdateQuery.table_ofCalls]
    refine run_eq_of_first (m := update calls) rfl fun c hc => ?_
    have hassigned : (UpdateQuery.ofCalls t calls).assigned = .ok c := hc
    simp only [render, hassigned, dialogue, Run.ofExcept_bind, bind_assoc, ← Operation.conduct_batch]
    rfl
  | delete calls =>
    simp only [run, DeleteQuery.execBatch, DeleteQuery.table_ofCalls]
    refine run_eq_of_first (m := delete calls) rfl fun conditions _ => ?_
    simp only [render, dialogue, Run.ofExcept_bind, bind_assoc, ← Operation.conduct_batch]
    rfl

end BatchMethod

namespace Execution

variable {t : Table} {decode : Row → Except QueryError α} {x : Execution α β ρ}

/-- Whatever is executed runs its course. -/
theorem run_eq (t : Table) (decode : Row → Except QueryError α) (x : Execution α β ρ) :
    x.run t decode = Run.ofExcept (x.course t decode) >>= Course.run t x.kind := by
  cases x with
  | once m ps => exact m.run_eq t decode ps
  | batch m sets => exact m.run_eq t sets

theorem start_of_error {e : QueryError} (h : x.course t decode = .error e) (c : Client β) :
    (x.run t decode).start c = (.error e, []) := by
  rw [run_eq, h]
  rfl

theorem start_of_idle {a : ρ} (h : x.course t decode = .ok (.idle a)) (c : Client β) :
    (x.run t decode).start c = (.ok a, []) := by
  rw [run_eq, h]
  rfl

theorem start_of_operation {first : Rendered} {d : Dialogue β (Report ρ)}
    (h : x.course t decode = .ok (.operation first d)) (c : Client β) :
    (x.run t decode).start c = ((Operation.new t x.kind first).conduct d).start c := by
  rw [run_eq, h]
  rfl

end Execution

end CheckedSql
