/-
Queries that change or remove rows reach no more rows than a WHERE condition lets them. Whatever
calls they are built by, whatever values they are run with and whatever the client replies: every
statement that is written or sent for them has the conditions of their chain in its WHERE clause,
and there is at least one. Without any, nothing is sent.
-/
import CheckedSql.Execution.Write
import CheckedSql.Proofs.Execution.Sends
import CheckedSql.Proofs.Numbering
import CheckedSql.Proofs.Query.Clauses
import CheckedSql.Proofs.Sql.Scan
import Mathlib.Control.Monad.Basic

namespace CheckedSql

open Run (start_bind_error start_error)
open Sql (Token)

/-! ## Conditions in a text -/

/-- The conditions of the WHERE clause of a statement. -/
def Statement.conditions : Statement → List Cond
  | .select s => s.conditions
  | .update s => s.conditions
  | .delete s => s.conditions
  | .insert _ | .compound _ => []

theorem Cond.tokens_ne_nil (c : Cond) : c.tokens ≠ [] := by
  cases c <;> simp [Cond.tokens, aggregateTokens, Sql.parenthesized]

theorem conjunctionTokens_ne_nil {cs : List Cond} (h : cs ≠ []) : conjunctionTokens cs ≠ [] := by
  obtain ⟨c, cs, rfl⟩ := List.exists_cons_of_ne_nil h
  unfold conjunctionTokens
  cases cs with
  | nil => simpa [Cond.tokensEach] using c.tokens_ne_nil
  | cons d cs =>
    rw [Cond.tokensEach, Cond.tokensEach, List.intercalate_cons_cons]
    simp

theorem whereTokens_infix {st : Statement} (h : st.conditions ≠ []) :
    whereTokens st.conditions <:+: st.tokens := by
  cases st with
  | select s =>
    -- behind the WHERE clause stand the grouping, its test, the tail and the lock
    have hhead {ts : Tokens} : whereTokens s.conditions <:+: ts ++ whereTokens s.conditions :=
      (List.suffix_append _ _).isInfix
    exact List.infix_append_of_infix_left (List.infix_append_of_infix_left
      (List.infix_append_of_infix_left (List.infix_append_of_infix_left hhead)))
  | update s => exact List.infix_append_of_infix_left (List.suffix_append _ _).isInfix
  | delete s => exact (List.suffix_append (Sql.keywords [.DELETE, .FROM] ++ [_]) _).isInfix
  | insert s => exact absurd rfl h
  | compound s => exact absurd rfl h

/-- The conditions of a statement stand behind its WHERE. -/
theorem Statement.tokens_where {st : Statement} (h : st.conditions ≠ []) :
    ∃ before after,
      st.tokens = before ++ .keyword .WHERE :: conjunctionTokens st.conditions ++ after := by
  obtain ⟨before, after, htokens⟩ := whereTokens_infix h
  rw [whereTokens, List.isEmpty_eq_false_iff.2 h] at htokens
  exact ⟨before, after, htokens.symm⟩

/-- A text that is written for a statement with conditions, and has them behind its WHERE. -/
structure Guarded (r : Renderer) (st : Statement) (o : Rendered) : Prop where
  rendered : r.render st = .ok o
  conditions : st.conditions ≠ []
  carried : ∃ before cond after, cond ≠ [] ∧ cond = o.numbered (conjunctionTokens st.conditions) ∧
    Sql.scan o.sql = some (before ++ .keyword .WHERE :: cond ++ after)

theorem Guarded.of_render {r : Renderer} {st : Statement} {o : Rendered}
    (h : r.render st = .ok o) (hst : st.conditions ≠ []) : Guarded r st o := by
  refine ⟨h, hst, ?_⟩
  obtain ⟨ho, -⟩ := Renderer.render_ok h
  obtain ⟨before, after, htokens⟩ := Statement.tokens_where hst
  refine ⟨o.numbered before, _, o.numbered after, ?_, rfl, ?_⟩
  · exact fun hnil => conjunctionTokens_ne_nil hst (List.map_eq_nil_iff.1 hnil)
  · have hsql : o.sql = Sql.textOf placeholder (o.numbered st.tokens) := by
      rw [ho]
      exact (Rendered.ofTokens_eq st.tokens).2
    rw [hsql, Sql.scan_textOf, htokens]
    simp [Rendered.numbered, Token.map]

/-! ## Queries that change rows -/

namespace UpdateQuery

/-- Whether a call sets a column. -/
def Call.isAssign : Call → Bool
  | .assign _ _ => true
  | .whereCond _ => false

/-- A chain of calls is a chain on the clauses alone. -/
theorem ofCalls_eq (t : Table) (calls : List Call) :
    ofCalls t calls =
      { table := t
        chain := calls.foldl (fun ch c => ch.call fun g => g.apply t.schema c)
          { clauses := {} } } := by
  exact List.foldl_hom (fun ch => UpdateQuery.mk t ch) fun _ _ => rfl

theorem isEmpty_assignments {s : Schema} {c next : Clauses} {call : Call}
    (h : c.apply s call = .ok next) :
    next.assignments.isEmpty = (c.assignments.isEmpty && !call.isAssign) := by
  cases call with
  | whereCond cond =>
    obtain ⟨cs, -, h⟩ := bind_ok h
    cases h
    simp [Call.isAssign]
  | assign column param =>
    obtain ⟨x, -, h⟩ := bind_ok h
    obtain ⟨p, -, h⟩ := bind_ok h
    cases h
    simp [Call.isAssign]

/-- Without a fault there are assignments if and only if some call makes one. -/
theorem isEmpty_assignments_ofCalls {t : Table} {calls : List Call}
    (h : (ofCalls t calls).chain.fault = none) :
    (ofCalls t calls).chain.clauses.assignments.isEmpty = !calls.any Call.isAssign := by
  have hresult := Chain.result_ok_iff.2 ⟨h, rfl⟩
  have hnone : ({} : Clauses).assignments.isEmpty = !([] : List Call).any Call.isAssign := rfl
  rw [ofCalls_eq] at hresult ⊢
  refine Chain.result_foldl (P := fun done g => g.assignments.isEmpty = !done.any Call.isAssign)
    (fun done g x next hdone hstep => ?_) calls (fun _ => hnone) hresult
  rw [isEmpty_assignments hstep, hdone]
  simp

theorem assigned_ok {q : UpdateQuery} {c : Clauses} (h : q.assigned = .ok c) :
    q.chain.clauses = c := by
  obtain ⟨g, hg, h⟩ := bind_ok h
  rw [← Chain.result_ok (liftBuild_ok hg)]
  split at h
  · cases h
  · cases h
    rfl

theorem requireWhere_ok {c : Clauses} {u : Unit} (h : c.requireWhere = .ok u) :
    c.conditions ≠ [] := by
  unfold Clauses.requireWhere at h
  split at h
  · cases h
  · rename_i hne
    simpa using hne

theorem requireWhere_of_not_hasWhere {q : UpdateQuery} (h : q.hasWhere = false) :
    q.chain.clauses.requireWhere = .error (.missingWhere "update") := by
  have hnone : q.chain.clauses.conditions.isEmpty = true := by simpa [hasWhere] using h
  rw [Clauses.requireWhere, hnone]
  rfl

theorem table_ofCalls (t : Table) (calls : List Call) : (ofCalls t calls).table = t := by
  rw [ofCalls_eq]

/-- The UPDATE of a chain. -/
def change (q : UpdateQuery) (returning : List Column) : Statement :=
  .update
    { table := q.table.schema.table
      assignments := q.chain.clauses.assignments
      conditions := q.chain.clauses.conditions
      returning }

theorem change_guarded {q : UpdateQuery} {c : Clauses} {u : Unit} {returning : List Column}
    {o : Rendered} (hc : q.assigned = .ok c) (hwhere : c.requireWhere = .ok u)
    (h : q.renderStatement c returning = .ok o) :
    Guarded q.table.renderer (q.change returning) o := by
  have hconditions := requireWhere_ok hwhere
  rw [← assigned_ok hc] at h hconditions
  exact .of_render h hconditions

/-- The UPDATE that is sent alone or first. -/
theorem render_guarded {q : UpdateQuery} {o : Rendered} (h : q.render = .ok o) :
    q.chain.clauses.conditions ≠ [] ∧
      ∃ returning ∈ [[], q.table.schema.allColumns],
        Guarded q.table.renderer (q.change returning) o := by
  obtain ⟨c, hc, h⟩ := bind_ok h
  obtain ⟨u, hu, h⟩ := bind_ok h
  refine ⟨by rw [assigned_ok hc]; exact requireWhere_ok hu, _, ?_, change_guarded hc hu h⟩
  split <;> simp

theorem readBack_guarded {q : UpdateQuery} {o : Rendered} (hwhere : q.chain.clauses.conditions ≠ [])
    (h : q.renderReadBack = .ok o) :
    Guarded q.table.renderer (.select (q.readBack q.chain.clauses)) o := by
  obtain ⟨c, hc, h⟩ := bind_ok h
  rw [← assigned_ok hc] at h
  exact .of_render h hwhere

end UpdateQuery

/-! ## Queries that remove rows -/

namespace DeleteQuery

theorem table_ofCalls (t : Table) (calls : List Call) : (ofCalls t calls).table = t := by
  refine List.foldlRecOn (motive := fun q : DeleteQuery => q.table = t) calls call rfl ?_
  rintro q hq ⟨cond⟩ -
  exact hq

/-- The DELETE of a chain. -/
def change (q : DeleteQuery) : Statement :=
  .delete { table := q.table.schema.table, conditions := q.chain.clauses }

theorem render_guarded {q : DeleteQuery} {o : Rendered} (h : q.render = .ok o) :
    Guarded q.table.renderer q.change o := by
  obtain ⟨cs, hcs, h⟩ := bind_ok h
  rw [Chain.result_ok (liftBuild_ok hcs)] at h
  split at h
  · cases h
  · rename_i hne
    exact .of_render h fun hnil => hne (List.isEmpty_iff.2 hnil)

end DeleteQuery

/-! ## Mutations -/

/-- A query that changes or removes rows, by its table and the calls of its chain. -/
inductive Mutation
  | update (t : Table) (calls : List UpdateQuery.Call)
  | delete (t : Table) (calls : List DeleteQuery.Call)

/-- How a mutation is run: once, or once for each of several sets of values. -/
inductive Use (β : Type)
  | once (ps : Params β)
  | batch (sets : List (Params β))

/-- What running a mutation comes to: the row as it is stored, or how many rows were reached. -/
inductive Effect (α : Type)
  | row (a : α)
  | count (n : Nat)

/-- What a use comes to that has nothing to do. -/
def Use.nothing {α β : Type} : Use β → Option (Effect α)
  | batch [] => some (.count 0)
  | _ => none

namespace Mutation

/-- The table whose rows are reached. -/
def table : Mutation → Table
  | update t _ | delete t _ => t

/-- The verb of the statement. -/
def verb : Mutation → String
  | update _ _ => "update"
  | delete _ _ => "delete"

/-- The first error of the chain. -/
def fault : Mutation → Option BuildError
  | update t calls => (UpdateQuery.ofCalls t calls).chain.fault
  | delete t calls => (DeleteQuery.ofCalls t calls).chain.fault

/-- Whether the chain has a WHERE condition. -/
def hasWhere : Mutation → Bool
  | update t calls => (UpdateQuery.ofCalls t calls).hasWhere
  | delete t calls => (DeleteQuery.ofCalls t calls).hasWhere

/-- Whether a column is missing that would be set. -/
def lacksSet : Mutation → Bool
  | update _ calls => !calls.any UpdateQuery.Call.isAssign
  | delete _ _ => false

/-- The statement as it is sent. -/
def render : Mutation → Except QueryError Rendered
  | update t calls => (UpdateQuery.ofCalls t calls).render
  | delete t calls => (DeleteQuery.ofCalls t calls).render

/-- The mutation as it is run. -/
def run {α β : Type} (decode : Row → Except QueryError α) : Mutation → Use β → Run β (Effect α)
  | update t calls, .once ps => do
    let a ← (UpdateQuery.ofCalls t calls).exec decode ps
    return .row a
  | update t calls, .batch sets => do
    let n ← (UpdateQuery.ofCalls t calls).execBatch sets
    return .count n
  | delete t calls, .once ps => do
    let n ← (DeleteQuery.ofCalls t calls).exec ps
    return .count n
  | delete t calls, .batch sets => do
    let n ← (DeleteQuery.ofCalls t calls).execBatch sets
    return .count n

/-- The statements that change or remove rows: an UPDATE may return them or not. -/
def changes : Mutation → List Statement
  | update t calls => [[], t.schema.allColumns].map (UpdateQuery.ofCalls t calls).change
  | delete t calls => [(DeleteQuery.ofCalls t calls).change]

/-- The statements that read back what was changed. -/
def reads : Mutation → List Statement
  | update t calls =>
    let q := UpdateQuery.ofCalls t calls
    [.select (q.readBack q.chain.clauses)]
  | delete _ _ => []

/-- What is checked first: that no call has failed, then that there is something to set. -/
def preflight (m : Mutation) : Except QueryError Unit :=
  match m.fault with
  | some e => .error (.build e)
  | none =>
    if m.lacksSet then .error (.build (.incomplete "update without any SET column")) else .ok ()

/-- What a mutation without a WHERE condition comes to: what is checked first is an error, then it
does nothing if there is nothing to do, then it is refused. -/
def refused {ρ : Type} (m : Mutation) (nothing : Option ρ) : Except QueryError ρ :=
  match m.preflight with
  | .error e => .error e
  | .ok () =>
    match nothing with
    | some a => .ok a
    | none => .error (.missingWhere m.verb)

/-! ## What is sent -/

/-- A statement that is sent for a mutation: it changes, removes or reads back rows under the
conditions of the chain, of which there is at least one. -/
def Allows {β : Type} (m : Mutation) (s : Sent β) : Prop :=
  ∃ st ∈ m.changes ++ m.reads, ∃ o, Guarded m.table.renderer st o ∧ s.sql = o.sql

theorem render_guarded {m : Mutation} {o : Rendered} (h : m.render = .ok o) :
    ∃ st ∈ m.changes, Guarded m.table.renderer st o := by
  cases m with
  | update t calls =>
    obtain ⟨-, returning, hmem, hguarded⟩ := UpdateQuery.render_guarded h
    rw [UpdateQuery.table_ofCalls] at hmem hguarded
    exact ⟨_, List.mem_map_of_mem hmem, hguarded⟩
  | delete t calls =>
    have hguarded := DeleteQuery.render_guarded h
    rw [DeleteQuery.table_ofCalls] at hguarded
    exact ⟨_, List.mem_singleton_self _, hguarded⟩

theorem allows_change {β : Type} {m : Mutation} {st : Statement} {o : Rendered}
    (hst : st ∈ m.changes) (h : Guarded m.table.renderer st o) (mode : Mode) (args : List β) :
    m.Allows ⟨mode, o.sql, args⟩ :=
  ⟨st, List.mem_append_left _ hst, o, h, rfl⟩

variable {α β : Type} {decode : Row → Except QueryError α}

theorem update_sends (t : Table) (calls : List UpdateQuery.Call) (use : Use β) :
    Run.Sends (update t calls).Allows ((update t calls).run decode use) := by
  cases use with
  | once ps =>
    refine .bind ?_ fun _ => .pure _
    refine .bindExcept fun r hr => .bindExcept fun args _ => ?_
    obtain ⟨st, hst, hguarded⟩ := render_guarded (m := .update t calls) hr
    -- where the UPDATE does not return the row, it is read back under the same conditions
    split
    · exact sends_writeReturning (allows_change hst hguarded .query args)
    · refine .bindExcept fun read hread => .bindExcept fun readArgs _ => ?_
      have hback := UpdateQuery.readBack_guarded (UpdateQuery.render_guarded hr).1 hread
      rw [UpdateQuery.table_ofCalls] at hback
      refine sends_writeThenRead (allows_change hst hguarded .execute args) ?_
      exact ⟨_, List.mem_append_right _ (List.mem_singleton_self _), read, hback, rfl⟩
  | batch sets =>
    refine .bind ?_ fun _ => .pure _
    refine .bindExcept fun c hc => ?_
    split
    · exact .pure _
    · refine .bindExcept fun u hu => .bindExcept fun r hr => ?_
      have hguarded := UpdateQuery.change_guarded hc hu hr
      rw [UpdateQuery.table_ofCalls] at hguarded
      have hst : (UpdateQuery.ofCalls t calls).change [] ∈ (update t calls).changes :=
        List.mem_map_of_mem List.mem_cons_self
      exact Operation.sends_monitored _ <| Operation.sends_batch _
        (allows_change hst hguarded .execute) sets

theorem delete_sends (t : Table) (calls : List DeleteQuery.Call) (use : Use β) :
    Run.Sends (delete t calls).Allows ((delete t calls).run decode use) := by
  cases use with
  | once ps =>
    refine .bind ?_ fun _ => .pure _
    refine .bindExcept fun r hr => .bindExcept fun args _ => ?_
    obtain ⟨st, hst, hguarded⟩ := render_guarded (m := .delete t calls) hr
    exact Operation.sends_monitored _ <| Operation.sends_execute _
      (allows_change hst hguarded .execute args)
  | batch sets =>
    refine .bind ?_ fun _ => .pure _
    refine .bindExcept fun cs _ => ?_
    split
    · exact .pure _
    · refine .bindExcept fun r hr => ?_
      obtain ⟨st, hst, hguarded⟩ := render_guarded (m := .delete t calls) hr
      exact Operation.sends_monitored _ <| Operation.sends_batch _
        (allows_change hst hguarded .execute) sets

theorem run_sends (m : Mutation) (use : Use β) : Run.Sends m.Allows (m.run decode use) := by
  cases m with
  | update t calls => exact update_sends t calls use
  | delete t calls => exact delete_sends t calls use

/-! ## What is refused -/

theorem preflight_of_fault (m : Mutation) {e : BuildError} (h : m.fault = some e) :
    m.preflight = .error (.build e) := by
  rw [preflight, h]

theorem preflight_of_sound (m : Mutation) (h : m.fault = none) :
    m.preflight =
      if m.lacksSet then .error (.build (.incomplete "update without any SET column"))
      else .ok () := by
  rw [preflight, h]

/-- The clauses of an UPDATE are checked like the mutation. -/
theorem assigned_eq_preflight (t : Table) (calls : List UpdateQuery.Call) :
    (UpdateQuery.ofCalls t calls).assigned =
      (update t calls).preflight.map fun _ => (UpdateQuery.ofCalls t calls).chain.clauses := by
  unfold UpdateQuery.assigned Chain.result
  cases hfault : (UpdateQuery.ofCalls t calls).chain.fault with
  | some e =>
    rw [preflight_of_fault (update t calls) hfault]
    rfl
  | none =>
    have hset : (UpdateQuery.ofCalls t calls).chain.clauses.assignments.isEmpty =
        (update t calls).lacksSet := UpdateQuery.isEmpty_assignments_ofCalls hfault
    rw [preflight_of_sound (update t calls) hfault]
    simp only [liftBuild, bind, Except.bind, hset]
    cases (update t calls).lacksSet <;> rfl

/-- The clauses of a DELETE are checked like the mutation. -/
theorem result_eq_preflight (t : Table) (calls : List DeleteQuery.Call) :
    liftBuild (DeleteQuery.ofCalls t calls).chain.result =
      (delete t calls).preflight.map fun _ => (DeleteQuery.ofCalls t calls).chain.clauses := by
  unfold Chain.result
  cases hfault : (DeleteQuery.ofCalls t calls).chain.fault with
  | some e =>
    rw [preflight_of_fault (delete t calls) hfault]
    rfl
  | none =>
    rw [preflight_of_sound (delete t calls) hfault]
    rfl

theorem render_refused {m : Mutation} (h : m.hasWhere = false) : m.render = m.refused none := by
  cases m with
  | update t calls =>
    have hwhere := UpdateQuery.requireWhere_of_not_hasWhere h
    show (UpdateQuery.ofCalls t calls).render = _
    unfold UpdateQuery.render refused
    rw [assigned_eq_preflight]
    cases (update t calls).preflight with
    | error e => rfl
    | ok u =>
      simp only [Except.map, bind, Except.bind, hwhere]
      rfl
  | delete t calls =>
    have hnone : (DeleteQuery.ofCalls t calls).chain.clauses.isEmpty = true := by
      simpa [hasWhere, DeleteQuery.hasWhere] using h
    show (DeleteQuery.ofCalls t calls).render = _
    unfold DeleteQuery.render refused
    rw [result_eq_preflight]
    cases (delete t calls).preflight with
    | error e => rfl
    | ok u =>
      simp only [Except.map, bind, Except.bind, hnone]
      rfl

theorem refused_of_error {ρ : Type} {m : Mutation} {e : QueryError} (h : m.preflight = .error e)
    (nothing : Option ρ) : m.refused nothing = .error e := by
  unfold refused
  rw [h]

theorem refused_of_ok {ρ : Type} {m : Mutation} {u : Unit} (h : m.preflight = .ok u)
    (nothing : Option ρ) :
    m.refused nothing = nothing.elim (.error (.missingWhere m.verb)) .ok := by
  unfold refused
  rw [h]
  cases nothing <;> rfl

theorem refused_none (m : Mutation) :
    ∃ e, ∀ ρ : Type, m.refused (none : Option ρ) = .error e := by
  cases h : m.preflight with
  | error e => exact ⟨e, fun _ => refused_of_error h none⟩
  | ok u => exact ⟨.missingWhere m.verb, fun _ => refused_of_ok h none⟩

theorem once_refused {m : Mutation} (h : m.hasWhere = false) (ps : Params β) (c : Client β) :
    (m.run decode (.once ps)).start c = (m.refused none, []) := by
  obtain ⟨e, he⟩ := m.refused_none
  have hrender : m.render = .error e := (render_refused h).trans (he _)
  rw [he]
  cases m with
  | update t calls => exact start_bind_error (start_error hrender c)
  | delete t calls => exact start_bind_error (start_error hrender c)

theorem update_batch_refused {t : Table} {calls : List UpdateQuery.Call}
    (h : (update t calls).hasWhere = false) (sets : List (Params β)) (c : Client β) :
    ((update t calls).run decode (.batch sets)).start c =
      ((update t calls).refused (Use.batch sets).nothing, []) := by
  have hassigned := assigned_eq_preflight t calls
  cases hpre : (update t calls).preflight with
  | error e =>
    rw [hpre] at hassigned
    rw [refused_of_error hpre]
    exact start_bind_error (start_error hassigned c)
  | ok u =>
    rw [hpre] at hassigned
    have hwhere := UpdateQuery.requireWhere_of_not_hasWhere h
    rw [refused_of_ok hpre]
    show ((UpdateQuery.ofCalls t calls).execBatch sets >>= fun n =>
      pure (Effect.count n)).start c = _
    unfold UpdateQuery.execBatch
    rw [hassigned]
    cases sets with
    | nil => rfl
    | cons set sets =>
      -- the WHERE condition is only asked for once there is something to do
      exact start_bind_error (start_error hwhere c)

theorem delete_batch_refused {t : Table} {calls : List DeleteQuery.Call}
    (h : (delete t calls).hasWhere = false) (sets : List (Params β)) (c : Client β) :
    ((delete t calls).run decode (.batch sets)).start c =
      ((delete t calls).refused (Use.batch sets).nothing, []) := by
  have hresult := result_eq_preflight t calls
  cases hpre : (delete t calls).preflight with
  | error e =>
    rw [hpre] at hresult
    rw [refused_of_error hpre]
    exact start_bind_error (start_error hresult c)
  | ok u =>
    rw [hpre] at hresult
    have hrender : (DeleteQuery.ofCalls t calls).render =
        .error (.missingWhere (delete t calls).verb) := by
      have hrefused := render_refused h
      rw [refused_of_ok hpre] at hrefused
      exact hrefused
    rw [refused_of_ok hpre]
    show ((DeleteQuery.ofCalls t calls).execBatch sets >>= fun n =>
      pure (Effect.count n)).start c = _
    unfold DeleteQuery.execBatch
    rw [hresult]
    -- the chain is checked though there is nothing to do; a condition is asked for only after that
    cases sets with
    | nil => rfl
    | cons set sets => exact start_bind_error (start_error hrender c)

theorem run_refused {m : Mutation} (h : m.hasWhere = false) (use : Use β) (c : Client β) :
    (m.run decode use).start c = (m.refused use.nothing, []) := by
  cases use with
  | once ps => exact once_refused h ps c
  | batch sets =>
    cases m with
    | update t calls => exact update_batch_refused h sets c
    | delete t calls => exact delete_batch_refused h sets c

/-- Rows are changed or removed under a condition only. What a mutation is rendered as changes or
removes rows under the conditions of its chain, and so does, or reads them back under the same
conditions, every statement that is sent when it is run, with whatever values and whatever the
client replies; there is at least one condition, and it stands in the text. A mutation without a
condition is not rendered, and running it sends nothing and tells nobody. -/
theorem reaches_under_where (m : Mutation) :
    (∀ o, m.render = .ok o → ∃ st ∈ m.changes, Guarded m.table.renderer st o) ∧
    (∀ (α β : Type) (decode : Row → Except QueryError α) (use : Use β) (c : Client β),
      ∀ s ∈ sentOf ((m.run decode use).start c).2,
        ∃ st ∈ m.changes ++ m.reads, ∃ o, Guarded m.table.renderer st o ∧ s.sql = o.sql) ∧
    (m.hasWhere = false →
      m.render = m.refused none ∧
      ∀ (α β : Type) (decode : Row → Except QueryError α) (use : Use β) (c : Client β),
        (m.run decode use).start c = (m.refused use.nothing, [])) :=
  ⟨fun _ h => render_guarded h, fun _ _ _ use c => (run_sends m use).start c,
    fun h => ⟨render_refused h, fun _ _ _ use c => run_refused h use c⟩⟩

/-- Groups without members are no condition, so the DELETE would reach every row. Beside one that has
a member they take nothing away: the UPDATE is sent under its condition, and so is the SELECT that
reads the row back, as the dialect cannot return it. -/
theorem reaches_under_where_empty_groups :
    let schema : Schema :=
      ⟨"users", [⟨"id", true, false⟩, ⟨"age", false, true⟩], by decide, by decide, by decide,
        by decide⟩
    let t : Table := { schema, renderer := .ofDialect .redshift }
    let groups : Condition := .group .and [.group .or [], .group .and []]
    let m : Mutation := .delete t [.whereCond groups]
    let u : Mutation :=
      .update t [.assign "age" "n", .whereCond (.group .or [groups, .compare "id" "=" "id"])]
    let c : Client Nat :=
      .ofScript [{ outcome := .ok { affected := 1 } }, { outcome := .ok { rows := [[]] } }] ⟨0⟩
    let o : Rendered := ⟨"UPDATE \"users\" SET \"age\" = $1 WHERE \"id\" = $2", ["n", "id"]⟩
    let read := "SELECT \"id\", \"age\" FROM \"users\" WHERE \"id\" = $1"
    let run := (u.run (fun _ => .ok ()) (.once (.ofList [("id", 7), ("n", 30)]))).start c
    (m.hasWhere = false ∧ m.render = .error (.missingWhere "delete") ∧
      (m.run (fun _ => .ok ()) (.once .empty)).start c = (.error (.missingWhere "delete"), []) ∧
      (m.run (fun _ => .ok ()) (.batch [])).start c = (.ok (.count 0), [])) ∧
    (u.render = .ok o ∧ ∃ st ∈ u.changes, Guarded u.table.renderer st o) ∧
    sentOf run.2 = [⟨.execute, o.sql, [30, 7]⟩, ⟨.query, read, [7]⟩] ∧
      ∀ s ∈ sentOf run.2,
        ∃ st ∈ u.changes ++ u.reads, ∃ o, Guarded u.table.renderer st o ∧ s.sql = o.sql := by
  intro schema t groups m u c o read run
  obtain ⟨hrefused, hrun⟩ := (reaches_under_where m).2.2 rfl
  obtain ⟨hchange, hsends, -⟩ := reaches_under_where u
  have hrender : u.render = .ok o := by decide +kernel
  have hsent : sentOf run.2 = [⟨.execute, o.sql, [30, 7]⟩, ⟨.query, read, [7]⟩] := by
    decide +kernel
  exact ⟨⟨rfl, hrefused, hrun _ _ _ _ c, hrun _ _ _ _ c⟩, ⟨hrender, hchange o hrender⟩, hsent,
    hsends _ _ _ _ c⟩

end Mutation

end CheckedSql
