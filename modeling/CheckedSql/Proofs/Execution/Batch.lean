/-
Batches: a statement sent once for each of a list of sets of values. Each item goes through or fails,
for want of a value or with the client; a batch stops at the first item that fails, with the rows
that were affected before, and nothing of the items behind it is sent.
-/
import CheckedSql.Proofs.Execution.Course
import CheckedSql.Proofs.Params
import CheckedSql.Proofs.Query.Returning
import Mathlib.Tactic.IntervalCases

namespace CheckedSql

variable {β : Type}

/-! ## Items -/

/-- A statement that is sent for each of several sets of values, and the client it is sent to. -/
structure Batch (β : Type) where
  operation : Operation
  statement : Rendered
  sets : List (Params β)
  client : Client β

namespace Batch

variable (b : Batch β)

/-- The statement as it is sent with a set of values. -/
def said (set : Params β) : Sent β :=
  ⟨.execute, b.statement.sql, b.statement.params.filterMap set.get?⟩

/-- What is sent for the items before a number. -/
def saidBefore (i : Nat) : List (Sent β) :=
  (b.sets.take i).map b.said

/-- The first name that an item has no value for. -/
def lacks (i : Nat) : Option String :=
  b.sets[i]?.bind (·.lacking b.statement.params)

/-- What the client replies to an item that is sent behind all before it. -/
def reply (i : Nat) : Except QueryError Answer :=
  b.operation.judge (b.client.reply (b.saidBefore (i + 1)))

/-- How many rows the client reports for an item. -/
def count (i : Nat) : Nat :=
  match b.reply i with
  | .ok a => a.affected
  | .error _ => 0

/-- How many rows it reports for the items before a number. -/
def affected (i : Nat) : Nat :=
  ((List.range i).map b.count).sum

/-- An item that has a value for every name, and that the client executes. -/
def Passes (i : Nat) : Prop :=
  b.lacks i = none ∧ ∃ a, b.reply i = .ok a

theorem affected_succ (i : Nat) : b.affected (i + 1) = b.affected i + b.count i := by
  simp [affected, List.range_succ]

theorem saidBefore_succ {i : Nat} {set : Params β} (h : b.sets[i]? = some set) :
    b.saidBefore (i + 1) = b.saidBefore i ++ [b.said set] := by
  rw [saidBefore, List.take_add_one, h, List.map_append]
  rfl

/-- An item that has a value for every name is sent with these values, in the order of the names. -/
theorem said_args {set : Params β} (h : set.lacking b.statement.params = none) :
    (b.said set).args.map some = b.statement.params.map set.get? := by
  have hbind : set.bind b.statement.params = .ok (b.said set).args := by
    rw [Params.bind_eq, h]
    rfl
  exact (Params.bind_ok hbind).2

/-! ## Steps -/

/-- What is left to say from an item on. -/
def dialogueFrom (i : Nat) : Dialogue β (Report Nat) :=
  .batchFrom b.statement i (b.affected i) (b.sets.drop i)

/-- What the batch comes to and what is sent, once it has got to an item. -/
def outcomeFrom (i : Nat) : Except QueryError (Report Nat) × List (Sent β) :=
  let (result, sent) := (b.dialogueFrom i).hold (b.operation.answer b.client) (b.saidBefore i)
  (result, b.saidBefore i ++ sent)

variable {b} {i : Nat}

theorem drop_eq_cons {set : Params β} (h : b.sets[i]? = some set) :
    b.sets.drop i = set :: b.sets.drop (i + 1) := by
  obtain ⟨hi, rfl⟩ := List.getElem?_eq_some_iff.1 h
  exact List.drop_eq_getElem_cons hi

/-- The client's answer to an item, as the operation takes it. -/
theorem answer_said {set : Params β} (hset : b.sets[i]? = some set) :
    b.operation.answer b.client (b.saidBefore i ++ [b.said set]) =
      (b.reply i).mapError (.exec b.operation.info.label) := by
  rw [← b.saidBefore_succ hset]
  rfl

/-- An item with a value for every name is sent, and the answer says how the batch goes on. -/
theorem dialogueFrom_of_set {set : Params β} (hset : b.sets[i]? = some set)
    (h : b.lacks i = none) :
    b.dialogueFrom i =
      .ask (b.said set) fun
        | .ok a => .batchFrom b.statement (i + 1)
            (Operation.addCounts (b.affected i) a.affected) (b.sets.drop (i + 1))
        | .error e => .done (.error (.batch i (b.affected i) e)) := by
  have hlacking : set.lacking b.statement.params = none := by
    rw [lacks, hset] at h
    exact h
  rw [dialogueFrom, drop_eq_cons hset, Dialogue.batchFrom, Params.bind_eq, hlacking]
  rfl

/-- An item that lacks a value ends the batch, and is not sent. -/
theorem outcomeFrom_of_lacks {name : String} (h : b.lacks i = some name) :
    b.outcomeFrom i =
      (.error (.batch i (b.affected i) (.missingParam name)), b.saidBefore i) := by
  obtain ⟨set, hset, hname⟩ := Option.bind_eq_some_iff.1 h
  rw [outcomeFrom, dialogueFrom, drop_eq_cons hset, Dialogue.batchFrom,
    Params.bind_of_lacking hname]
  exact congrArg (Prod.mk _) (List.append_nil _)

/-- An item that the client does not execute ends the batch. -/
theorem outcomeFrom_of_error (hi : i < b.sets.length) (h : b.lacks i = none) {e : QueryError}
    (he : b.reply i = .error e) :
    b.outcomeFrom i =
      (.error (.batch i (b.affected i) (.exec b.operation.info.label e)),
        b.saidBefore (i + 1)) := by
  have hset := List.getElem?_eq_getElem hi
  have hanswer := answer_said hset
  rw [he] at hanswer
  rw [outcomeFrom, dialogueFrom_of_set hset h, Dialogue.hold, hanswer, b.saidBefore_succ hset]
  rfl

/-- Behind the last item the batch is done. -/
theorem outcomeFrom_length :
    b.outcomeFrom b.sets.length = (.ok (.count (b.affected b.sets.length)), b.sets.map b.said) := by
  rw [outcomeFrom, dialogueFrom, List.drop_length, saidBefore, List.take_length]
  exact congrArg (Prod.mk _) (List.append_nil _)

/-- An item that goes through brings the batch to the next one. -/
theorem outcomeFrom_of_passes (hi : i < b.sets.length) (h : b.Passes i)
    (hsum : b.affected (i + 1) < UInt64.size) : b.outcomeFrom i = b.outcomeFrom (i + 1) := by
  obtain ⟨hlacks, a, ha⟩ := h
  have hset := List.getElem?_eq_getElem hi
  have hanswer := answer_said hset
  rw [ha] at hanswer
  have hcount : Operation.addCounts (b.affected i) a.affected = b.affected (i + 1) := by
    rw [b.affected_succ, count, ha] at hsum ⊢
    exact Nat.mod_eq_of_lt hsum
  rw [outcomeFrom, dialogueFrom_of_set hset hlacks, Dialogue.hold, hanswer]
  show (_, b.saidBefore i ++ b.said b.sets[i] :: _) = b.outcomeFrom (i + 1)
  rw [outcomeFrom, b.saidBefore_succ hset, dialogueFrom, ← hcount]
  exact congrArg (Prod.mk _) (List.append_cons _ _ _)

/-- A batch whose items before a number go through gets to that item. -/
theorem outcomeFrom_eq_start (hi : i ≤ b.sets.length) (h : ∀ j < i, b.Passes j)
    (hsum : b.affected i < UInt64.size) : b.outcomeFrom 0 = b.outcomeFrom i := by
  induction i with
  | zero => rfl
  | succ i ih =>
    have hle : b.affected i ≤ b.affected (i + 1) := by
      rw [b.affected_succ]
      exact Nat.le_add_right _ _
    rw [ih (Nat.le_of_succ_le hi) (fun j hj => h j (Nat.lt_succ_of_lt hj))
      (Nat.lt_of_le_of_lt hle hsum)]
    exact outcomeFrom_of_passes hi (h i (Nat.lt_succ_self i)) hsum

/-- The operation of a batch comes to what the batch does from its first item on. -/
theorem start_conduct (b : Batch β) :
    ((b.operation.conduct (.batchFrom b.statement 0 0 b.sets)).start b.client).1 =
        (b.outcomeFrom 0).1 >>= Report.result ∧
      sentOf ((b.operation.conduct (.batchFrom b.statement 0 0 b.sets)).start b.client).2 =
        (b.outcomeFrom 0).2 := by
  rw [Operation.conduct_result, Operation.sentOf_conduct]
  exact ⟨rfl, rfl⟩

end Batch

/-! ## Batches of changes -/

/-- A batch that says its statement for each set: without sets it does nothing. -/
theorem BatchMethod.start_batchFrom {t : Table} {m : BatchMethod} {r : Rendered}
    {sets : List (Params β)} (hpre : m.preflight t = .ok ())
    (hrender : m.render t sets.length = .ok r)
    (hdialogue : m.dialogue r sets = .ok (.batchFrom r 0 0 sets)) (c : Client β) :
    (m.run t sets).start c =
      if sets = [] then (.ok 0, [])
      else ((Operation.new t m.kind r).conduct (.batchFrom r 0 0 sets)).start c := by
  rw [run_eq]
  split
  · rename_i hnil
    subst hnil
    rw [course_nil hpre]
    rfl
  · rename_i hsets
    have hcourse : m.course t sets = .ok (.operation r (.batchFrom r 0 0 sets)) := by
      rw [course_of_sets hpre hsets, hrender]
      show (m.dialogue r sets >>= fun d => _) = _
      rw [hdialogue]
      rfl
    rw [hcourse]
    rfl

namespace Mutation

/-- The statement that is sent for each set of values; it returns no rows. -/
def perSet : Mutation → Statement
  | update t calls => (UpdateQuery.ofCalls t calls).change []
  | delete t calls => (DeleteQuery.ofCalls t calls).change

/-- The kind of operation that a batch is. -/
def batchKind : Mutation → OperationKind
  | update _ _ => .updateBatch
  | delete _ _ => .deleteBatch

/-- The mutation, run once for each set of values. -/
def execBatch (m : Mutation) (sets : List (Params β)) : Run β Nat :=
  match m with
  | update t calls => (UpdateQuery.ofCalls t calls).execBatch sets
  | delete t calls => (DeleteQuery.ofCalls t calls).execBatch sets

/-- A batch of a mutation, with the statement as it is written and a client. -/
def batchOf (m : Mutation) (r : Rendered) (sets : List (Params β)) (c : Client β) : Batch β :=
  ⟨.new m.table m.batchKind r, r, sets, c⟩

/-- Where a mutation is written, so is the statement for each set of values, with the same names, and
a batch says it for each of them. -/
theorem render_perSet {m : Mutation} {o : Rendered} (h : m.render = .ok o) :
    ∃ r, m.table.renderer.render m.perSet = .ok r ∧ r.params = o.params ∧
      ∀ {β : Type} (sets : List (Params β)) (c : Client β),
        (m.execBatch sets).start c =
          if sets = [] then (.ok 0, [])
          else ((Operation.new m.table m.batchKind r).conduct (.batchFrom r 0 0 sets)).start c := by
  cases m with
  | update t calls =>
    obtain ⟨c, r, hc, hwhere, hr, hparams⟩ := UpdateQuery.renderStatement_nil_of_render h
    have hpre : (BatchMethod.update calls).preflight t = .ok () := by
      rw [BatchMethod.preflight, hc]
      rfl
    have hrender (n : Nat) : (BatchMethod.update calls).render t n = .ok r := by
      rw [BatchMethod.render, hc]
      show (c.requireWhere >>= fun _ => _) = _
      rw [hwhere]
      exact hr
    refine ⟨r, ?_, hparams, fun sets => BatchMethod.start_batchFrom hpre (hrender _) rfl⟩
    -- the text of an item returns nothing, whatever the statement written alone does
    rw [← UpdateQuery.assigned_ok hc, UpdateQuery.renderStatement,
      UpdateQuery.table_ofCalls t calls] at hr
    rw [perSet, UpdateQuery.change, UpdateQuery.table_ofCalls t calls]
    exact hr
  | delete t calls =>
    obtain ⟨conditions, hc, -⟩ := bind_ok h
    have hpre : (BatchMethod.delete calls).preflight t = .ok () := by
      rw [BatchMethod.preflight, hc]
      rfl
    refine ⟨o, ?_, rfl, fun sets => BatchMethod.start_batchFrom (m := .delete calls) hpre h rfl⟩
    have hguarded := DeleteQuery.render_guarded h
    rw [DeleteQuery.table_ofCalls] at hguarded
    exact hguarded.rendered

/-- A batch sends its statement for one set of values after another, in order, and stops at the first
item that lacks a value or that the client fails to execute. If there is none it comes to the sum of
the counts, and otherwise to an error that holds the item's number, the sum of the counts before it
and what went wrong. Without sets it sends nothing. -/
theorem batch_stops_at_first {m : Mutation} {o : Rendered} (h : m.render = .ok o) :
    ∃ r, m.table.renderer.render m.perSet = .ok r ∧ r.params = o.params ∧
      ∀ {β : Type} (sets : List (Params β)) (c : Client β),
        let b := m.batchOf r sets c
        let run := (m.execBatch sets).start c
        (sets = [] → run = (.ok 0, [])) ∧
        (∀ set ∈ sets, set.lacking r.params = none →
          (b.said set).args.map some = r.params.map set.get?) ∧
        ((∀ i < sets.length, b.Passes i) → b.affected sets.length < UInt64.size →
          run.1 = .ok (b.affected sets.length) ∧ sentOf run.2 = sets.map b.said) ∧
        ∀ i < sets.length, (∀ j < i, b.Passes j) → b.affected i < UInt64.size →
          (∀ name, b.lacks i = some name →
            run.1 = .error (.batch i (b.affected i) (.missingParam name)) ∧
              sentOf run.2 = (sets.take i).map b.said) ∧
          (b.lacks i = none → ∀ e, b.reply i = .error e →
            run.1 = .error (.batch i (b.affected i)
                (.exec (m.batchKind.text ++ " " ++ m.table.schema.table) e)) ∧
              sentOf run.2 = (sets.take (i + 1)).map b.said) := by
  obtain ⟨r, hr, hparams, hrun⟩ := render_perSet h
  refine ⟨r, hr, hparams, fun sets c => ?_⟩
  intro b run
  have hnothing (hnil : sets = []) : run = (.ok 0, []) := (hrun sets c).trans (if_pos hnil)
  -- the run is that of the batch from its first item, also when there is none
  obtain ⟨hresult, hsent⟩ : run.1 = (b.outcomeFrom 0).1 >>= Report.result ∧
      sentOf run.2 = (b.outcomeFrom 0).2 := by
    by_cases hnil : sets = []
    · rw [hnothing hnil]
      subst hnil
      exact ⟨rfl, rfl⟩
    · have hconduct : run = (b.operation.conduct (.batchFrom r 0 0 sets)).start c :=
        (hrun sets c).trans (if_neg hnil)
      rw [hconduct]
      exact b.start_conduct
  refine ⟨hnothing, fun set _ => b.said_args, fun hall hsum => ?_,
    fun i hi hbefore hsum => ⟨fun name hname => ?_, fun hlacks e he => ?_⟩⟩
  -- while items pass, the outcome from the start is that from the next one with the sum so far
  · have hstart := Batch.outcomeFrom_eq_start (b := b) (Nat.le_refl _) hall hsum
    rw [hresult, hsent, hstart, Batch.outcomeFrom_length]
    exact ⟨rfl, rfl⟩
  · have hstart := Batch.outcomeFrom_eq_start (b := b) (Nat.le_of_lt hi) hbefore hsum
    rw [hresult, hsent, hstart, Batch.outcomeFrom_of_lacks hname]
    exact ⟨rfl, rfl⟩
  · have hstart := Batch.outcomeFrom_eq_start (b := b) (Nat.le_of_lt hi) hbefore hsum
    rw [hresult, hsent, hstart, Batch.outcomeFrom_of_error hi hlacks he]
    exact ⟨rfl, rfl⟩

/-- The third of four items lacks a value: the client has executed two, and does not hear of the
fourth. -/
theorem batch_stops_at_first_lacking :
    let schema : Schema :=
      ⟨"users", [⟨"id", true, false⟩, ⟨"age", false, true⟩], by decide, by decide, by decide,
        by decide⟩
    let m : Mutation := .update { schema, renderer := .ofDialect .postgres }
      [.assign "age" "age", .whereCond (.compare "id" "=" "id")]
    let sets : List (Params Nat) :=
      [.ofList [("id", 1), ("age", 10)], .ofList [("age", 20), ("id", 2)], .ofList [("age", 30)],
        .ofList [("id", 4), ("age", 40)]]
    let c : Client Nat :=
      .ofScript [{ outcome := .ok { affected := 2 } }, { outcome := .ok { affected := 1 } }] ⟨0⟩
    let run := (m.execBatch sets).start c
    let sql := "UPDATE \"users\" SET \"age\" = $1 WHERE \"id\" = $2"
    m.render = .ok ⟨sql ++ " RETURNING \"id\", \"age\"", ["age", "id"]⟩ ∧
      run.1 = .error (.batch 2 3 (.missingParam "id")) ∧
      sentOf run.2 = [⟨.execute, sql, [10, 1]⟩, ⟨.execute, sql, [20, 2]⟩] := by
  intro schema m sets c run sql
  have hrender : m.render = .ok ⟨sql ++ " RETURNING \"id\", \"age\"", ["age", "id"]⟩ := by
    decide +kernel
  have hperSet : m.table.renderer.render m.perSet = .ok ⟨sql, ["age", "id"]⟩ := by decide +kernel
  obtain ⟨r, hr, -, hrun⟩ := batch_stops_at_first hrender
  rw [hperSet] at hr
  cases hr
  have hpasses : ∀ j < 2, (m.batchOf ⟨sql, ["age", "id"]⟩ sets c).Passes j := by
    intro j hj
    interval_cases j <;> exact ⟨by decide +kernel, _, rfl⟩
  obtain ⟨hresult, hsent⟩ := ((hrun sets c).2.2.2 2 (by decide) hpasses (by decide +kernel)).1 "id"
    (by decide +kernel)
  exact ⟨hrender, hresult, hsent⟩

end Mutation

end CheckedSql
