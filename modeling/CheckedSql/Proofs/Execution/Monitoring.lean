/-
What a monitor hears of an execution. It hears of one operation, around all that is sent for it, or
of none if nothing is sent; and neither a monitor, nor whether there is monitoring, nor what counts as
slow makes a difference to what is sent or to what it comes to.
-/
import CheckedSql.Monitor.Stats
import CheckedSql.Proofs.Execution.Plan

namespace CheckedSql

variable {α β ρ σ : Type}

/-! ## How operations are run is no part of a course -/

section Config

variable (t : Table) (config : RunConfig)

theorem Method.render_config (m : Method α ρ) : m.render { t with config } = m.render t := by
  cases m with
  | fetchOne calls | fetchOneRow calls | fetchAll calls | fetchRows calls =>
    simp only [render, SelectQuery.ofCalls_eq]
    rfl
  | compoundAll first calls | compoundRows first calls =>
    simp only [render, CompoundQuery.ofCalls_eq, SelectQuery.ofCalls_eq]
    rfl
  | aggregate get fn column calls =>
    simp only [render, AggregateQuery.calls_eq]
    unfold AggregateQuery.new
    cases AggregateQuery.target t.schema fn column <;> rfl
  | insert calls =>
    simp only [render, InsertQuery.ofCalls_eq]
    rfl
  | update calls =>
    simp only [render, UpdateQuery.ofCalls_eq]
    rfl
  | delete calls =>
    simp only [render, DeleteQuery.ofCalls_eq]
    rfl

theorem Method.readBack_config (m : Method α ρ) :
    m.readBack { t with config } = m.readBack t := by
  cases m with
  | insert calls =>
    simp only [readBack, InsertQuery.ofCalls_eq]
    rfl
  | update calls =>
    simp only [readBack, UpdateQuery.ofCalls_eq]
    rfl
  | _ => rfl

theorem Method.report_config (decode : Row → Except QueryError α) (m : Method α ρ) :
    m.report { t with config } decode = m.report t decode := by
  cases m <;> rfl

theorem BatchMethod.preflight_config (m : BatchMethod) :
    m.preflight { t with config } = m.preflight t := by
  cases m with
  | insert calls => simp only [preflight, InsertQuery.ofCalls_eq]
  | update calls =>
    simp only [preflight, UpdateQuery.ofCalls_eq]
    rfl
  | delete calls => simp only [preflight, DeleteQuery.ofCalls_eq]

theorem BatchMethod.render_config (count : Nat) (m : BatchMethod) :
    m.render { t with config } count = m.render t count := by
  cases m with
  | insert calls =>
    simp only [render, InsertQuery.ofCalls_eq]
    rfl
  | update calls =>
    simp only [render, UpdateQuery.ofCalls_eq]
    rfl
  | delete calls =>
    simp only [render, DeleteQuery.ofCalls_eq]
    rfl

/-- The course is the same, however operations are run. -/
theorem Execution.course_config (decode : Row → Except QueryError α) (x : Execution α β ρ) :
    x.course { t with config } decode = x.course t decode := by
  cases x with
  | once m ps =>
    simp only [course, Method.course, m.render_config, m.readBack_config, m.report_config]
  | batch m sets =>
    simp only [course, BatchMethod.course, m.preflight_config, m.render_config]

end Config

/-! ## The first statement -/

/-- An operation is about the first of the planned statements. -/
theorem Method.plan_of_operation {t : Table} {decode : Row → Except QueryError α} {m : Method α ρ}
    {ps : Params β} {first : Rendered} {d : Dialogue β (Report ρ)}
    (h : m.course t decode ps = .ok (.operation first d)) :
    ∃ p rest, m.plan t ps = .ok (p :: rest) ∧ p.statement = first := by
  obtain ⟨r, hr, h⟩ := bind_ok h
  obtain ⟨args, -, h⟩ := bind_ok h
  unfold plan
  rw [hr]
  cases hback : m.readBack t with
  | none =>
    rw [hback] at h
    cases h
    exact ⟨_, _, rfl, rfl⟩
  | some read =>
    rw [hback] at h
    obtain ⟨o, hread, h⟩ := bind_ok h
    obtain ⟨readArgs, -, h⟩ := bind_ok h
    cases h
    rw [hread]
    exact ⟨_, _, rfl, rfl⟩

theorem BatchMethod.plan_of_operation {t : Table} {m : BatchMethod} {sets : List (Params β)}
    {first : Rendered} {d : Dialogue β (Report Nat)}
    (h : m.course t sets = .ok (.operation first d)) :
    ∃ p rest, m.plan t sets = .ok (p :: rest) ∧ p.statement = first := by
  obtain ⟨u, hpre, h⟩ := bind_ok h
  unfold plan
  rw [hpre]
  cases sets with
  | nil => cases h
  | cons set sets =>
    obtain ⟨r, hr, h⟩ := bind_ok h
    obtain ⟨d, -, h⟩ := bind_ok h
    cases h
    show ∃ p rest, (m.render t (set :: sets).length >>= fun r =>
      .ok (m.statements r (set :: sets))) = .ok (p :: rest) ∧ p.statement = first
    rw [hr]
    cases m <;> exact ⟨_, _, rfl, rfl⟩

theorem Execution.plan_of_operation {t : Table} {decode : Row → Except QueryError α}
    {x : Execution α β ρ} {first : Rendered} {d : Dialogue β (Report ρ)}
    (h : x.course t decode = .ok (.operation first d)) :
    ∃ p rest, x.plan t = .ok (p :: rest) ∧ p.statement = first := by
  cases x with
  | once m ps => exact Method.plan_of_operation h
  | batch m sets => exact BatchMethod.plan_of_operation h

/-! ## What a monitor hears -/

/-- A run that a monitor with a state of its own hears of: what it comes to and what is sent, and the
monitor's state at the end. -/
def Run.watch (x : Run β α) (observe : σ → Event → σ) (state : σ) (c : Client β) :
    (Except QueryError α × List (Sent β)) × σ :=
  let (result, actions) := x.start c
  ((result, sentOf actions), (eventsOf actions).foldl observe state)

namespace Operation

variable {o : Operation}

/-- With monitoring the start is told before anything is sent, and the end after it. -/
theorem conduct_of_monitoring (h : o.config.monitoring = true) (d : Dialogue β (Report ρ))
    (c : Client β) :
    let actions := ((o.conduct d).start c).2
    let elapsed := c.elapsed (sentOf actions)
    actions = .tell (.start o.info) :: (sentOf actions).map .send ++
      .tell (.complete o.info elapsed (outcomeOf Report.outcome (d.hold (o.answer c) []).1)) ::
        if o.config.slowThreshold.any (·.nanos < elapsed.nanos) then
          [.tell (.slow o.info elapsed)] else [] := by
  intro actions elapsed
  have hsent : sentOf actions = (d.hold (o.answer c) []).2 := o.sentOf_conduct d c
  simp only [elapsed, hsent]
  simp only [actions, start_conduct, toldEnd, told_of_monitoring h, toldSlow_of_monitoring h]
  split <;> simp

theorem conduct_of_silent (h : o.config.monitoring = false) (d : Dialogue β (Report ρ))
    (c : Client β) : eventsOf ((o.conduct d).start c).2 = [] := by
  simp [start_conduct, toldEnd, told_of_silent h, toldSlow_of_silent h]

/-- The same replies within the same time limit are the same answers. -/
theorem answer_congr {o' : Operation} (hinfo : o'.info = o.info)
    (hlimit : o'.config.queryTimeout = o.config.queryTimeout) {c c' : Client β}
    (hreply : c'.reply = c.reply) : o'.answer c' = o.answer c := by
  funext sent
  unfold answer judge
  rw [hinfo, hlimit, hreply]

end Operation

namespace Execution

/-- With the same time limit and the same replies, the same is sent and it comes to the same. -/
theorem start_config (t : Table) (decode : Row → Except QueryError α) (x : Execution α β ρ)
    {config : RunConfig} {c c' : Client β} (hlimit : config.queryTimeout = t.config.queryTimeout)
    (hreply : c'.reply = c.reply) :
    ((x.run { t with config } decode).start c').1 = ((x.run t decode).start c).1 ∧
      sentOf ((x.run { t with config } decode).start c').2 =
        sentOf ((x.run t decode).start c).2 := by
  have hcourse := x.course_config t config decode
  cases h : x.course t decode with
  | error e =>
    rw [start_of_error h, start_of_error (hcourse.trans h)]
    exact ⟨rfl, rfl⟩
  | ok k =>
    cases k with
    | idle a =>
      rw [start_of_idle h, start_of_idle (hcourse.trans h)]
      exact ⟨rfl, rfl⟩
    | operation first d =>
      have hinfo : (Operation.new { t with config } x.kind first).info =
          (Operation.new t x.kind first).info := rfl
      have hanswer := Operation.answer_congr hinfo hlimit hreply
      rw [start_of_operation h, start_of_operation (hcourse.trans h)]
      simp only [Operation.conduct_result, Operation.sentOf_conduct, hanswer, and_self]

/-- With monitoring, either nothing is sent and nothing is told, or the start is told before
anything is sent, the end after it, and slowness, if it is slow, after that: once each, whatever the
number of statements, and about the first of them. Without monitoring nothing is told. What it comes
to and what is sent are the same for every monitor, with and without monitoring, whatever counts as
slow and however long it takes. -/
theorem heard_around (t : Table) (decode : Row → Except QueryError α) (x : Execution α β ρ)
    (c : Client β) :
    let actions := ((x.run t decode).start c).2
    let elapsed := c.elapsed (sentOf actions)
    (t.config.monitoring = true → actions = [] ∨
      ∃ p rest outcome, x.plan t = .ok (p :: rest) ∧
        let info : OperationInfo :=
          ⟨t.schema.table, x.kind, p.statement.sql, p.statement.params.length⟩
        actions = .tell (.start info) :: (sentOf actions).map .send ++
          .tell (.complete info elapsed outcome) ::
            if t.config.slowThreshold.any (·.nanos < elapsed.nanos) then
              [.tell (.slow info elapsed)] else []) ∧
    (t.config.monitoring = false → eventsOf actions = []) ∧
    ∀ (config : RunConfig) (c' : Client β) (σ τ : Type) (observe : σ → Event → σ)
      (observe' : τ → Event → τ) (state : σ) (state' : τ),
      config.queryTimeout = t.config.queryTimeout → c'.reply = c.reply →
        ((x.run { t with config } decode).watch observe' state' c').1 =
          ((x.run t decode).watch observe state c).1 := by
  intro actions elapsed
  -- nothing is told without an operation, whether the course is an error or has nothing to do
  refine ⟨fun hmonitoring => ?_, fun hsilent => ?_, ?_⟩
  · cases h : x.course t decode with
    | error e => exact .inl (congrArg Prod.snd (start_of_error h c))
    | ok k =>
      cases k with
      | idle a => exact .inl (congrArg Prod.snd (start_of_idle h c))
      | operation first d =>
        obtain ⟨p, rest, hplan, rfl⟩ := plan_of_operation h
        have hon : (Operation.new t x.kind p.statement).config.monitoring = true := hmonitoring
        simp only [elapsed, actions, start_of_operation h]
        exact .inr ⟨p, rest, _, hplan, Operation.conduct_of_monitoring hon d c⟩
  · cases h : x.course t decode with
    | error e => exact congrArg (eventsOf ·.2) (start_of_error h c)
    | ok k =>
      cases k with
      | idle a => exact congrArg (eventsOf ·.2) (start_of_idle h c)
      | operation first d =>
        exact (congrArg (eventsOf ·.2) (start_of_operation h c)).trans
          (Operation.conduct_of_silent hsilent d c)
  · intro config c' σ τ observe observe' state state' hlimit hreply
    obtain ⟨hresult, hsent⟩ := start_config t decode x hlimit hreply
    exact Prod.ext hresult hsent

/-- An UPDATE whose row is read back, and which is slow: two statements, three events. Without
monitoring the same is sent. -/
theorem heard_around_update :
    let schema : Schema :=
      ⟨"users", [⟨"id", true, false⟩, ⟨"age", false, true⟩], by decide, by decide, by decide,
        by decide⟩
    let t : Table :=
      { schema, renderer := .ofDialect .redshift, config := { slowThreshold := some ⟨5⟩ } }
    let silent : RunConfig := { monitoring := false }
    let x : Execution Int Nat Int :=
      once (.update [.assign "age" "age", .whereCond (.compare "id" "=" "id")])
        (.ofList [("age", 30), ("id", 7)])
    let c : Client Nat := .ofScript
      [{ outcome := .ok { affected := 1 } }, { outcome := .ok { rows := [[("id", .int8 (some 7))]] } }]
      ⟨9⟩
    let info : OperationInfo :=
      ⟨"users", .update, "UPDATE \"users\" SET \"age\" = $1 WHERE \"id\" = $2", 2⟩
    let run := x.run t (·.int8 "id")
    eventsOf (run.start c).2 =
        [.start info, .complete info ⟨9⟩ (.affected 1), .slow info ⟨9⟩] ∧
      (sentOf (run.start c).2).length = 2 ∧
      ((x.run { t with config := silent } (·.int8 "id")).watch (fun n _ => n + 1) 0 c).1 =
        (run.watch Stats.observe {} c).1 := by
  intro schema t silent x c info run
  obtain ⟨-, -, hsame⟩ := heard_around t (·.int8 "id") x c
  exact ⟨by decide +kernel, by decide +kernel, hsame silent c _ _ _ _ _ _ rfl rfl⟩

end Execution

end CheckedSql
