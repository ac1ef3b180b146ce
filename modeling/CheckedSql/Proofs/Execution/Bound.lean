/-
Nothing is sent before everything is written and bound. What is sent is the first few of the planned
statements, with a value in every place. An error of writing or binding that is no item's comes before
anything is done, and a missing value is that of the first name that lacks one.
-/
import CheckedSql.Proofs.Execution.Plan

namespace CheckedSql

variable {α β ρ σ : Type}

/-! ## Dialogues that keep to a plan -/

namespace Dialogue

/-- Whatever is answered, what is said is the next of the planned statements. -/
def Follows : List (Planned β) → Dialogue β σ → Prop
  | _, done _ => True
  | [], ask _ _ => False
  | p :: plan, ask s next => p.Sends s ∧ ∀ answer, (next answer).Follows plan

theorem Follows.nil_done (plan : List (Planned β)) (result : Except QueryError σ) :
    (done result).Follows plan := by
  cases plan <;> trivial

theorem Follows.once {p : Planned β} {s : Sent β} (h : p.Sends s)
    (take : Answer → Except QueryError σ) : (once s take).Follows [p] :=
  ⟨h, fun _ => trivial⟩

theorem Follows.twice {p q : Planned β} {first second : Sent β} (hp : p.Sends first)
    (hq : q.Sends second) (check : Answer → Except QueryError Unit)
    (take : Answer → Except QueryError σ) : (twice first check second take).Follows [p, q] := by
  refine ⟨hp, fun answer => ?_⟩
  dsimp only
  split
  · exact .once hq take
  · trivial

theorem Follows.batchFrom (r : Rendered) (sets : List (Params β)) (index affected : Nat) :
    (batchFrom r index affected sets).Follows (sets.map fun set => ⟨.execute, r, set⟩) := by
  induction sets generalizing index affected with
  | nil => trivial
  | cons set sets ih =>
    unfold Dialogue.batchFrom
    cases hbind : set.bind r.params with
    | error e => trivial
    | ok args =>
      refine ⟨.of_bind (p := ⟨.execute, r, set⟩) hbind, fun answer => ?_⟩
      cases answer with
      | error e => exact .nil_done _ _
      | ok a => exact ih _ _

/-- What is sent first, second and so on is what is planned as such. -/
theorem Follows.sent {plan : List (Planned β)} {d : Dialogue β σ} (h : d.Follows plan)
    (answer : List (Sent β) → Except QueryError Answer) (past : List (Sent β)) {i : Nat}
    {s : Sent β} (hs : (d.hold answer past).2[i]? = some s) :
    ∃ p, plan[i]? = some p ∧ p.Sends s := by
  induction d generalizing plan past i with
  | done result => cases hs
  | ask s' next ih =>
    cases plan with
    | nil => cases h
    | cons p plan =>
      cases i with
      | zero =>
        cases hs
        exact ⟨p, rfl, h.1⟩
      | succ i => exact ih _ (h.2 _) _ hs

end Dialogue

/-! ## Errors of answers -/

/-- An error of what an answer holds: of how many rows there are, or of what is in one. -/
def QueryError.isOfAnswer : QueryError → Bool
  | .notFound _ | .tooManyRows _ _ | .decode _ _ => true
  | _ => false

/-- An error of a client's failure, or of what its answer holds. -/
def QueryError.isLate : QueryError → Bool
  | .exec _ _ | .notFound _ | .tooManyRows _ _ | .decode _ _ => true
  | _ => false

open QueryError (isOfAnswer isLate isWriting)

theorem QueryError.late_of_answer (e : QueryError) (h : e.isOfAnswer = true) : e.isLate = true := by
  cases e <;> first | rfl | cases h

theorem exactlyOne_ofAnswer (missing : String) (as : List σ) :
    Fails isOfAnswer (exactlyOne missing as) := by
  rcases as with _ | ⟨a, _ | ⟨a', as⟩⟩
  · exact .error rfl
  · exact .ok a
  · exact .error rfl

theorem exactlyOneAffected_ofAnswer (missing : String) (n : Nat) :
    Fails isOfAnswer (exactlyOneAffected missing n) := by
  unfold exactlyOneAffected
  split
  · exact .error rfl
  · split
    · exact .ok ()
    · exact .error rfl

/-- An error of decoding is one of what an answer holds. -/
theorem Fails.of_decode {x : Except QueryError σ}
    (h : ∀ e, x = .error e → ∃ column detail, e = .decode column detail) : Fails isOfAnswer x := by
  intro e he
  obtain ⟨column, detail, rfl⟩ := h e he
  rfl

theorem Row.column_ofAnswer (get : Row → String → Except String σ) (r : Row) (name : String) :
    Fails isOfAnswer (r.column get name) :=
  .of_decode fun _ h => ⟨name, column_error h⟩

variable {decode : Row → Except QueryError α}

theorem decodeAll_ofAnswer (hdecode : ∀ row, Fails isOfAnswer (decode row)) (rows : List Row) :
    Fails isOfAnswer (decodeAll decode rows) := by
  intro e h
  obtain ⟨row, hrow⟩ := decodeAll_error h
  exact hdecode row e hrow

theorem Report.written_ofAnswer (hdecode : ∀ row, Fails isOfAnswer (decode row)) (missing : String)
    (outcome : Outcome) (rows : List Row) :
    Fails isOfAnswer (written decode missing outcome rows >>= result) := by
  rw [written, bind_assoc]
  refine .bind (exactlyOne_ofAnswer missing rows) fun row => ?_
  rw [bind_assoc]
  exact .bind (hdecode row) fun record => .ok record

/-- What a method makes of its last answer. -/
theorem Method.report_ofAnswer (hdecode : ∀ row, Fails isOfAnswer (decode row)) (t : Table) (m : Method α ρ)
    (a : Answer) : Fails isOfAnswer (m.report t decode a >>= Report.result) := by
  cases m with
  | fetchOne calls =>
    rw [report, bind_assoc]
    exact .bind (exactlyOne_ofAnswer _ _) fun row => hdecode row
  | fetchOneRow calls =>
    rw [report, bind_assoc]
    exact .bind (exactlyOne_ofAnswer _ _) fun row => .ok row
  | fetchAll calls | compoundAll first calls => exact decodeAll_ofAnswer hdecode a.rows
  | fetchRows calls | compoundRows first calls => exact .ok a.rows
  | aggregate get fn column calls =>
    rw [report, bind_assoc, AggregateQuery.number, bind_assoc]
    refine .bind (exactlyOne_ofAnswer _ _) fun row => ?_
    rw [bind_assoc]
    exact .bind (Row.column_ofAnswer get row _) fun value => .ok _
  | insert calls | update calls =>
    rw [report]
    split <;> exact Report.written_ofAnswer hdecode _ _ _
  | delete calls => exact .ok a.affected

theorem Method.check_ofAnswer (m : Method α ρ) (a : Answer) : Fails isOfAnswer (m.check a) := by
  cases m with
  | insert calls | update calls => exact exactlyOneAffected_ofAnswer _ _
  | _ => exact .ok ()

/-- Once a statement of a method is sent, it has no other error than that of an answer. -/
theorem Dialogue.once_late {s : Sent β} {take : Answer → Except QueryError (Report ρ)}
    (h : ∀ a, Fails isOfAnswer (take a >>= Report.result)) :
    (once s take).Ends fun x => Fails isLate (x >>= Report.result) :=
  .once (fun _ _ => .error rfl) fun a => (h a).mono QueryError.late_of_answer

theorem Dialogue.twice_late {first second : Sent β} {check : Answer → Except QueryError Unit}
    {take : Answer → Except QueryError (Report ρ)} (hcheck : ∀ a, Fails isOfAnswer (check a))
    (h : ∀ a, Fails isOfAnswer (take a >>= Report.result)) :
    (twice first check second take).Ends fun x => Fails isLate (x >>= Report.result) :=
  .twice (fun _ _ => .error rfl)
    (fun a e he => .error (QueryError.late_of_answer e (hcheck a e he)))
    fun a => (h a).mono QueryError.late_of_answer

/-- How a batch stops, the first of the statements being item `index`: at an item whose statement
the client fails at, or whose values lack a name when none of the items before it does. -/
def Stops (plan : List (Planned β)) (index : Nat) (e : QueryError) : Prop :=
  ∃ i affected cause, e = .batch (index + i) affected cause ∧
    ((∃ label e', cause = .exec label e') ∨
      ∃ p n, plan[i]? = some p ∧ p.lacks = some n ∧ cause = .missingParam n ∧
        ∀ before ∈ plan.take i, before.lacks = none)

theorem Stops.cons {p : Planned β} {plan : List (Planned β)} {index : Nat} {e : QueryError}
    (hp : p.lacks = none) (h : Stops plan (index + 1) e) : Stops (p :: plan) index e := by
  obtain ⟨i, affected, cause, rfl, hcause⟩ := h
  refine ⟨i + 1, affected, cause, by rw [Nat.add_assoc, Nat.add_comm 1], ?_⟩
  rcases hcause with hexec | ⟨q, n, hq, hlacks, hn, hbefore⟩
  · exact .inl hexec
  · exact .inr ⟨q, n, hq, hlacks, hn, List.forall_mem_cons.2 ⟨hp, hbefore⟩⟩

theorem Dialogue.batchFrom_stops (r : Rendered) (sets : List (Params β)) (index affected : Nat) :
    (batchFrom r index affected sets).Ends fun x => ∀ e, x >>= Report.result = .error e →
      Stops (sets.map fun set => ⟨.execute, r, set⟩) index e := by
  induction sets generalizing index affected with
  | nil => rintro e ⟨⟩
  | cons set sets ih =>
    unfold Dialogue.batchFrom
    cases hbind : set.bind r.params with
    | error e =>
      obtain ⟨n, hlacking, rfl⟩ := Params.bind_error hbind
      rintro e' ⟨⟩
      exact ⟨0, affected, _, rfl, .inr ⟨_, n, rfl, hlacking, rfl, List.forall_mem_nil _⟩⟩
    | ok args =>
      have hset : (⟨.execute, r, set⟩ : Planned β).lacks = none := (Params.bind_ok hbind).1
      refine ⟨fun a => (ih _ _).mono fun x hx e he => (hx e he).cons hset, fun label e => ?_⟩
      rintro e' ⟨⟩
      exact ⟨0, affected, _, rfl, .inl ⟨label, e, rfl⟩⟩

/-! ## Courses as planned -/

/-- What a course is by the plan: the error of writing the statements; the error of a missing value,
which is the first that a statement lacks; nothing to do; or an operation that keeps to the plan and
has no errors but those of answers and of items. -/
inductive Foreseen (plan : Except QueryError (List (Planned β))) :
    Except QueryError (Course β ρ) → Prop
  | unwritten {e : QueryError} (hplan : plan = .error e) (hwriting : e.isWriting = true) :
    Foreseen plan (.error e)
  | unbound {statements : List (Planned β)} {n : String} (hplan : plan = .ok statements)
    (hlacks : statements.findSome? Planned.lacks = some n) :
    Foreseen plan (.error (.missingParam n))
  | idle (a : ρ) : Foreseen plan (.ok (.idle a))
  | operation {statements : List (Planned β)} {first : Rendered} {d : Dialogue β (Report ρ)}
    (hplan : plan = .ok statements) (hfollows : d.Follows statements)
    (hends : d.Ends fun x => ∀ e, x >>= Report.result = .error e →
      e.isLate = true ∨ Stops statements 0 e) :
    Foreseen plan (.ok (.operation first d))

theorem Method.foreseen (hdecode : ∀ row, Fails isOfAnswer (decode row)) (t : Table) (m : Method α ρ)
    (ps : Params β) : Foreseen (m.plan t ps) (m.course t decode ps) := by
  have hreport := m.report_ofAnswer hdecode t
  unfold plan course
  cases hrender : m.render t with
  | error e => exact .unwritten rfl (m.render_writing t _ hrender)
  | ok r =>
    cases hback : m.readBack t with
    | none =>
      -- one statement: it lacks a value, or it is the operation
      show Foreseen (.ok [⟨m.mode, r, ps⟩]) (ps.bind r.params >>= fun args =>
        .ok (.operation r (.once ⟨m.mode, r.sql, args⟩ (m.report t decode))))
      cases hbind : ps.bind r.params with
      | error e =>
        obtain ⟨n, hlacking, rfl⟩ := Params.bind_error hbind
        refine .unbound rfl ?_
        rw [List.findSome?_singleton]
        exact hlacking
      | ok args =>
        refine .operation rfl (.once (.of_bind (p := ⟨m.mode, r, ps⟩) hbind) _) ?_
        exact (Dialogue.once_late hreport).mono fun x hx e he => .inl (hx e he)
    | some read =>
      -- two statements: what the first lacks is reported before what the second lacks
      obtain ⟨read, rfl⟩ := readBack_ok hrender hback
      show Foreseen (.ok [⟨.execute, r, ps⟩, ⟨.query, read, ps⟩]) (ps.bind r.params >>= fun args =>
        ps.bind read.params >>= fun readArgs =>
          .ok (.operation r (.twice ⟨.execute, r.sql, args⟩ m.check ⟨.query, read.sql, readArgs⟩
            (m.report t decode))))
      cases hbind : ps.bind r.params with
      | error e =>
        obtain ⟨n, hlacking, rfl⟩ := Params.bind_error hbind
        refine .unbound rfl ?_
        rw [List.findSome?_cons, Planned.lacks, hlacking]
      | ok args =>
        cases hread : ps.bind read.params with
        | error e =>
          obtain ⟨n, hlacking, rfl⟩ := Params.bind_error hread
          refine .unbound rfl ?_
          rw [List.findSome?_cons, Planned.lacks, (Params.bind_ok hbind).1, List.findSome?_singleton]
          exact hlacking
        | ok readArgs =>
          refine .operation rfl (.twice (.of_bind (p := ⟨.execute, r, ps⟩) hbind)
            (.of_bind (p := ⟨.query, read, ps⟩) hread) _ _) ?_
          exact (Dialogue.twice_late m.check_ofAnswer hreport).mono fun x hx e he => .inl (hx e he)

theorem BatchMethod.foreseen_dialogue (m : BatchMethod) (r : Rendered) (sets : List (Params β)) :
    Foreseen (.ok (m.statements r sets))
      (m.dialogue r sets >>= fun d => .ok (.operation r d)) := by
  have hbatch : Foreseen (.ok (sets.map fun set => ⟨.execute, r, set⟩))
      (.ok (.operation r (.batchFrom r 0 0 sets)) : Except QueryError (Course β Nat)) :=
    .operation rfl (.batchFrom r sets 0 0)
      ((Dialogue.batchFrom_stops r sets 0 0).mono fun x hx e he => .inr (hx e he))
  cases m with
  | insert calls =>
    rw [statements, dialogue]
    cases hbind : (Params.ofRows 0 .empty sets).bind r.params with
    | error e =>
      obtain ⟨n, hlacking, rfl⟩ := Params.bind_error hbind
      refine .unbound rfl ?_
      rw [List.findSome?_singleton]
      exact hlacking
    | ok args =>
      have htake (a : Answer) :
          Fails isOfAnswer ((.ok (.count a.affected) : Except QueryError (Report Nat)) >>= Report.result) :=
        .ok a.affected
      refine .operation rfl (.once (.of_bind (p := ⟨.execute, r, _⟩) hbind) _) ?_
      exact (Dialogue.once_late htake).mono fun x hx e he => .inl (hx e he)
  | update calls => exact hbatch
  | delete calls => exact hbatch

theorem BatchMethod.foreseen (t : Table) (m : BatchMethod) (sets : List (Params β)) :
    Foreseen (m.plan t sets) (m.course t sets) := by
  cases hpre : m.preflight t with
  | error e =>
    rw [course_of_error hpre]
    exact .unwritten (by rw [plan, hpre]; rfl) (m.preflight_writing t _ hpre)
  | ok u =>
    cases sets with
    | nil =>
      rw [course_nil hpre]
      exact .idle 0
    | cons set sets =>
      have hplan : m.plan t (set :: sets) = m.render t (set :: sets).length >>= fun r =>
          .ok (m.statements r (set :: sets)) := by
        rw [plan, hpre]
        rfl
      rw [course_of_sets hpre (List.cons_ne_nil set sets), hplan]
      cases hrender : m.render t (set :: sets).length with
      | error e => exact .unwritten rfl (m.render_writing t _ _ hrender)
      | ok r => exact m.foreseen_dialogue r (set :: sets)

/-- What an execution comes down to is foreseen by its plan. -/
theorem Execution.foreseen (hdecode : ∀ row, Fails isOfAnswer (decode row)) (t : Table)
    (x : Execution α β ρ) : Foreseen (x.plan t) (x.course t decode) := by
  cases x with
  | once m ps => exact m.foreseen hdecode t ps
  | batch m sets => exact m.foreseen t sets

/-! ## What is sent and what is missing -/

/-- An error of writing a statement or of binding its names. -/
def QueryError.isEarly : QueryError → Bool
  | .missingParam _ => true
  | e => e.isWriting

/-- A method has a course only if the statement that reads back has all its values. -/
theorem Method.readBack_bound {t : Table} {m : Method α ρ} {ps : Params β} {k : Course β ρ}
    (h : m.course t decode ps = .ok k) {read : Except QueryError Rendered}
    (hback : m.readBack t = some read) :
    ∃ r, read = .ok r ∧ ∀ name ∈ r.params, ps.contains name = true := by
  obtain ⟨r, -, h⟩ := bind_ok h
  obtain ⟨args, -, h⟩ := bind_ok h
  rw [hback] at h
  obtain ⟨o, ho, h⟩ := bind_ok h
  obtain ⟨readArgs, hread, -⟩ := bind_ok h
  have hall := List.find?_eq_none.1 (Params.bind_ok hread).1
  exact ⟨o, ho, fun name hname => by simpa using hall name hname⟩

/-- What holds of the value or error of an execution and of all that is done for it: nothing is sent
before everything is written and bound. -/
structure BoundFirst (t : Table) (x : Execution α β ρ) (result : Except QueryError ρ)
    (actions : List (Action β)) : Prop where
  /-- What is sent is planned, one after another, and has a value in every place of its text. -/
  sent : ∀ (i : Nat) (s : Sent β), (sentOf actions)[i]? = some s →
    ∃ plan p, x.plan t = .ok plan ∧ plan[i]? = some p ∧ p.Sends s ∧
      Sql.highestPlaceholder s.sql = s.args.length
  /-- With an error of writing or binding that is no item's, nothing is sent or told. -/
  early : ∀ e, result = .error e → e.isEarly = true → actions = []
  /-- Where a row is read back, nothing is sent unless that statement has all its values too. -/
  readBack : ∀ m ps, x = .once m ps → ∀ read, m.readBack t = some read → sentOf actions ≠ [] →
    ∃ r, read = .ok r ∧ ∀ name ∈ r.params, ps.contains name = true
  /-- A missing value is the first of the first statement that lacks one. -/
  missing : ∀ n, result = .error (.missingParam n) →
    ∃ plan, x.plan t = .ok plan ∧ plan.findSome? Planned.lacks = some n
  /-- A missing value of an item is its first, and no item before it lacks one. -/
  missingItem : ∀ i affected n, result = .error (.batch i affected (.missingParam n)) →
    ∃ plan p, x.plan t = .ok plan ∧ plan[i]? = some p ∧ p.lacks = some n ∧
      ∀ before ∈ plan.take i, before.lacks = none

namespace BoundFirst

variable {t : Table} {x : Execution α β ρ}

theorem of_error {e : QueryError}
    (h : Foreseen (x.plan t) (.error e : Except QueryError (Course β ρ))) :
    BoundFirst t x (.error e) [] where
  sent i s hs := by cases hs
  early _ _ _ := rfl
  readBack _ _ _ _ _ hsent := absurd rfl hsent
  missing n hn := by
    cases hn
    cases h with
    | unwritten hplan hwriting => cases hwriting
    | unbound hplan hlacks => exact ⟨_, hplan, hlacks⟩
  missingItem i affected n hn := by
    cases hn
    cases h with
    | unwritten hplan hwriting => cases hwriting

theorem of_idle (a : ρ) : BoundFirst t x (.ok a) [] where
  sent i s hs := by cases hs
  early _ _ _ := rfl
  readBack _ _ _ _ _ hsent := absurd rfl hsent
  missing n hn := by cases hn
  missingItem i affected n hn := by cases hn

/-- With statements there are no errors but those of answers and of items. -/
theorem of_operation {first : Rendered} {d : Dialogue β (Report ρ)}
    (hcourse : x.course t decode = .ok (.operation first d))
    (h : Foreseen (x.plan t) (.ok (.operation first d))) (o : Operation) (c : Client β) :
    BoundFirst t x ((o.conduct d).start c).1 ((o.conduct d).start c).2 := by
  cases h with
  | operation hplan hfollows hends =>
    have hresult (e : QueryError) (he : ((o.conduct d).start c).1 = .error e) :=
      hends.hold o c [] e (o.conduct_result d c ▸ he)
    -- an operation is planned, so its errors are late or those of an item; none of them is early
    refine ⟨fun i s hs => ?_, fun e he hearly => ?_, fun m ps hx read hback _ => ?_,
      fun n hn => ?_, fun i affected n hn => ?_⟩
    · rw [o.sentOf_conduct] at hs
      obtain ⟨p, hp, hsends⟩ := hfollows.sent (o.answer c) [] hs
      have hnumbered := Execution.plan_numbered hplan p (List.mem_of_getElem? hp)
      exact ⟨_, p, hplan, hp, hsends, hsends.highest hnumbered⟩
    · rcases hresult e he with hlate | ⟨i, affected, cause, rfl, -⟩
      · cases e <;> cases hlate <;> cases hearly
      · cases hearly
    · subst hx
      exact Method.readBack_bound hcourse hback
    · rcases hresult _ hn with hlate | ⟨i, affected, cause, hbatch, -⟩
      · cases hlate
      · cases hbatch
    · rcases hresult _ hn with hlate | ⟨j, affected', cause, hbatch, hcause⟩
      · cases hlate
      · rw [Nat.zero_add] at hbatch
        cases hbatch
        rcases hcause with ⟨label, e', hexec⟩ | ⟨p, n', hp, hlacks, hmissing, hbefore⟩
        · cases hexec
        · cases hmissing
          exact ⟨_, p, hplan, hp, hlacks, hbefore⟩

/-- Whatever is executed, with whatever client. -/
theorem of_run (hdecode : ∀ row, Fails isOfAnswer (decode row)) (t : Table) (x : Execution α β ρ)
    (c : Client β) :
    BoundFirst t x ((x.run t decode).start c).1 ((x.run t decode).start c).2 := by
  have hforeseen := x.foreseen hdecode t
  cases hcourse : x.course t decode with
  | error e =>
    rw [Execution.start_of_error hcourse]
    exact .of_error (hcourse ▸ hforeseen)
  | ok k =>
    rw [hcourse] at hforeseen
    cases k with
    | idle a =>
      rw [Execution.start_of_idle hcourse]
      exact .of_idle a
    | operation first d =>
      rw [Execution.start_of_operation hcourse]
      exact .of_operation hcourse hforeseen _ c

end BoundFirst

namespace Execution

/-- Nothing is sent before everything is written and bound, whatever the client. The values that the
rows of an INSERT are bound to are those of each row, under the row's names. -/
theorem sent_bound (t : Table) (decode : Row → Except QueryError α)
    (hdecode : ∀ row e, decode row = .error e → ∃ column detail, e = .decode column detail)
    (x : Execution α β ρ) (c : Client β) :
    BoundFirst t x ((x.run t decode).start c).1 ((x.run t decode).start c).2 ∧
      ∀ (rows : List (Params β)) (name : String) (v : β),
        (Params.ofRows 0 .empty rows).get? name = some v ↔
          ∃ i row n, rows[i]? = some row ∧ name = ParamName.inRow i n ∧ row.get? n = some v :=
  ⟨.of_run (fun row => .of_decode (hdecode row)) t x c, Params.get?_ofRows⟩

/-- A row that is found again by its key. The INSERT has no place for it, but without a value for the
key nothing is sent; with one, the key is what the row is read back with. -/
theorem sent_bound_readBack :
    let schema : Schema :=
      ⟨"users", [⟨"id", true, false⟩, ⟨"age", false, true⟩], by decide, by decide, by decide,
        by decide⟩
    let t : Table :=
      { schema, renderer := ⟨.redshift, { Dialect.redshift.capabilities with upsert := true }⟩ }
    let c : Client Nat := .ofScript [{ outcome := .ok { affected := 1 } }] ⟨0⟩
    let x (ps : Params Nat) : Execution Int Nat Int := once (.insert [.onConflictSkip ["id"]]) ps
    let run (ps : Params Nat) := ((x ps).run t (·.int8 "id")).start c
    let unkeyed : Params Nat := .ofList [("age", 7)]
    let keyed : Params Nat := .ofList [("age", 7), ("id", 1)]
    ((run unkeyed).1 = .error (.missingParam "id") ∧ (run unkeyed).2 = []) ∧
      ∃ s, (sentOf (run keyed).2)[1]? = some s ∧ s.args = [1] ∧
        Sql.highestPlaceholder s.sql = 1 := by
  intro schema t c x run unkeyed keyed
  have hdecode (row : Row) (e : QueryError) (h : row.int8 "id" = .error e) := Row.int8_error h
  constructor
  · have hmissing : (run unkeyed).1 = .error (.missingParam "id") := by decide +kernel
    exact ⟨hmissing, (sent_bound t _ hdecode (x unkeyed) c).1.early _ hmissing rfl⟩
  · have hread : (sentOf (run keyed).2)[1]?.map (·.args) = some [1] := by decide +kernel
    obtain ⟨s, hs, hargs⟩ := Option.map_eq_some_iff.1 hread
    obtain ⟨-, -, -, -, -, hhighest⟩ := (sent_bound t _ hdecode (x keyed) c).1.sent 1 s hs
    exact ⟨s, hs, hargs, hhighest.trans (congrArg List.length hargs)⟩

end Execution

end CheckedSql
