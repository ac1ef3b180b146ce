/-
What an operation says to the client, as a tree: a statement, and what comes next for each answer
to it. A dialogue knows nothing of the client but its answers, and nothing of the monitor. Holding
it with a client makes the statements that are sent and the value or error; the operation that runs
it sends the same ones, comes to the same, and tells the monitor before the first and after the last.
-/
import CheckedSql.Proofs.Execution.Laws

namespace CheckedSql

variable {α β σ ρ : Type}

/-! ## Dialogues -/

/-- What an operation makes of its answers: how it is reported, and what it comes to. -/
structure Report (ρ : Type) where
  outcome : Outcome
  result : Except QueryError ρ

/-- So many rows were affected. -/
def Report.count (n : Nat) : Report Nat :=
  ⟨.affected n, .ok n⟩

/-- What is said to a client, a statement at a time. What comes next is up to the answer. -/
inductive Dialogue (β σ : Type)
  | done (result : Except QueryError σ)
  | ask (s : Sent β) (next : Except QueryError Answer → Dialogue β σ)

namespace Dialogue

/-- The value or error that a dialogue comes to, and the statements that are sent in it, with a
client that answers the last of the statements sent so far. -/
def hold (answer : List (Sent β) → Except QueryError Answer) (past : List (Sent β)) :
    Dialogue β σ → Except QueryError σ × List (Sent β)
  | done result => (result, [])
  | ask s next =>
    let (result, more) := (next (answer (past ++ [s]))).hold answer (past ++ [s])
    (result, s :: more)

/-- A dialogue as a program of an operation. -/
def run (o : Operation) : Dialogue β σ → Run β σ
  | done result => Run.ofExcept result
  | ask s next => do
    let answer ← (o.send s).attempt
    (next answer).run o

/-- One statement, and what its answer is taken for. -/
def once (s : Sent β) (take : Answer → Except QueryError σ) : Dialogue β σ :=
  ask s fun answer => done (answer >>= take)

/-- Two statements, the second if the answer to the first passes a check. -/
def twice (first : Sent β) (check : Answer → Except QueryError Unit) (second : Sent β)
    (take : Answer → Except QueryError σ) : Dialogue β σ :=
  ask first fun answer =>
    match answer >>= check with
    | .ok () => once second take
    | .error e => done (.error e)

/-- One statement for each set of values, from item `index` on and with so many rows affected
before, up to the first failure. -/
def batchFrom (r : Rendered) (index affected : Nat) : List (Params β) → Dialogue β (Report Nat)
  | [] => done (.ok (.count affected))
  | set :: sets =>
    match set.bind r.params with
    | .error e => done (.error (.batch index affected e))
    | .ok args =>
      ask ⟨.execute, r.sql, args⟩ fun
        | .ok a => batchFrom r (index + 1) (Operation.addCounts affected a.affected) sets
        | .error e => done (.error (.batch index affected e))

end Dialogue

namespace Dialogue

variable {answer : List (Sent β) → Except QueryError Answer} {past : List (Sent β)}

theorem hold_once (s : Sent β) (take : Answer → Except QueryError σ) :
    (once s take).hold answer past = (answer (past ++ [s]) >>= take, [s]) :=
  rfl

/-- The second statement is sent when the answer to the first has passed the check. -/
theorem hold_twice_of_ok {first second : Sent β} {check : Answer → Except QueryError Unit}
    {take : Answer → Except QueryError σ} (h : answer (past ++ [first]) >>= check = .ok ()) :
    (twice first check second take).hold answer past =
      (answer (past ++ [first] ++ [second]) >>= take, [first, second]) := by
  rw [twice, hold, h]
  rfl

theorem hold_twice_of_error {first second : Sent β} {check : Answer → Except QueryError Unit}
    {take : Answer → Except QueryError σ} {e : QueryError}
    (h : answer (past ++ [first]) >>= check = .error e) :
    (twice first check second take).hold answer past = (.error e, [first]) := by
  rw [twice, hold, h]
  rfl

end Dialogue

/-! ## Dialogues of an operation -/

namespace Operation

variable (o : Operation)

/-- The answer to the last of the statements sent so far, as an operation takes it: a failure is one
of the operation. -/
def answer (c : Client β) (sent : List (Sent β)) : Except QueryError Answer :=
  (o.judge (c.reply sent)).mapError (.exec o.info.label)

theorem send_apply (s : Sent β) (c : Client β) (as : List (Action β)) :
    o.send s c as = (o.answer c (sentOf as ++ [s]), as ++ [.send s]) := by
  have hreply : Run.send s c as = (.ok (c.reply (sentOf as ++ [s])), as ++ [.send s]) := by
    simp [Run.send, sentOf]
  unfold send answer
  rw [Run.bind_of_ok hreply]
  cases o.judge (c.reply (sentOf as ++ [s])) <;> rfl

end Operation

namespace Dialogue

variable (o : Operation)

/-- Running a dialogue is holding it with the client, after what has been sent before; nothing else
is done. -/
theorem run_apply (d : Dialogue β σ) (c : Client β) (as : List (Action β)) :
    d.run o c as =
      ((d.hold (o.answer c) (sentOf as)).1,
        as ++ (d.hold (o.answer c) (sentOf as)).2.map .send) := by
  induction d generalizing as with
  | done result => simp [run, hold, Run.ofExcept]
  | ask s next ih =>
    have hsend : (o.send s).attempt c as =
        (.ok (o.answer c (sentOf as ++ [s])), as ++ [.send s]) := by
      simp [Run.attempt, o.send_apply]
    have hpast : sentOf (as ++ [.send s]) = sentOf as ++ [s] := by simp [sentOf]
    rw [run, Run.bind_of_ok hsend, ih, hpast]
    simp [hold]

theorem run_once (s : Sent β) (take : Answer → Except QueryError σ) :
    (once s take).run o = o.send s >>= fun a => Run.ofExcept (take a) := by
  rw [Run.bind_eq_attempt, once, run]
  congr 1
  funext answer
  cases answer <;> rfl

theorem run_twice (first : Sent β) (check : Answer → Except QueryError Unit) (second : Sent β)
    (take : Answer → Except QueryError σ) :
    (twice first check second take).run o =
      o.send first >>= fun a => Run.ofExcept (check a) >>= fun _ =>
        o.send second >>= fun b => Run.ofExcept (take b) := by
  rw [Run.bind_eq_attempt, twice, run]
  congr 1
  funext answer
  cases answer with
  | error e => rfl
  | ok a =>
    have hcheck : (Except.ok a >>= check) = check a := rfl
    simp only [hcheck]
    cases check a with
    | error e => rfl
    | ok u => exact run_once o second take

theorem run_batchFrom (r : Rendered) (index affected : Nat) (sets : List (Params β)) :
    (batchFrom r index affected sets).run o =
      o.batchFrom r index affected sets >>= fun n => Pure.pure (.count n) := by
  induction sets generalizing index affected with
  | nil => rfl
  | cons set sets ih =>
    unfold batchFrom Operation.batchFrom Operation.step
    cases set.bind r.params with
    | error e => rfl
    | ok args =>
      show _ = ((o.execute r.sql args).attempt >>= _) >>= _
      rw [Operation.execute, Run.attempt_map]
      simp only [bind_assoc, pure_bind]
      show (o.send _).attempt >>= _ = _
      congr 1
      funext answer
      cases answer with
      | error e => rfl
      | ok a => exact ih _ _

end Dialogue

/-! ## What dialogues come to -/

namespace Dialogue

/-- Where a failure of the client is one of an operation, the dialogue comes to a value or error of
a kind. -/
def Ends (P : Except QueryError σ → Prop) : Dialogue β σ → Prop
  | done result => P result
  | ask _ next =>
    (∀ a, (next (.ok a)).Ends P) ∧ ∀ label e, (next (.error (.exec label e))).Ends P

theorem Ends.hold {P : Except QueryError σ → Prop} {d : Dialogue β σ} (h : d.Ends P)
    (o : Operation) (c : Client β) (past : List (Sent β)) : P (d.hold (o.answer c) past).1 := by
  induction d generalizing past with
  | done result => exact h
  | ask s next ih =>
    show P ((next (o.answer c (past ++ [s]))).hold (o.answer c) (past ++ [s])).1
    refine ih _ ?_ _
    unfold Operation.answer
    cases o.judge (c.reply (past ++ [s])) with
    | ok a => exact h.1 a
    | error e => exact h.2 o.info.label e

theorem Ends.mono {P Q : Except QueryError σ → Prop} (hPQ : ∀ x, P x → Q x)
    {d : Dialogue β σ} (h : d.Ends P) : d.Ends Q := by
  induction d with
  | done result => exact hPQ result h
  | ask s next ih => exact ⟨fun a => ih _ (h.1 a), fun label e => ih _ (h.2 label e)⟩

theorem Ends.once {P : Except QueryError σ → Prop} {s : Sent β}
    {take : Answer → Except QueryError σ} (hfail : ∀ label e, P (.error (.exec label e)))
    (h : ∀ a, P (take a)) : (once s take).Ends P :=
  ⟨h, hfail⟩

theorem Ends.twice {P : Except QueryError σ → Prop} {first second : Sent β}
    {check : Answer → Except QueryError Unit} {take : Answer → Except QueryError σ}
    (hfail : ∀ label e, P (.error (.exec label e)))
    (hcheck : ∀ a e, check a = .error e → P (.error e)) (h : ∀ a, P (take a)) :
    (twice first check second take).Ends P := by
  refine ⟨fun a => ?_, hfail⟩
  show Ends P (match check a with
    | .ok () => Dialogue.once second take
    | .error e => done (.error e))
  cases ha : check a with
  | ok u => exact .once hfail h
  | error e => exact hcheck a e ha

end Dialogue

/-! ## Conducting a dialogue -/

namespace Operation

variable (o : Operation)

/-- Runs a dialogue as this operation, and comes to what it is reported with. -/
def conduct (d : Dialogue β (Report ρ)) : Run β ρ := do
  let report ← o.monitored Report.outcome (d.run o)
  Run.ofExcept report.result

/-- A program that is run as an operation, and what is made of its value afterwards. -/
theorem conduct_eq {d : Dialogue β (Report ρ)} {x : Run β α} {summary : α → Outcome}
    {finish : α → Except QueryError ρ}
    (h : d.run o = x >>= fun a => Pure.pure ⟨summary a, finish a⟩) :
    o.conduct d = o.monitored summary x >>= fun a => Run.ofExcept (finish a) := by
  unfold conduct monitored
  rw [h, Run.attempt_map]
  simp only [bind_assoc, pure_bind]
  congr 1
  funext _
  congr 1
  funext result
  cases result <;> rfl

theorem conduct_eq_ok {d : Dialogue β (Report ρ)} {x : Run β ρ} {summary : ρ → Outcome}
    (h : d.run o = x >>= fun a => Pure.pure ⟨summary a, .ok a⟩) :
    o.conduct d = o.monitored summary x :=
  (o.conduct_eq h).trans (bind_pure _)

/-- The monitor hears of the start before anything is sent and of the end after it, and the client
nothing but the dialogue. -/
theorem start_conduct (d : Dialogue β (Report ρ)) (c : Client β) :
    (o.conduct d).start c =
      let (report, sent) := d.hold (o.answer c) []
      (report >>= Report.result,
        (o.told (.start o.info)).map .tell ++ sent.map .send ++
          (o.toldEnd (c.elapsed sent) (outcomeOf Report.outcome report)).map .tell) := by
  rcases hd : d.hold (o.answer c) [] with ⟨report, sent⟩
  have hmonitored := o.monitored_apply Report.outcome (d.run o) c []
  simp only [d.run_apply, List.nil_append, sentOf_append, sentOf_map_tell, sentOf_map_send, hd]
    at hmonitored
  cases report with
  | error e => exact Run.bind_of_error hmonitored
  | ok report => exact Run.bind_of_ok hmonitored

theorem conduct_result (d : Dialogue β (Report ρ)) (c : Client β) :
    ((o.conduct d).start c).1 = (d.hold (o.answer c) []).1 >>= Report.result := by
  rw [start_conduct]

theorem sentOf_conduct (d : Dialogue β (Report ρ)) (c : Client β) :
    sentOf ((o.conduct d).start c).2 = (d.hold (o.answer c) []).2 := by
  rw [start_conduct]
  simp

end Operation

end CheckedSql
