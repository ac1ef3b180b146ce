/-
What programs send. A program only adds to the actions before it; that every statement it sends is
of some kind follows from its parts, whatever the client replies.
-/
import CheckedSql.Proofs.Execution.Laws

namespace CheckedSql

variable {α β γ : Type} {P : Sent β → Prop}

namespace Run

/-- Whatever the client replies, every statement that the program sends is of a kind. -/
def Sends (P : Sent β → Prop) (x : Run β α) : Prop :=
  ∀ c as, ∃ new, (x c as).2 = as ++ new ∧ ∀ s ∈ sentOf new, P s

/-- A program that does nothing sends nothing. -/
theorem Sends.of_idle {x : Run β α} (h : ∀ c as, (x c as).2 = as) : Sends P x :=
  fun c as => ⟨[], by rw [h, List.append_nil], List.forall_mem_nil _⟩

theorem Sends.pure (a : α) : Sends P (Pure.pure a : Run β α) :=
  .of_idle fun _ _ => rfl

theorem Sends.ofExcept (x : Except QueryError α) : Sends P (Run.ofExcept x : Run β α) :=
  .of_idle fun _ _ => rfl

theorem Sends.elapsed : Sends P (Run.elapsed : Run β Duration) :=
  .of_idle fun _ _ => rfl

theorem Sends.bind {x : Run β α} {f : α → Run β γ} (hx : Sends P x) (hf : ∀ a, Sends P (f a)) :
    Sends P (x >>= f) := by
  intro c as
  obtain ⟨new, hnew, hsent⟩ := hx c as
  -- with an error the second program is not run; with a value its actions come behind
  rw [bind_eq]
  rcases hrun : x c as with ⟨e | a, done⟩
  · rw [hrun] at hnew
    exact ⟨new, hnew, hsent⟩
  · rw [hrun] at hnew
    change done = as ++ new at hnew
    obtain ⟨more, hmore, hsent'⟩ := hf a c done
    refine ⟨new ++ more, ?_, ?_⟩
    · rw [hnew, List.append_assoc] at hmore
      rwa [hnew]
    · rw [sentOf_append]
      exact List.forall_mem_append.2 ⟨hsent, hsent'⟩

/-- What comes after a value or error is only done with a value. -/
theorem Sends.bindExcept {x : Except QueryError α} {f : α → Run β γ}
    (hf : ∀ a, x = .ok a → Sends P (f a)) : Sends P (Run.ofExcept x >>= f) := by
  cases x with
  | error e => exact .of_idle fun _ _ => rfl
  | ok a => exact hf a rfl

theorem Sends.attempt {x : Run β α} (hx : Sends P x) : Sends P x.attempt := hx

theorem Sends.tell (e : Event) : Sends P (Run.act (.tell e)) :=
  fun _ _ => ⟨[.tell e], rfl, List.forall_mem_nil _⟩

theorem Sends.send {s : Sent β} (h : P s) : Sends P (Run.send s) :=
  fun _ _ => ⟨[.send s], rfl, List.forall_mem_singleton.2 h⟩

/-- From the start, everything that is sent is of the kind. -/
theorem Sends.start {x : Run β α} (hx : Sends P x) (c : Client β) :
    ∀ s ∈ sentOf (x.start c).2, P s := by
  obtain ⟨new, hnew, hsent⟩ := hx c []
  unfold Run.start
  rw [hnew]
  exact hsent

/-- A program that begins with an error comes to it and does nothing. -/
theorem start_error {x : Except QueryError α} {f : α → Run β γ} {e : QueryError}
    (h : x = .error e) (c : Client β) : (Run.ofExcept x >>= f).start c = (.error e, []) := by
  rw [h]
  rfl

theorem start_bind_error {x : Run β α} {f : α → Run β γ} {e : QueryError} {c : Client β}
    (h : x.start c = (.error e, [])) : (x >>= f).start c = (.error e, []) :=
  bind_of_error h

end Run

namespace Operation

open Run (Sends)

variable (o : Operation)

theorem sends_tell (e : Event) : Sends P (o.tell e) := by
  unfold tell
  split
  · exact .tell e
  · exact .pure ()

theorem sends_send {s : Sent β} (h : P s) : Sends P (o.send s) := by
  refine .bind (.send h) fun reply => ?_
  split
  · exact .pure _
  · exact .ofExcept _

theorem sends_query {sql : String} {args : List β} (h : P ⟨.query, sql, args⟩) :
    Sends P (o.query sql args) :=
  .bind (o.sends_send h) fun _ => .pure _

theorem sends_execute {sql : String} {args : List β} (h : P ⟨.execute, sql, args⟩) :
    Sends P (o.execute sql args) :=
  .bind (o.sends_send h) fun _ => .pure _

theorem sends_tellSlow (elapsed : Duration) : Sends P (o.tellSlow elapsed) := by
  unfold tellSlow
  split
  · split
    · exact o.sends_tell _
    · exact .pure ()
  · exact .pure ()

/-- The monitor is told of an operation, and nothing is sent for it. -/
theorem sends_monitored {summary : α → Outcome} {x : Run β α} (hx : Sends P x) :
    Sends P (o.monitored summary x) :=
  .bind (o.sends_tell _) fun _ => .bind hx.attempt fun _ => .bind .elapsed fun _ =>
    .bind (o.sends_tell _) fun _ => .bind (o.sends_tellSlow _) fun _ => .ofExcept _

theorem sends_step {r : Rendered} (h : ∀ args, P ⟨.execute, r.sql, args⟩) (set : Params β) :
    Sends P (o.step r set) :=
  .bindExcept fun args _ => o.sends_execute (h args)

/-- A batch sends the one statement, as often as it gets to. -/
theorem sends_batchFrom {r : Rendered} (h : ∀ args, P ⟨.execute, r.sql, args⟩)
    (sets : List (Params β)) (index affected : Nat) :
    Sends P (o.batchFrom r index affected sets) := by
  induction sets generalizing index affected with
  | nil => exact .pure _
  | cons set sets ih =>
    refine .bind (o.sends_step h set).attempt fun result => ?_
    cases result with
    | ok n => exact ih _ _
    | error e => exact .ofExcept _

theorem sends_batch {r : Rendered} (h : ∀ args, P ⟨.execute, r.sql, args⟩)
    (sets : List (Params β)) : Sends P (o.batch r sets) :=
  o.sends_batchFrom h sets 0 0

end Operation

open Run (Sends)

theorem sends_writeReturning {o : Operation} {missing : String}
    {decode : Row → Except QueryError α} {r : Rendered} {args : List β}
    (h : P ⟨.query, r.sql, args⟩) : Sends P (writeReturning o missing decode r args) :=
  o.sends_monitored <| .bind (o.sends_query h) fun _ => .bindExcept fun _ _ => .ofExcept _

theorem sends_writeThenRead {o : Operation} {missing lost : String}
    {decode : Row → Except QueryError α} {r read : Rendered} {args readArgs : List β}
    (h : P ⟨.execute, r.sql, args⟩) (hread : P ⟨.query, read.sql, readArgs⟩) :
    Sends P (writeThenRead o missing lost decode r args read readArgs) :=
  o.sends_monitored <| .bind (o.sends_execute h) fun _ => .bindExcept fun _ _ =>
    .bind (o.sends_query hread) fun _ => .bindExcept fun _ _ => .ofExcept _

end CheckedSql
