/-
The building errors that programs come to. What the client replies is the error of an operation,
what stops a batch is that of an item, and a missing value is one of its own: so a building error
is one of writing a statement or of reading a record.
-/
import CheckedSql.Execution.Read
import CheckedSql.Proofs.Execution.Sends

namespace CheckedSql

variable {α β γ : Type} {P : BuildError → Prop}

namespace Run

/-- Whatever the client replies, a building error that the program comes to is of a kind. -/
def Faults (P : BuildError → Prop) (x : Run β α) : Prop :=
  ∀ c as b, (x c as).1 = .error (.build b) → P b

theorem Faults.pure (a : α) : Faults P (Pure.pure a : Run β α) := by
  rintro c as b ⟨⟩

theorem Faults.ofExcept {x : Except QueryError α} (h : ∀ b, x = .error (.build b) → P b) :
    Faults P (Run.ofExcept x : Run β α) :=
  fun _ _ b hb => h b hb

theorem Faults.fail {e : QueryError} (h : ∀ b, e ≠ .build b) : Faults P (Run.fail e : Run β α) :=
  .ofExcept fun b hb => absurd (Except.error.inj hb) (h b)

theorem Faults.bind {x : Run β α} {f : α → Run β γ} (hx : Faults P x) (hf : ∀ a, Faults P (f a)) :
    Faults P (x >>= f) := by
  intro c as b h
  rw [bind_eq] at h
  rcases hrun : x c as with ⟨e | a, done⟩
  · rw [hrun] at h
    cases h
    exact hx c as b (by rw [hrun])
  · rw [hrun] at h
    exact hf a c done b h

/-- What comes after a value or error is only done with a value. -/
theorem Faults.bindExcept {x : Except QueryError α} {f : α → Run β γ}
    (hx : ∀ b, x = .error (.build b) → P b) (hf : ∀ a, x = .ok a → Faults P (f a)) :
    Faults P (Run.ofExcept x >>= f) := by
  cases x with
  | error e =>
    intro c as b h
    cases h
    exact hx b rfl
  | ok a => exact hf a rfl

/-- An error that is turned into a value is none. -/
theorem Faults.attempt (x : Run β α) : Faults P x.attempt := by
  rintro c as b ⟨⟩

theorem Faults.send (s : Sent β) : Faults P (Run.send s) := by
  rintro c as b ⟨⟩

end Run

/-! ## Operations -/

namespace Operation

open Run (Faults)

variable (o : Operation)

theorem faults_send (s : Sent β) : Faults P (o.send s) := by
  refine .bind (.send s) fun reply => ?_
  split
  · exact .pure _
  · exact .fail fun b h => by cases h

theorem faults_query (sql : String) (args : List β) : Faults P (o.query sql args) :=
  .bind (o.faults_send _) fun _ => .pure _

theorem faults_execute (sql : String) (args : List β) : Faults P (o.execute sql args) :=
  .bind (o.faults_send _) fun _ => .pure _

/-- An operation comes to what its program comes to. -/
theorem faults_monitored (summary : α → Outcome) {x : Run β α} (hx : Faults P x) :
    Faults P (o.monitored summary x) := by
  intro c as b h
  rw [o.monitored_apply] at h
  exact hx c _ b h

theorem faults_batchFrom (r : Rendered) (sets : List (Params β)) (index affected : Nat) :
    Faults P (o.batchFrom r index affected sets) := by
  induction sets generalizing index affected with
  | nil => exact .pure _
  | cons set sets ih =>
    refine .bind (.attempt _) fun result => ?_
    cases result with
    | ok n => exact ih _ _
    | error e => exact .fail fun b h => by cases h

theorem faults_batch (r : Rendered) (sets : List (Params β)) : Faults P (o.batch r sets) :=
  o.faults_batchFrom r sets 0 0

end Operation

/-! ## Values and rows -/

theorem Params.bind_ne_build (ps : Params β) (names : List String) (b : BuildError) :
    ps.bind names ≠ .error (.build b) := by
  induction names with
  | nil => rintro ⟨⟩
  | cons n ns ih =>
    rw [Params.bind]
    cases ps.get? n with
    | none => rintro ⟨⟩
    | some v =>
      cases hns : ps.bind ns with
      | ok vs => rintro ⟨⟩
      | error e =>
        rintro ⟨⟩
        exact ih hns

theorem exactlyOne_ne_build (missing : String) (as : List α) (b : BuildError) :
    exactlyOne missing as ≠ .error (.build b) := by
  rcases as with _ | ⟨a, _ | ⟨a', as⟩⟩ <;> rintro ⟨⟩

theorem exactlyOneAffected_ne_build (missing : String) (n : Nat) (b : BuildError) :
    exactlyOneAffected missing n ≠ .error (.build b) := by
  unfold exactlyOneAffected
  split
  · rintro ⟨⟩
  · split <;> rintro ⟨⟩

/-- A column that cannot be read is one that cannot be decoded, however its value is got. -/
theorem Row.column_error {get : Row → String → Except String α} {r : Row} {name : String}
    {e : QueryError} (h : r.column get name = .error e) : ∃ detail, e = .decode name detail := by
  unfold column at h
  cases hget : get r name with
  | error detail =>
    rw [hget] at h
    cases h
    exact ⟨detail, rfl⟩
  | ok a =>
    rw [hget] at h
    cases h

theorem Row.int8_error {r : Row} {name : String} {e : QueryError} (h : r.int8 name = .error e) :
    ∃ column detail, e = .decode column detail :=
  ⟨name, column_error h⟩

theorem Row.column_ne_build (get : Row → String → Except String α) (r : Row) (name : String)
    (b : BuildError) : r.column get name ≠ .error (.build b) := by
  intro h
  obtain ⟨detail, hdetail⟩ := column_error h
  cases hdetail

/-- An error of reading records is one of reading some row. -/
theorem decodeAll_error {decode : Row → Except QueryError α} {rows : List Row} {e : QueryError}
    (h : decodeAll decode rows = .error e) : ∃ row, decode row = .error e := by
  induction rows with
  | nil => cases h
  | cons row rows ih =>
    rw [decodeAll] at h
    cases hrow : decode row with
    | error e' =>
      rw [hrow] at h
      cases h
      exact ⟨row, hrow⟩
    | ok a =>
      rw [hrow] at h
      cases hrows : decodeAll decode rows with
      | error e' =>
        rw [hrows] at h
        cases h
        exact ih hrows
      | ok as =>
        rw [hrows] at h
        cases h

/-! ## Programs -/

open Run (Faults)

variable {decode : Row → Except QueryError α}

theorem faults_bind (ps : Params β) (names : List String) {f : List β → Run β γ}
    (hf : ∀ args, Faults P (f args)) : Faults P (Run.ofExcept (ps.bind names) >>= f) :=
  .bindExcept (fun b h => absurd h (ps.bind_ne_build names b)) fun args _ => hf args

theorem faults_exactlyOne (missing : String) (as : List α) {f : α → Run β γ}
    (hf : ∀ a, Faults P (f a)) : Faults P (Run.ofExcept (exactlyOne missing as) >>= f) :=
  .bindExcept (fun b h => absurd h (exactlyOne_ne_build missing as b)) fun a _ => hf a

theorem faults_fetchRowsOf (t : Table) (kind : OperationKind) (r : Rendered) (ps : Params β) :
    Faults P (fetchRowsOf t kind r ps) :=
  faults_bind ps r.params fun args =>
    Operation.faults_monitored _ _ (Operation.faults_query _ r.sql args)

theorem SelectQuery.faults_fetchOneRow {q : SelectQuery}
    (h : ∀ b, q.render = .error (.build b) → P b) (ps : Params β) :
    Faults P (q.fetchOneRow ps) := by
  refine .bindExcept h fun r _ => faults_bind ps _ fun args => ?_
  refine Operation.faults_monitored _ _ (.bind (Operation.faults_query _ _ _) fun rows => ?_)
  exact .ofExcept fun b hb => absurd hb (exactlyOne_ne_build _ _ b)

theorem SelectQuery.faults_fetchRows {q : SelectQuery}
    (h : ∀ b, q.render = .error (.build b) → P b) (ps : Params β) : Faults P (q.fetchRows ps) :=
  .bindExcept h fun r _ => faults_fetchRowsOf _ _ r ps

theorem CompoundQuery.faults_fetchRows {q : CompoundQuery}
    (h : ∀ b, q.render = .error (.build b) → P b) (ps : Params β) : Faults P (q.fetchRows ps) :=
  .bindExcept h fun r _ => faults_fetchRowsOf _ _ r ps

theorem faults_writeReturning {o : Operation} {missing : String} {r : Rendered} {args : List β}
    (h : ∀ row b, decode row = .error (.build b) → P b) :
    Faults P (writeReturning o missing decode r args) :=
  o.faults_monitored _ <| .bind (o.faults_query _ _) fun rows =>
    faults_exactlyOne missing rows fun row => .ofExcept (h row)

theorem faults_writeThenRead {o : Operation} {missing lost : String} {r read : Rendered}
    {args readArgs : List β} (h : ∀ row b, decode row = .error (.build b) → P b) :
    Faults P (writeThenRead o missing lost decode r args read readArgs) :=
  o.faults_monitored _ <| .bind (o.faults_execute _ _) fun n =>
    .bindExcept (fun b hb => absurd hb (exactlyOneAffected_ne_build missing n b)) fun _ _ =>
      .bind (o.faults_query _ _) fun rows =>
        faults_exactlyOne lost rows fun row => .ofExcept (h row)

end CheckedSql
