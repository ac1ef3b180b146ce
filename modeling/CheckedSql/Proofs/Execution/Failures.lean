/-
Failures of the client. Whatever is executed stops at the first of them, and comes to an error that
holds it under the name of the operation, once, and for an item of a batch within that item's. All
other errors hold no failure: those of answers, of values and of writing are as they are.
-/
import CheckedSql.Proofs.Execution.Bound

namespace CheckedSql

variable {α β ρ σ : Type}

/-! ## Wrapped errors -/

namespace QueryError

/-- How many failures of a client an error is wrapped as. -/
def wraps : QueryError → Nat
  | .exec _ source => source.wraps + 1
  | .batch _ _ source => source.wraps
  | _ => 0

/-- Two errors that every test tells to be one: they have the same root. -/
structure Alike (f e : QueryError) : Prop where
  root : f.root = e.root
  build? : f.build? = e.build?
  isUniqueViolation : f.isUniqueViolation = e.isUniqueViolation
  isNotFound : f.isNotFound = e.isNotFound
  isTooManyRows : f.isTooManyRows = e.isTooManyRows
  isMissingWhere : f.isMissingWhere = e.isMissingWhere
  isTimeout : f.isTimeout = e.isTimeout

/-- Every test looks at the root. -/
theorem Alike.of_root {f e : QueryError} (h : f.root = e.root) : f.Alike e where
  root := h
  build? := by simp only [QueryError.build?, h]
  isUniqueViolation := by simp only [QueryError.isUniqueViolation, h]
  isNotFound := by simp only [QueryError.isNotFound, h]
  isTooManyRows := by simp only [QueryError.isTooManyRows, h]
  isMissingWhere := by simp only [QueryError.isMissingWhere, h]
  isTimeout := by simp only [QueryError.isTimeout, h]

theorem wraps_of_answer {e : QueryError} (h : e.isOfAnswer = true) : e.wraps = 0 := by
  cases e <;> first | rfl | cases h

theorem wraps_of_writing {e : QueryError} (h : e.isWriting = true) : e.wraps = 0 := by
  cases e <;> first | rfl | cases h

end QueryError

open QueryError (isOfAnswer)

/-! ## Dialogues that stop at a failure -/

namespace Dialogue

/-- A dialogue, begun when so many statements have been answered, that is over at the first answer
which is an error. What it comes to then holds that error, with the number of the answer; what it
comes to without one is of a kind. -/
def StopsAtFailure (holds : Nat → QueryError → QueryError → Prop)
    (kind : Except QueryError σ → Prop) : Nat → Dialogue β σ → Prop
  | _, done result => kind result
  | i, ask _ next =>
    (∀ e, ∃ f, next (.error e) = done (.error f) ∧ holds i e f) ∧
      ∀ a, (next (.ok a)).StopsAtFailure holds kind (i + 1)

variable {holds : Nat → QueryError → QueryError → Prop} {kind : Except QueryError σ → Prop}

/-- An error is the last answer, and the dialogue comes to what holds it; without one it comes to
something of the kind. -/
theorem StopsAtFailure.hold {d : Dialogue β σ} {i : Nat}
    (h : d.StopsAtFailure holds kind i)
    (answer : List (Sent β) → Except QueryError Answer) (past : List (Sent β)) :
    let (result, sent) := d.hold answer past
    (∀ j < sent.length, ∀ e, answer (past ++ sent.take (j + 1)) = .error e →
      j + 1 = sent.length ∧ ∃ f, result = .error f ∧ holds (i + j) e f) ∧
    ((∀ j < sent.length, ∃ a, answer (past ++ sent.take (j + 1)) = .ok a) → kind result) := by
  -- on the dialogue: a failing first answer ends it, after a passing one the rest is by hypothesis
  induction d generalizing past i with
  | done result => exact ⟨fun j hj => absurd hj (Nat.not_lt_zero j), fun _ => h⟩
  | ask s next ih =>
    obtain ⟨herror, hok⟩ := h
    rw [Dialogue.hold]
    cases hanswer : answer (past ++ [s]) with
    | error e =>
      obtain ⟨f, hnext, hholds⟩ := herror e
      rw [hnext]
      refine ⟨fun j hj e' he' => ?_, fun hall => ?_⟩
      · cases Nat.lt_one_iff.1 hj
        cases hanswer.symm.trans he'
        exact ⟨rfl, f, rfl, hholds⟩
      · obtain ⟨a, ha⟩ := hall 0 Nat.zero_lt_one
        cases hanswer.symm.trans ha
    | ok a =>
      have hrest := ih (.ok a) (hok a) (past ++ [s])
      rcases hhold : (next (.ok a)).hold answer (past ++ [s]) with ⟨result, more⟩
      rw [hhold] at hrest
      simp only [List.append_assoc, List.singleton_append] at hrest
      refine ⟨fun j hj e he => ?_, fun hall => hrest.2 fun j hj => ?_⟩
      -- the first answer passed, so a failing one is that of a later statement
      · cases j with
        | zero => cases hanswer.symm.trans he
        | succ j =>
          obtain ⟨hlast, f, hf, hholds⟩ := hrest.1 j (Nat.lt_of_succ_lt_succ hj) e he
          refine ⟨congrArg (· + 1) hlast, f, hf, ?_⟩
          rwa [Nat.add_right_comm] at hholds
      · exact hall (j + 1) (Nat.succ_lt_succ hj)

end Dialogue

/-! ## What executions speak -/

namespace Execution

/-- Whether a statement is sent for each set of values. -/
def perItem : Execution α β ρ → Bool
  | once _ _ | batch (.insert _) _ => false
  | batch (.update _) _ | batch (.delete _) _ => true

/-- Whether a row is written by one statement and read back by another. -/
def readsBack (t : Table) : Execution α β ρ → Bool
  | once (.insert _) _ => !t.capabilities.returningOnInsert
  | once (.update _) _ => !t.capabilities.returningOnUpdate
  | _ => false

/-- The error that holds another, which the answer of a number is: that of the item, or itself. -/
def Holds (x : Execution α β ρ) (i : Nat) (e f : QueryError) : Prop :=
  if x.perItem then ∃ affected, f = .batch i affected e else f = e

/-- A value, or an error that is no failure of the client. -/
def Unwrapped (result : Except QueryError (Report ρ)) : Prop :=
  ∀ f, result >>= Report.result = .error f → f.wraps = 0

theorem Unwrapped.of_answer {result : Except QueryError (Report ρ)}
    (h : Fails isOfAnswer (result >>= Report.result)) : Unwrapped result :=
  fun f hf => QueryError.wraps_of_answer (h f hf)

/-- The dialogues of executions: of one statement, of two of which the second is sent if the first
has written one row, or of one for each set of values. -/
inductive Speaks (t : Table) : {ρ : Type} → Execution α β ρ → Dialogue β (Report ρ) → Prop
  | once {ρ : Type} {x : Execution α β ρ} {s : Sent β}
    {take : Answer → Except QueryError (Report ρ)} (hitems : x.perItem = false) (hback : x.readsBack t = false)
    (htake : ∀ a, Fails isOfAnswer (take a >>= Report.result)) : Speaks t x (.once s take)
  | twice {ρ : Type} {x : Execution α β ρ} {first second : Sent β}
    {check : Answer → Except QueryError Unit} {take : Answer → Except QueryError (Report ρ)}
    (hitems : x.perItem = false) (hback : x.readsBack t = true)
    (hcheck : ∀ a, check a = .ok () ↔ a.affected = 1) (hfails : ∀ a, Fails isOfAnswer (check a))
    (htake : ∀ a, Fails isOfAnswer (take a >>= Report.result)) :
    Speaks t x (.twice first check second take)
  | items {x : Execution α β Nat} (hitems : x.perItem = true) (r : Rendered)
    (sets : List (Params β)) : Speaks t x (.batchFrom r 0 0 sets)

end Execution

open Execution (Speaks Unwrapped)

theorem exactlyOneAffected_eq_ok {missing : String} {n : Nat} :
    exactlyOneAffected missing n = .ok () ↔ n = 1 := by
  unfold exactlyOneAffected
  split
  · rename_i hzero
    simp [hzero]
  · split <;> simp_all

theorem Method.isSome_readBack (t : Table) (m : Method α ρ) (ps : Params β) :
    (m.readBack t).isSome = (Execution.once m ps).readsBack t := by
  cases m with
  | insert calls =>
    rw [readBack, Execution.readsBack]
    cases t.capabilities.returningOnInsert <;> rfl
  | update calls =>
    rw [readBack, Execution.readsBack]
    cases t.capabilities.returningOnUpdate <;> rfl
  | _ => rfl

/-- A row is read back if one was written. -/
theorem Method.check_eq_ok {t : Table} {m : Method α ρ} {ps : Params β}
    (h : (Execution.once m ps).readsBack t = true) (a : Answer) :
    m.check a = .ok () ↔ a.affected = 1 := by
  cases m with
  | insert calls | update calls => exact exactlyOneAffected_eq_ok
  | _ => cases h

variable {decode : Row → Except QueryError α}

theorem Method.course_speaks (hdecode : ∀ row, Fails isOfAnswer (decode row)) {t : Table}
    {m : Method α ρ} {ps : Params β} {first : Rendered} {d : Dialogue β (Report ρ)}
    (h : m.course t decode ps = .ok (.operation first d)) : Speaks t (Execution.once m ps) d := by
  have hback := m.isSome_readBack t ps
  obtain ⟨r, -, h⟩ := bind_ok h
  obtain ⟨args, -, h⟩ := bind_ok h
  cases hread : m.readBack t with
  | none =>
    rw [hread] at h hback
    cases h
    exact .once rfl hback.symm (m.report_ofAnswer hdecode t)
  | some read =>
    rw [hread] at h hback
    obtain ⟨o, -, h⟩ := bind_ok h
    obtain ⟨readArgs, -, h⟩ := bind_ok h
    cases h
    exact .twice rfl hback.symm (m.check_eq_ok hback.symm) m.check_ofAnswer
      (m.report_ofAnswer hdecode t)

theorem BatchMethod.course_speaks {t : Table} {m : BatchMethod} {sets : List (Params β)}
    {first : Rendered} {d : Dialogue β (Report Nat)}
    (h : m.course t sets = .ok (.operation first d)) :
    Speaks t (Execution.batch m sets : Execution α β Nat) d := by
  obtain ⟨u, -, h⟩ := bind_ok h
  split at h
  · cases h
  · obtain ⟨r, -, h⟩ := bind_ok h
    obtain ⟨d, hd, h⟩ := bind_ok h
    cases h
    cases m with
    | insert calls =>
      obtain ⟨args, -, hd⟩ := bind_ok hd
      cases hd
      exact .once rfl rfl fun a => .ok a.affected
    | update calls | delete calls =>
      cases hd
      exact .items rfl _ sets

theorem Execution.course_speaks (hdecode : ∀ row, Fails isOfAnswer (decode row)) {t : Table}
    {x : Execution α β ρ} {first : Rendered} {d : Dialogue β (Report ρ)}
    (h : x.course t decode = .ok (.operation first d)) : Speaks t x d := by
  cases x with
  | once m ps => exact Method.course_speaks hdecode h
  | batch m sets => exact BatchMethod.course_speaks h

/-! ## Executions that stop at a failure -/

/-- From an item on, with so many rows affected before. -/
theorem Dialogue.batchFrom_stopsAtFailure (r : Rendered) (sets : List (Params β))
    (index affected : Nat) :
    (batchFrom r index affected sets).StopsAtFailure (fun i e f => ∃ n, f = .batch i n e) Unwrapped
      index := by
  induction sets generalizing index affected with
  | nil => rintro f ⟨⟩
  | cons set sets ih =>
    unfold batchFrom
    cases hbind : set.bind r.params with
    | error e =>
      obtain ⟨n, -, rfl⟩ := Params.bind_error hbind
      rintro f ⟨⟩
      rfl
    | ok args => exact ⟨fun e => ⟨_, rfl, affected, rfl⟩, fun a => ih _ _⟩

namespace Execution

variable {t : Table} {x : Execution α β ρ} {d : Dialogue β (Report ρ)}

theorem Speaks.stopsAtFailure (h : Speaks t x d) : d.StopsAtFailure x.Holds Unwrapped 0 := by
  cases h with
  | once hitems hback htake =>
    refine ⟨fun e => ⟨e, rfl, ?_⟩, fun a => .of_answer (htake a)⟩
    simp [Holds, hitems]
  | @twice _ _ first second check take hitems hback hcheck hfails htake =>
    refine ⟨fun e => ⟨e, rfl, ?_⟩, fun a => ?_⟩
    · simp [Holds, hitems]
    · beta_reduce
      cases hpass : Except.ok a >>= check with
      | ok u =>
        refine ⟨fun e => ⟨e, rfl, ?_⟩, fun a => .of_answer (htake a)⟩
        simp [Holds, hitems]
      | error e =>
        rintro f ⟨⟩
        exact QueryError.wraps_of_answer (hfails a e hpass)
  | @items x hitems r sets =>
    have hholds : x.Holds = fun i e f => ∃ n, f = .batch i n e := by
      funext i e f
      simp [Holds, hitems]
    rw [hholds]
    exact Dialogue.batchFrom_stopsAtFailure r sets 0 0

/-- Where every answer is one, there are two statements if a row is read back that was written, and
one otherwise. -/
theorem Speaks.length_sent (h : Speaks t x d) (hitems : x.perItem = false)
    {answer : List (Sent β) → Except QueryError Answer}
    (hall : ∀ i < (d.hold answer []).2.length,
      ∃ a, answer ((d.hold answer []).2.take (i + 1)) = .ok a) :
    ∃ a, answer ((d.hold answer []).2.take 1) = .ok a ∧
      (d.hold answer []).2.length = if x.readsBack t && a.affected == 1 then 2 else 1 := by
  cases h with
  | once _ hback _ =>
    rw [Dialogue.hold_once] at hall ⊢
    obtain ⟨a, ha⟩ := hall 0 Nat.zero_lt_one
    exact ⟨a, ha, by simp [hback]⟩
  | @twice _ _ first second check take _ hback hcheck hfails htake =>
    -- two statements are sent if the first is answered and has changed one row
    cases hfirst : answer [first] with
    | error e =>
      have hpass : answer ([] ++ [first]) >>= check = .error e := by
        rw [List.nil_append, hfirst]
        rfl
      rw [Dialogue.hold_twice_of_error hpass] at hall
      obtain ⟨a, ha⟩ := hall 0 Nat.zero_lt_one
      cases hfirst.symm.trans ha
    | ok a =>
      have hchecked : answer ([] ++ [first]) >>= check = check a := by
        rw [List.nil_append, hfirst]
        rfl
      cases hpass : check a with
      | ok u =>
        rw [Dialogue.hold_twice_of_ok (hchecked.trans hpass)]
        exact ⟨a, hfirst, by simp [hback, (hcheck a).1 hpass]⟩
      | error e =>
        rw [Dialogue.hold_twice_of_error (hchecked.trans hpass)]
        have hone : a.affected ≠ 1 := fun hone => by
          cases hpass.symm.trans ((hcheck a).2 hone)
        exact ⟨a, hfirst, by simp [hone]⟩
  | items htrue => cases hitems.symm.trans htrue

/-- What holds of the value or error of an execution and of all that is sent for it, with a client
of certain answers. -/
structure WrapsOnce (t : Table) (x : Execution α β ρ)
    (answer : List (Sent β) → Except QueryError Answer) (result : Except QueryError ρ)
    (sent : List (Sent β)) : Prop where
  /-- Nothing is sent after a failure, and the execution comes to an error that holds it as a
  failure of the operation, within the item's if it is a batch of items. All tests tell the two to
  be one. -/
  failed : ∀ i < sent.length, ∀ e, answer (sent.take (i + 1)) = .error e →
    i + 1 = sent.length ∧ ∃ f, result = .error f ∧
      x.Holds i (.exec (x.kind.text ++ " " ++ t.schema.table) e) f ∧ f.Alike e
  /-- Without a failure, no error is wrapped as one. -/
  unwrapped : (∀ i < sent.length, ∃ a, answer (sent.take (i + 1)) = .ok a) →
    ∀ f, result = .error f → f.wraps = 0
  /-- Without a failure, one statement is sent, or two if a row is read back and one was written. -/
  count : x.perItem = false → sent ≠ [] →
    (∀ i < sent.length, ∃ a, answer (sent.take (i + 1)) = .ok a) →
      ∃ a, answer (sent.take 1) = .ok a ∧
        sent.length = if x.readsBack t && a.affected == 1 then 2 else 1

theorem Holds.alike {i : Nat} {label : String} {e f : QueryError}
    (h : x.Holds i (.exec label e) f) : f.Alike e := by
  refine .of_root ?_
  unfold Holds at h
  split at h
  · obtain ⟨affected, rfl⟩ := h
    rfl
  · subst h
    rfl

namespace WrapsOnce

theorem of_nothing {answer : List (Sent β) → Except QueryError Answer}
    {result : Except QueryError ρ} (h : ∀ f, result = .error f → f.wraps = 0) :
    WrapsOnce t x answer result [] where
  failed i hi := absurd hi (Nat.not_lt_zero i)
  unwrapped _ := h
  count _ hsent := absurd rfl hsent

/-- A failure reaches the dialogue as one of the operation. -/
theorem of_speaks (h : Speaks t x d) (first : Rendered) {c : Client β}
    (hpunctual : ∀ sent, ∀ limit ∈ t.config.queryTimeout,
      (c.reply sent).delay.nanos ≤ limit.nanos) :
    let run := ((Operation.new t x.kind first).conduct d).start c
    WrapsOnce t x (fun sent => (c.reply sent).outcome) run.1 (sentOf run.2) := by
  intro run
  let o := Operation.new t x.kind first
  -- no reply is late, so an answer is the outcome of the reply with the label put on its error
  have hanswer (sent : List (Sent β)) : o.answer c sent =
      (c.reply sent).outcome.mapError (.exec (x.kind.text ++ " " ++ t.schema.table)) := by
    have hjudge : o.judge (c.reply sent) = (c.reply sent).outcome := by
      unfold Operation.judge
      split
      · rename_i limit hlimit
        exact if_neg (Nat.not_lt.2 (hpunctual sent limit hlimit))
      · rfl
    rw [Operation.answer, hjudge]
    rfl
  -- the dialogue itself stops at a failure; what is left is to say so of the replies
  obtain ⟨hfailed, hkind⟩ := h.stopsAtFailure.hold (o.answer c) []
  simp only [List.nil_append] at hfailed hkind
  have hsent : sentOf run.2 = (d.hold (o.answer c) []).2 := o.sentOf_conduct d c
  have hresult : run.1 = (d.hold (o.answer c) []).1 >>= Report.result := o.conduct_result d c
  have hall (hok : ∀ i < (d.hold (o.answer c) []).2.length,
      ∃ a, (c.reply ((d.hold (o.answer c) []).2.take (i + 1))).outcome = .ok a) :
      ∀ i < (d.hold (o.answer c) []).2.length,
        ∃ a, o.answer c ((d.hold (o.answer c) []).2.take (i + 1)) = .ok a := by
    intro i hi
    obtain ⟨a, ha⟩ := hok i hi
    exact ⟨a, by rw [hanswer, ha]; rfl⟩
  rw [hsent, hresult]
  refine ⟨fun i hi e he => ?_, fun hok => hkind (hall hok), fun hitems _ hok => ?_⟩
  · obtain ⟨hlast, f, hf, hholds⟩ := hfailed i hi _ (by rw [hanswer, he]; rfl)
    rw [Nat.zero_add] at hholds
    exact ⟨hlast, f, by rw [hf]; rfl, hholds, hholds.alike⟩
  -- an answer is a reply without a label, so the first reply is that answer
  · obtain ⟨a, ha, hlength⟩ := h.length_sent hitems (hall hok)
    refine ⟨a, ?_, hlength⟩
    rw [hanswer] at ha
    cases houtcome : (c.reply ((d.hold (o.answer c) []).2.take 1)).outcome with
    | ok b =>
      rw [houtcome] at ha
      cases ha
      rfl
    | error e =>
      rw [houtcome] at ha
      cases ha

end WrapsOnce

/-- Whatever is executed, with a client that keeps within the time allowed: it stops at the first
failure of the client and wraps it once, and wraps no other error. Records are taken to be read
without other errors than those of decoding. -/
theorem failure_wrapped_once (t : Table) (decode : Row → Except QueryError α)
    (hdecode : ∀ row e, decode row = .error e → ∃ column detail, e = .decode column detail)
    (x : Execution α β ρ) (c : Client β)
    (hpunctual : ∀ sent, ∀ limit ∈ t.config.queryTimeout,
      (c.reply sent).delay.nanos ≤ limit.nanos) :
    let run := (x.run t decode).start c
    WrapsOnce t x (fun sent => (c.reply sent).outcome) run.1 (sentOf run.2) := by
  have hanswer (row : Row) : Fails isOfAnswer (decode row) := .of_decode (hdecode row)
  have hforeseen := x.foreseen hanswer t
  intro run
  -- an error before anything is sent is one of writing or of a missing value, without a wrapper
  cases hcourse : x.course t decode with
  | error e =>
    have hrun : run = (.error e, []) := start_of_error hcourse c
    rw [hcourse] at hforeseen
    rw [hrun]
    refine .of_nothing ?_
    rintro f ⟨⟩
    cases hforeseen with
    | unwritten hplan hwriting => exact QueryError.wraps_of_writing hwriting
    | unbound hplan hlacks => rfl
  | ok k =>
    cases k with
    | idle a =>
      have hrun : run = (.ok a, []) := start_of_idle hcourse c
      rw [hrun]
      refine .of_nothing ?_
      rintro f ⟨⟩
    | operation first d =>
      have hrun : run = _ := start_of_operation hcourse c
      rw [hrun]
      exact .of_speaks (course_speaks hanswer hcourse) first hpunctual

/-- The second of the statements fails: it is the one that reads an updated row back, or that of the
second of three items, of which the third is not sent. -/
theorem failure_wrapped_once_second :
    let schema : Schema :=
      ⟨"users", [⟨"id", true, false⟩, ⟨"age", false, true⟩], by decide, by decide, by decide,
        by decide⟩
    let t : Table := { schema, renderer := .ofDialect .redshift }
    let failure : QueryError := .uniqueViolation "users_age_key: taken"
    let c : Client Nat :=
      { reply := fun sent =>
          { outcome := if sent.length = 2 then .error failure else .ok { affected := 1 } }
        elapsed := fun _ => ⟨0⟩ }
    let set : Params Nat := .ofList [("id", 1), ("age", 7)]
    let byId : Condition := .compare "id" "=" "id"
    let update : Execution Int Nat Int := once (.update [.assign "age" "age", .whereCond byId]) set
    let delete : Execution Int Nat Nat := batch (.delete [.whereCond byId]) [set, set, set]
    (((update.run t (·.int8 "id")).start c).1 = .error (.exec "update users" failure) ∧
        (sentOf ((update.run t (·.int8 "id")).start c).2).length = 2) ∧
      (∃ affected, ((delete.run t (·.int8 "id")).start c).1 =
          .error (.batch 1 affected (.exec "delete_batch users" failure))) ∧
        (sentOf ((delete.run t (·.int8 "id")).start c).2).length = 2 := by
  intro schema t failure c set byId update delete
  have hdecode (row : Row) (e : QueryError) (h : row.int8 "id" = .error e) := Row.int8_error h
  have hpunctual (sent : List (Sent Nat)) :
      ∀ limit ∈ t.config.queryTimeout, (c.reply sent).delay.nanos ≤ limit.nanos :=
    fun limit _ => Nat.zero_le limit.nanos
  have hreply (sent : List (Sent Nat)) (h : sent.length = 2) :
      (c.reply (sent.take (1 + 1))).outcome = .error failure :=
    if_pos (by rw [List.length_take, h]; rfl)
  have hupdate : (sentOf ((update.run t (·.int8 "id")).start c).2).length = 2 := by decide +kernel
  have hdelete : (sentOf ((delete.run t (·.int8 "id")).start c).2).length = 2 := by decide +kernel
  obtain ⟨-, f, hf, hholds, -⟩ := (failure_wrapped_once t _ hdecode update c hpunctual).failed 1
    (hupdate ▸ Nat.one_lt_two) failure (hreply _ hupdate)
  obtain ⟨-, g, hg, hitem, -⟩ := (failure_wrapped_once t _ hdecode delete c hpunctual).failed 1
    (hdelete ▸ Nat.one_lt_two) failure (hreply _ hdelete)
  cases hholds
  obtain ⟨affected, rfl⟩ := hitem
  exact ⟨⟨hf, hupdate⟩, ⟨affected, hg⟩, hdelete⟩

end Execution

end CheckedSql
