/-
What a monitor is told of the outcome. The methods that make their records inside the operation tell
it the truth: an error if and only if there is one, and that one. Those that make them of the rows
afterwards report the rows, and say nothing of a row that is no record.
-/
import CheckedSql.Proofs.Execution.Faults
import CheckedSql.Proofs.Execution.Monitoring

namespace CheckedSql

variable {α β ρ σ : Type} {decode : Row → Except QueryError α}

/-- Whether the records are made of the rows when these have been reported already. -/
def Method.decodesLate : Method α ρ → Bool
  | fetchOne _ | fetchAll _ | compoundAll _ _ => true
  | _ => false

/-- Whether an execution makes its records when it has been reported already. -/
def Execution.decodesLate : Execution α β ρ → Bool
  | once m _ => m.decodesLate
  | batch _ _ => false

/-! ## Reports -/

/-- A report is none of an error, and what comes after it can only fail at a row, and only if that is
left for later. -/
structure Report.Sound (decode : Row → Except QueryError α) (late : Bool) (r : Report ρ) : Prop where
  outcome : r.outcome.isError = false
  result : ∀ e, r.result = .error e → late = true ∧ ∃ row, decode row = .error e

theorem Report.Sound.of_ok {late : Bool} {outcome : Outcome} {a : ρ}
    (h : outcome.isError = false) : Report.Sound decode late ⟨outcome, .ok a⟩ where
  outcome := h
  result := by rintro e ⟨⟩

theorem Report.Sound.count (late : Bool) (n : Nat) : (Report.count n).Sound decode late :=
  .of_ok rfl

theorem Report.written_sound {late : Bool} {missing : String} {outcome : Outcome} {rows : List Row}
    {r : Report α} (houtcome : outcome.isError = false)
    (h : Report.written decode missing outcome rows = .ok r) : r.Sound decode late := by
  obtain ⟨row, -, h⟩ := bind_ok h
  obtain ⟨record, -, h⟩ := bind_ok h
  cases h
  exact .of_ok houtcome

/-- What a method makes of its last answer. -/
theorem Method.report_sound {t : Table} {m : Method α ρ} {a : Answer} {r : Report ρ}
    (h : m.report t decode a = .ok r) : r.Sound decode m.decodesLate := by
  cases m with
  | fetchOne calls =>
    obtain ⟨row, -, h⟩ := bind_ok h
    cases h
    exact ⟨rfl, fun e he => ⟨rfl, row, he⟩⟩
  | fetchOneRow calls =>
    obtain ⟨row, -, h⟩ := bind_ok h
    cases h
    exact .of_ok rfl
  | fetchAll calls | compoundAll first calls =>
    cases h
    exact ⟨rfl, fun e he => ⟨rfl, decodeAll_error he⟩⟩
  | fetchRows calls | compoundRows first calls =>
    cases h
    exact .of_ok rfl
  | aggregate get fn column calls =>
    obtain ⟨number, -, h⟩ := bind_ok h
    cases h
    exact .of_ok rfl
  | insert calls | update calls =>
    rw [report] at h
    split at h <;> exact Report.written_sound rfl h
  | delete calls =>
    cases h
    exact .count _ _

theorem Report.sound_of_error {late : Bool} (e : QueryError) (r : Report ρ)
    (h : (.error e : Except QueryError (Report ρ)) = .ok r) : r.Sound decode late := by
  cases h

/-- Every report that a dialogue comes to is sound. -/
def Dialogue.Sound (decode : Row → Except QueryError α) (late : Bool)
    (d : Dialogue β (Report ρ)) : Prop :=
  d.Ends fun x => ∀ r, x = .ok r → r.Sound decode late

theorem Dialogue.batchFrom_sound (late : Bool) (r : Rendered) (sets : List (Params β))
    (index affected : Nat) : (batchFrom r index affected sets).Sound decode late := by
  induction sets generalizing index affected with
  | nil =>
    rintro report ⟨⟩
    exact .count late affected
  | cons set sets ih =>
    unfold Dialogue.Sound batchFrom
    cases set.bind r.params with
    | error e => exact Report.sound_of_error _
    | ok args => exact ⟨fun a => ih _ _, fun label e => Report.sound_of_error _⟩

theorem Method.course_sound {t : Table} {m : Method α ρ} {ps : Params β} {first : Rendered}
    {d : Dialogue β (Report ρ)} (h : m.course t decode ps = .ok (.operation first d)) :
    d.Sound decode m.decodesLate := by
  obtain ⟨r, -, h⟩ := bind_ok h
  obtain ⟨args, -, h⟩ := bind_ok h
  cases hback : m.readBack t with
  | none =>
    rw [hback] at h
    cases h
    exact .once (fun _ _ => Report.sound_of_error _) fun a r => report_sound
  | some read =>
    rw [hback] at h
    obtain ⟨o, -, h⟩ := bind_ok h
    obtain ⟨readArgs, -, h⟩ := bind_ok h
    cases h
    exact .twice (fun _ _ => Report.sound_of_error _) (fun _ e _ => Report.sound_of_error e)
      fun a r => report_sound

theorem BatchMethod.course_sound {t : Table} {m : BatchMethod} {sets : List (Params β)}
    {first : Rendered} {d : Dialogue β (Report Nat)} (late : Bool)
    (h : m.course t sets = .ok (.operation first d)) : d.Sound decode late := by
  obtain ⟨u, -, h⟩ := bind_ok h
  split at h
  · cases h
  · obtain ⟨r, -, h⟩ := bind_ok h
    obtain ⟨d, hd, h⟩ := bind_ok h
    cases h
    cases m with
    | insert calls =>
      obtain ⟨args, -, hd⟩ := bind_ok hd
      cases hd
      refine .once (fun _ _ => Report.sound_of_error _) fun a => ?_
      rintro r ⟨⟩
      exact .count late a.affected
    | update calls | delete calls =>
      cases hd
      exact Dialogue.batchFrom_sound late _ sets 0 0

theorem Execution.course_sound {t : Table} {x : Execution α β ρ} {first : Rendered}
    {d : Dialogue β (Report ρ)} (h : x.course t decode = .ok (.operation first d)) :
    d.Sound decode x.decodesLate := by
  cases x with
  | once m ps => exact Method.course_sound h
  | batch m sets => exact BatchMethod.course_sound false h

/-! ## Completions -/

namespace Operation

variable {o : Operation}

/-- The only completion is told with the outcome of the dialogue. -/
theorem outcome_of_complete {d : Dialogue β (Report ρ)} {c : Client β} {info : OperationInfo}
    {elapsed : Duration} {outcome : Outcome}
    (h : .tell (.complete info elapsed outcome) ∈ ((o.conduct d).start c).2) :
    outcome = outcomeOf Report.outcome (d.hold (o.answer c) []).1 := by
  have hevent : .complete info elapsed outcome ∈ eventsOf ((o.conduct d).start c).2 :=
    List.mem_filterMap.2 ⟨_, h, rfl⟩
  simp only [start_conduct, toldEnd, eventsOf_append, eventsOf_map_tell, eventsOf_map_send,
    List.append_nil, List.mem_append] at hevent
  rcases hevent with hstart | hcomplete | hslow
  · cases mem_told hstart
  · cases mem_told hcomplete
    rfl
  · cases mem_toldSlow hslow

end Operation

namespace Execution

/-- A method that makes its records inside the operation tells of an error if and only if it comes
to one, and of that one. A method that makes them later tells of an error only if it comes to it; and
if it comes to an error that it has not told, that is one of a row which is no record, and it has
told that all is well. -/
theorem outcome_told (t : Table) (decode : Row → Except QueryError α) (x : Execution α β ρ)
    (c : Client β) :
    let result := ((x.run t decode).start c).1
    ∀ info elapsed outcome,
      .tell (.complete info elapsed outcome) ∈ ((x.run t decode).start c).2 →
        (x.decodesLate = false →
          (outcome.isError = true ↔ ∃ e, result = .error e) ∧
            ∀ e, result = .error e → outcome = .ofError e.message) ∧
        (x.decodesLate = true →
          (outcome.isError = true → ∃ e, result = .error e ∧ outcome = .ofError e.message) ∧
            ∀ e, result = .error e → outcome = .ofError e.message ∨
              outcome.isError = false ∧ ∃ row, decode row = .error e) := by
  intro result info elapsed outcome htold
  cases h : x.course t decode with
  | error e =>
    rw [start_of_error h] at htold
    cases htold
  | ok k =>
    cases k with
    | idle a =>
      rw [start_of_idle h] at htold
      cases htold
    | operation first d =>
      rw [start_of_operation h] at htold
      -- what is told is the outcome of what the dialogue holds at its end
      have houtcome := Operation.outcome_of_complete htold
      have hresult : result = _ :=
        (congrArg Prod.fst (start_of_operation h c)).trans (Operation.conduct_result _ d c)
      have hsound := (course_sound h).hold (Operation.new t x.kind first) c []
      rw [hresult, houtcome]
      generalize (d.hold ((Operation.new t x.kind first).answer c) []).1 = report at hsound ⊢
      cases report with
      | error e =>
        -- an error of the operation is the result, and is told as it is
        have hsame (e' : QueryError) (he : (.error e : Except QueryError ρ) = .error e') :
            Outcome.ofError e.message = .ofError e'.message := by
          cases he
          rfl
        exact ⟨fun _ => ⟨⟨fun _ => ⟨e, rfl⟩, fun _ => rfl⟩, hsame⟩,
          fun _ => ⟨fun _ => ⟨e, rfl, rfl⟩, fun e' he => .inl (hsame e' he)⟩⟩
      | ok r =>
        -- a report is told as a success, and its result can only fail by
        -- decoding, where that comes later
        obtain ⟨houtcome, hafter⟩ := hsound r rfl
        have hnone : ¬r.outcome.isError = true := by simp [houtcome]
        refine ⟨fun hnow => ?_, fun _ => ⟨fun herr => absurd herr hnone,
          fun e he => .inr ⟨houtcome, (hafter e he).2⟩⟩⟩
        have hvalue (e : QueryError) : r.result ≠ .error e := by
          intro he
          rw [(hafter e he).1] at hnow
          cases hnow
        exact ⟨⟨fun herr => absurd herr hnone, fun ⟨e, he⟩ => absurd he (hvalue e)⟩,
          fun e he => absurd he (hvalue e)⟩

/-- A row that is returned by an INSERT and is no record: the monitor is told what the caller is. -/
theorem outcome_told_insert :
    let schema : Schema :=
      ⟨"users", [⟨"id", true, false⟩, ⟨"age", false, true⟩], by decide, by decide, by decide,
        by decide⟩
    let t : Table := { schema, renderer := .ofDialect .postgres }
    let x : Execution Int Nat Int := once (.insert []) (.ofList [("age", 30)])
    let c : Client Nat := .ofScript [{ outcome := .ok { rows := [[("id", .int8 none)]] } }] ⟨0⟩
    let info : OperationInfo :=
      ⟨"users", .insert, "INSERT INTO \"users\" (\"age\") VALUES ($1) RETURNING \"id\", \"age\"", 1⟩
    let told : Outcome := .error "Decode error on column 'id': error deserializing column 0"
    let run := (x.run t (·.int8 "id")).start c
    .tell (.complete info ⟨0⟩ told) ∈ run.2 ∧
      ∃ e, run.1 = .error e ∧ told = .ofError e.message := by
  intro schema t x c info told run
  have hmem : .tell (.complete info ⟨0⟩ told) ∈ run.2 := by decide +kernel
  obtain ⟨hiff, htext⟩ := (outcome_told t (·.int8 "id") x c info ⟨0⟩ told hmem).1 rfl
  obtain ⟨e, he⟩ := hiff.1 rfl
  exact ⟨hmem, e, he, htext e he⟩

/-- A row that is read and is no record: the caller comes to an error, and the monitor is told of one
row. -/
theorem outcome_told_ne_result :
    let schema : Schema :=
      ⟨"users", [⟨"id", true, false⟩, ⟨"email", false, false⟩, ⟨"age", false, true⟩], by decide,
        by decide, by decide, by decide⟩
    let t : Table := { schema, renderer := .ofDialect .postgres }
    let decode (row : Row) : Except QueryError (Int × String × Option Int) := do
      return (← row.int8 "id", ← row.text "email", ← row.int4? "age")
    let x : Execution (Int × String × Option Int) Nat (Int × String × Option Int) :=
      once (.fetchOne [.whereCond (.compare "id" "=" "id")]) (.ofList [("id", 7)])
    let row : Row := [("id", .int8 (some 7)), ("email", .text (some "a@b.c"))]
    let run := (x.run t decode).start (.ofScript [{ outcome := .ok { rows := [row] } }] ⟨0⟩)
    ¬∀ info elapsed outcome, .tell (.complete info elapsed outcome) ∈ run.2 →
      (outcome.isError = true ↔ ∃ e, run.1 = .error e) := by
  intro schema t decode x row run htruth
  have hresult : run.1 = .error (.decode "age" "invalid column `age`") := by decide +kernel
  have hmem : .tell (.complete ⟨"users", .selectOne,
      "SELECT \"id\", \"email\", \"age\" FROM \"users\" WHERE \"id\" = $1", 1⟩ ⟨0⟩ (.rows 1)) ∈
        run.2 := by decide +kernel
  exact absurd ((htruth _ _ _ hmem).2 ⟨_, hresult⟩) (by decide)

end Execution

end CheckedSql
