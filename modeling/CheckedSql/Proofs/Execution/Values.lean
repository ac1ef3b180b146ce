/-
What the values are is not seen in what is sent. Two executions whose values have the same names send
the same texts, each with as many values, and come to the same, if both are answered from one script.
Dialogues are compared statement by statement; which values stand in the places of a statement is all
that they may differ in.
-/
import CheckedSql.Proofs.Execution.Course
import CheckedSql.Proofs.Params

namespace CheckedSql

variable {α β γ ρ σ : Type}

/-! ## Values with the same names -/

namespace Params

/-- Both have a value for the same names. -/
def SameNames (ps : Params β) (qs : Params γ) : Prop :=
  ∀ name, ps.contains name = qs.contains name

theorem contains_merge (ps qs : Params β) (name : String) :
    (ps.merge qs).contains name = (qs.contains name || ps.contains name) := by
  rw [contains, get?_merge, Option.isSome_or]
  rfl

theorem contains_rename (ps : Params β) {f : String → String} (hf : Function.Injective f)
    (name : String) :
    (ps.rename f).contains name = true ↔ ∃ m, name = f m ∧ ps.contains m = true := by
  simp only [contains_iff, ps.get?_rename_eq_some hf]
  exact ⟨fun ⟨v, m, hm, hv⟩ => ⟨m, hm, v, hv⟩, fun ⟨m, hm, v, hv⟩ => ⟨v, m, hm, hv⟩⟩

namespace SameNames

variable {ps : Params β} {qs : Params γ}

theorem empty : (Params.empty : Params β).SameNames (Params.empty : Params γ) :=
  fun _ => rfl

theorem set (h : ps.SameNames qs) (name : String) (v : β) (w : γ) :
    (ps.set name v).SameNames (qs.set name w) := by
  intro n
  rw [contains, contains, get?_set, get?_set]
  split
  · rfl
  · exact h n

theorem lacking (h : ps.SameNames qs) (names : List String) :
    ps.lacking names = qs.lacking names := by
  unfold Params.lacking
  simp only [h _]

/-- Both are bound, to as many values, or both lack the same name. -/
theorem bind (h : ps.SameNames qs) (names : List String) :
    (∃ e, ps.bind names = .error e ∧ qs.bind names = .error e) ∨
      ∃ args args', ps.bind names = .ok args ∧ qs.bind names = .ok args' ∧
        args.length = args'.length := by
  cases hps : ps.bind names with
  | error e =>
    obtain ⟨n, hlacking, rfl⟩ := bind_error hps
    exact .inl ⟨_, rfl, bind_of_lacking (h.lacking names ▸ hlacking)⟩
  | ok args =>
    obtain ⟨hlacking, hargs⟩ := bind_ok hps
    cases hqs : qs.bind names with
    | error e =>
      obtain ⟨n, hlacking', -⟩ := bind_error hqs
      rw [h.lacking, hlacking'] at hlacking
      cases hlacking
    | ok args' =>
      have hlength := congrArg List.length hargs
      have hlength' := congrArg List.length (bind_ok hqs).2
      rw [List.length_map, List.length_map] at hlength hlength'
      exact .inr ⟨args, args', rfl, rfl, hlength.trans hlength'.symm⟩

theorem merge {ps' : Params β} {qs' : Params γ} (h : ps.SameNames qs) (h' : ps'.SameNames qs') :
    (ps.merge ps').SameNames (qs.merge qs') := by
  intro name
  rw [contains_merge, contains_merge, h name, h' name]

theorem forRow (h : ps.SameNames qs) (index : Nat) :
    (ps.forRow index).SameNames (qs.forRow index) := by
  intro name
  have hinj := ParamName.inRow_injective index
  rw [Bool.eq_iff_iff, Params.forRow, Params.forRow, contains_rename _ hinj, contains_rename _ hinj]
  simp only [h _]

/-- Rows with the same names, position by position, have the same names when they are numbered. -/
theorem ofRows {rows : List (Params β)} {rows' : List (Params γ)}
    (hrows : List.Forall₂ SameNames rows rows') (h : ps.SameNames qs) (index : Nat) :
    (Params.ofRows index ps rows).SameNames (Params.ofRows index qs rows') := by
  induction hrows generalizing ps qs index with
  | nil => exact h
  | cons hrow _ ih => exact ih (h.merge (hrow.forRow index)) (index + 1)

end SameNames

end Params

namespace Execution

/-- The same call of an execute method, given values with the same names, set by set. -/
inductive SameNames : {ρ : Type} → Execution α β ρ → Execution α γ ρ → Prop
  | once {ρ : Type} (m : Method α ρ) {ps : Params β} {qs : Params γ} (h : ps.SameNames qs) :
    SameNames (.once m ps) (.once m qs)
  | batch (m : BatchMethod) {sets : List (Params β)} {sets' : List (Params γ)}
    (h : List.Forall₂ Params.SameNames sets sets') :
    SameNames (.batch m sets) (.batch m sets')

end Execution

/-! ## Dialogues that differ in values -/

/-- What can be seen of a statement but its values: how it is sent, its text, and how many values
there are. -/
def Sent.shape (s : Sent β) : Mode × String × Nat :=
  (s.mode, s.sql, s.args.length)

namespace Dialogue

/-- Whatever is answered, the same is said but for the values. -/
inductive Alike : Dialogue β σ → Dialogue γ σ → Prop
  | done (result : Except QueryError σ) : Alike (done result) (done result)
  | ask {s : Sent β} {s' : Sent γ} {next : Except QueryError Answer → Dialogue β σ}
    {next' : Except QueryError Answer → Dialogue γ σ} (hshape : s.shape = s'.shape)
    (hnext : ∀ answer, Alike (next answer) (next' answer)) : Alike (ask s next) (ask s' next')

theorem Alike.once {s : Sent β} {s' : Sent γ} (h : s.shape = s'.shape)
    (take : Answer → Except QueryError σ) : (once s take).Alike (once s' take) :=
  .ask h fun _ => .done _

theorem Alike.twice {first second : Sent β} {first' second' : Sent γ}
    (hfirst : first.shape = first'.shape) (hsecond : second.shape = second'.shape)
    (check : Answer → Except QueryError Unit) (take : Answer → Except QueryError σ) :
    (twice first check second take).Alike (twice first' check second' take) := by
  refine .ask hfirst fun answer => ?_
  cases answer >>= check with
  | ok u => exact .once hsecond take
  | error e => exact .done _

theorem Alike.batchFrom (r : Rendered) {sets : List (Params β)} {sets' : List (Params γ)}
    (h : List.Forall₂ Params.SameNames sets sets') (index affected : Nat) :
    (batchFrom r index affected sets).Alike (batchFrom r index affected sets') := by
  induction h generalizing index affected with
  | nil => exact .done _
  | cons hset _ ih =>
    unfold Dialogue.batchFrom
    rcases hset.bind r.params with ⟨e, hps, hqs⟩ | ⟨args, args', hps, hqs, hlength⟩
    · rw [hps, hqs]
      exact .done _
    · rw [hps, hqs]
      refine .ask (by simp [Sent.shape, hlength]) fun answer => ?_
      cases answer with
      | error e => exact .done _
      | ok a => exact ih _ _

/-- Where alike statements get the same answers, the same is sent but for the values, and it comes
to the same. -/
theorem Alike.hold {d : Dialogue β σ} {d' : Dialogue γ σ} (h : d.Alike d')
    {answer : List (Sent β) → Except QueryError Answer}
    {answer' : List (Sent γ) → Except QueryError Answer}
    (hanswer : ∀ past past', past.map Sent.shape = past'.map Sent.shape →
      answer past = answer' past')
    {past : List (Sent β)} {past' : List (Sent γ)}
    (hpast : past.map Sent.shape = past'.map Sent.shape) :
    (d.hold answer past).1 = (d'.hold answer' past').1 ∧
      (d.hold answer past).2.map Sent.shape = (d'.hold answer' past').2.map Sent.shape := by
  induction h generalizing past past' with
  | done result => exact ⟨rfl, rfl⟩
  | @ask s s' next next' hshape _ ih =>
    have hsaid : (past ++ [s]).map Sent.shape = (past' ++ [s']).map Sent.shape := by
      rw [List.map_append, List.map_append, hpast, List.map_singleton, List.map_singleton, hshape]
    obtain ⟨hresult, hsent⟩ := ih (answer (past ++ [s])) hsaid
    rw [Dialogue.hold, Dialogue.hold, ← hanswer _ _ hsaid]
    exact ⟨hresult, congrArg₂ List.cons hshape hsent⟩

end Dialogue

/-! ## Courses that differ in values -/

/-- Both come to the same before anything is done, or both are operations with the same first
statement and dialogues that differ in values only. -/
inductive Course.Alike : Except QueryError (Course β ρ) → Except QueryError (Course γ ρ) → Prop
  | error (e : QueryError) : Alike (.error e) (.error e)
  | idle (a : ρ) : Alike (.ok (.idle a)) (.ok (.idle a))
  | operation (first : Rendered) {d : Dialogue β (Report ρ)} {d' : Dialogue γ (Report ρ)}
    (h : d.Alike d') : Alike (.ok (.operation first d)) (.ok (.operation first d'))

namespace Course.Alike

/-- After the same value or error. -/
theorem bind_same (x : Except QueryError σ) {f : σ → Except QueryError (Course β ρ)}
    {f' : σ → Except QueryError (Course γ ρ)} (h : ∀ a, Alike (f a) (f' a)) :
    Alike (x >>= f) (x >>= f') := by
  cases x with
  | error e => exact .error e
  | ok a => exact h a

/-- After binding the same names. -/
theorem bind_params {ps : Params β} {qs : Params γ} (h : ps.SameNames qs) (names : List String)
    {f : List β → Except QueryError (Course β ρ)} {f' : List γ → Except QueryError (Course γ ρ)}
    (hf : ∀ args args', args.length = args'.length → Alike (f args) (f' args')) :
    Alike (ps.bind names >>= f) (qs.bind names >>= f') := by
  rcases h.bind names with ⟨e, hps, hqs⟩ | ⟨args, args', hps, hqs, hlength⟩
  · rw [hps, hqs]
    exact .error e
  · rw [hps, hqs]
    exact hf args args' hlength

end Course.Alike

open Course.Alike (bind_same bind_params)

theorem Method.course_alike {ps : Params β} {qs : Params γ} (h : ps.SameNames qs) (t : Table)
    (decode : Row → Except QueryError α) (m : Method α ρ) :
    Course.Alike (m.course t decode ps) (m.course t decode qs) := by
  refine bind_same _ fun r => bind_params h _ fun args args' hlength => ?_
  have hshape (mode : Mode) :
      (Sent.mk mode r.sql args).shape = (Sent.mk mode r.sql args').shape := by
    rw [Sent.shape, Sent.shape, hlength]
  cases m.readBack t with
  | none => exact .operation r (.once (hshape _) _)
  | some read =>
    refine bind_same _ fun read => bind_params h _ fun readArgs readArgs' hlength' => ?_
    exact .operation r (.twice (hshape _) (by rw [Sent.shape, Sent.shape, hlength']) _ _)

theorem BatchMethod.dialogue_alike {sets : List (Params β)} {sets' : List (Params γ)}
    (h : List.Forall₂ Params.SameNames sets sets') (m : BatchMethod) (r : Rendered) :
    Course.Alike (m.dialogue r sets >>= fun d => .ok (.operation r d))
      (m.dialogue r sets' >>= fun d => .ok (.operation r d)) := by
  cases m with
  | insert calls =>
    rw [dialogue, dialogue, bind_assoc, bind_assoc]
    refine bind_params (.ofRows h .empty 0) _ fun args args' hlength => ?_
    exact .operation r (.once (by rw [Sent.shape, Sent.shape, hlength]) _)
  | update calls | delete calls => exact .operation r (.batchFrom r h 0 0)

theorem BatchMethod.course_alike {sets : List (Params β)} {sets' : List (Params γ)}
    (h : List.Forall₂ Params.SameNames sets sets') (t : Table) (m : BatchMethod) :
    Course.Alike (m.course t sets) (m.course t sets') := by
  cases hpre : m.preflight t with
  | error e =>
    rw [course_of_error hpre, course_of_error hpre]
    exact .error e
  | ok u =>
    cases h with
    | nil =>
      rw [course_nil hpre, course_nil hpre]
      exact .idle 0
    | @cons set set' sets sets' hset hsets =>
      rw [course_of_sets hpre (List.cons_ne_nil set sets),
        course_of_sets hpre (List.cons_ne_nil set' sets'), List.length_cons, List.length_cons,
        hsets.length_eq]
      exact bind_same _ fun r => m.dialogue_alike (.cons hset hsets) r

theorem Execution.course_alike {x : Execution α β ρ} {y : Execution α γ ρ} (h : x.SameNames y)
    (t : Table) (decode : Row → Except QueryError α) :
    Course.Alike (x.course t decode) (y.course t decode) := by
  cases h with
  | once m h => exact m.course_alike h t decode
  | batch m h => exact m.course_alike h t

/-! ## The client's side -/

/-- A script looks at nothing but how many statements there are. -/
theorem Operation.answer_ofScript (o : Operation) (replies : List Reply)
    {elapsed elapsed' : Duration} {past : List (Sent β)} {past' : List (Sent γ)}
    (h : past.map Sent.shape = past'.map Sent.shape) :
    o.answer (.ofScript replies elapsed) past = o.answer (.ofScript replies elapsed') past' := by
  have hlength := congrArg List.length h
  rw [List.length_map, List.length_map] at hlength
  simp only [answer, Client.ofScript, hlength]

namespace Execution

/-- Values with the same names are not told apart by what is sent nor by what it comes to: the same
statements are sent in the same order, each with as many values, up to the same one, and the value
or error is the same, whatever the values are, of whatever type, and however long it takes. -/
theorem values_unseen (t : Table) (decode : Row → Except QueryError α) {x : Execution α β ρ}
    {y : Execution α γ ρ} (h : x.SameNames y) (replies : List Reply)
    (elapsed elapsed' : Duration) :
    (sentOf ((x.run t decode).start (.ofScript replies elapsed)).2).map Sent.shape =
        (sentOf ((y.run t decode).start (.ofScript replies elapsed')).2).map Sent.shape ∧
      ((x.run t decode).start (.ofScript replies elapsed)).1 =
        ((y.run t decode).start (.ofScript replies elapsed')).1 := by
  have hkind : x.kind = y.kind := by cases h <;> rfl
  have hcourse := course_alike h t decode
  -- the courses are alike: the same error, nothing to do, or dialogues that differ in values only
  generalize hx : x.course t decode = k at hcourse
  generalize hy : y.course t decode = k' at hcourse
  cases hcourse with
  | error e =>
    rw [start_of_error hx, start_of_error hy]
    exact ⟨rfl, rfl⟩
  | idle a =>
    rw [start_of_idle hx, start_of_idle hy]
    exact ⟨rfl, rfl⟩
  | operation first hdialogue =>
    rw [start_of_operation hx, start_of_operation hy, ← hkind]
    -- a scripted client goes by the number of statements sent, not by their values
    have hanswer (past : List (Sent β)) (past' : List (Sent γ))
        (hpast : past.map Sent.shape = past'.map Sent.shape) :
        (Operation.new t x.kind first).answer (.ofScript replies elapsed) past =
          (Operation.new t x.kind first).answer (.ofScript replies elapsed') past' :=
      Operation.answer_ofScript _ replies hpast
    have hstart : ([] : List (Sent β)).map Sent.shape = ([] : List (Sent γ)).map Sent.shape := rfl
    obtain ⟨hresult, hsent⟩ := hdialogue.hold hanswer hstart
    rw [Operation.sentOf_conduct, Operation.sentOf_conduct, Operation.conduct_result,
      Operation.conduct_result]
    exact ⟨hsent, congrArg (· >>= Report.result) hresult⟩

/-- A batch of which the second statement fails, with numbers in one run and texts in the other. -/
theorem values_unseen_batch :
    let schema : Schema :=
      ⟨"users", [⟨"id", true, false⟩, ⟨"age", false, true⟩], by decide, by decide, by decide,
        by decide⟩
    let t : Table := { schema, renderer := .ofDialect .postgres }
    let m : BatchMethod := .delete [.whereCond (.compare "id" "=" "id")]
    let replies : List Reply :=
      [{ outcome := .ok { affected := 1 } }, { outcome := .error (.query "lost connection") }]
    let ids : List (Params Nat) := [.ofList [("id", 1)], .ofList [("id", 2)], .ofList [("id", 3)]]
    let words : List (Params String) :=
      [.ofList [("id", "1 OR TRUE")], .ofList [("id", "--")], .ofList [("id", "")]]
    let sql := "DELETE FROM \"users\" WHERE \"id\" = $1"
    let run {β : Type} (sets : List (Params β)) :=
      ((batch m sets).run t (·.int8 "id")).start (.ofScript replies ⟨0⟩)
    sentOf (run ids).2 = [⟨.execute, sql, [1]⟩, ⟨.execute, sql, [2]⟩] ∧
      (run ids).1 = .error (.batch 1 1 (.exec "delete_batch users" (.query "lost connection"))) ∧
      (sentOf (run ids).2).map Sent.shape = (sentOf (run words).2).map Sent.shape ∧
      (run ids).1 = (run words).1 := by
  intro schema t m replies ids words sql run
  have hsame (v : Nat) (w : String) :
      (Params.ofList [("id", v)]).SameNames (Params.ofList [("id", w)]) :=
    .set .empty "id" v w
  have hsets : List.Forall₂ Params.SameNames ids words :=
    .cons (hsame _ _) (.cons (hsame _ _) (.cons (hsame _ _) .nil))
  exact ⟨by decide +kernel, by decide +kernel,
    values_unseen t (·.int8 "id") (.batch m hsets) replies ⟨0⟩ ⟨0⟩⟩

end Execution

end CheckedSql
