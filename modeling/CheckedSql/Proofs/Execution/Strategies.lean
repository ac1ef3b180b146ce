/-
The two ways of changing exactly one row and coming to it as it is stored. One dialect returns the
row; in the other the changed rows are counted, and if there is one it is read back. With clients
that show the same effect, the ways come to the same value or error, the errors before the first
statement included.
-/
import CheckedSql.Proofs.Execution.ReadBack

namespace CheckedSql

variable {α β : Type}

/-! ## Statements that change what is stored -/

/-- A text that changes what is stored: its first word is INSERT, UPDATE or DELETE. -/
def Sql.mutates (sql : String) : Bool :=
  match scan sql with
  | some (.keyword .INSERT :: _) | some (.keyword .UPDATE :: _) | some (.keyword .DELETE :: _) =>
    true
  | _ => false

/-- A statement that changes what is stored. -/
def Statement.mutates : Statement → Bool
  | .insert _ | .update _ | .delete _ => true
  | .select _ | .compound _ => false

theorem Renderer.mutates_of_render {r : Renderer} {st : Statement} {o : Rendered}
    (h : r.render st = .ok o) : Sql.mutates o.sql = st.mutates := by
  have hscan : Sql.scan o.sql = some (o.numbered st.tokens) := by
    rw [(Renderer.render_eq_ok.1 h).2, (Rendered.ofTokens_eq _).2, Sql.scan_textOf]
  rw [Sql.mutates, hscan]
  cases st <;> rfl

/-! ## The two dialogues -/

theorem Report.written_result (decode : Row → Except QueryError α) (missing : String)
    (outcome : Outcome) (rows : List Row) :
    Report.written decode missing outcome rows >>= Report.result =
      exactlyOne missing rows >>= decode := by
  unfold written
  cases exactlyOne missing rows with
  | error e => rfl
  | ok row => cases h : decode row <;> simp [bind, Except.bind, h, pure, Except.pure]

/-- What changing exactly one row comes to, by the changed rows as they are stored, or by the failure
of the client. -/
def settle (table : String) (decode : Row → Except QueryError α) :
    Except QueryError (List Row) → Except QueryError α
  | .error e => .error (.exec ("update " ++ table) e)
  | .ok [] => .error (.notFound "no rows updated")
  | .ok [row] => decode row
  | .ok rows => .error (.tooManyRows 1 rows.length)

namespace Operation

variable {o : Operation} {table : String} {c : Client β} {first second : Sent β}
  {effect : Except QueryError (List Row)}

/-- What is made of a part of an answer, by what that part of the reply is. -/
theorem answer_bind {γ δ : Type} {part : Answer → γ} {sent : List (Sent β)}
    {x : Except QueryError γ} (h : (o.judge (c.reply sent)).map part = x)
    (take : γ → Except QueryError δ) :
    (o.answer c sent >>= fun a => take (part a)) = x.mapError (.exec o.info.label) >>= take := by
  subst h
  unfold answer
  cases o.judge (c.reply sent) <;> rfl

/-- One statement, answered with the changed rows. -/
theorem conduct_settles (decode : Row → Except QueryError α)
    (hlabel : o.info.label = "update " ++ table)
    (h : (o.judge (c.reply [first])).map (·.rows) = effect) :
    ((o.conduct (.once first fun a =>
          Report.written decode "no rows updated" (.rows 1) a.rows)).start c).1 =
        settle table decode effect ∧
      sentOf ((o.conduct (.once first fun a =>
          Report.written decode "no rows updated" (.rows 1) a.rows)).start c).2 = [first] := by
  rw [conduct_result, sentOf_conduct, Dialogue.hold_once]
  refine ⟨?_, rfl⟩
  simp only [List.nil_append, bind_assoc, Report.written_result]
  rw [answer_bind h fun rows => exactlyOne "no rows updated" rows >>= decode, hlabel]
  rcases effect with e | _ | ⟨row, _ | ⟨row', rows⟩⟩ <;> rfl

/-- Two statements, the first answered with the number of the changed rows, and the second with the
row if there is one. -/
theorem conduct_settles_twice (decode : Row → Except QueryError α)
    (hlabel : o.info.label = "update " ++ table)
    (h : (o.judge (c.reply [first])).map (·.affected) = effect.map List.length)
    (hread : ∀ row, effect = .ok [row] →
      (o.judge (c.reply [first, second])).map (·.rows) = .ok [row]) :
    ((o.conduct (.twice first (fun a => exactlyOneAffected "no rows updated" a.affected) second
          fun a => Report.written decode "updated row not found" (.affected 1) a.rows)).start c).1 =
        settle table decode effect ∧
      sentOf ((o.conduct (.twice first
          (fun a => exactlyOneAffected "no rows updated" a.affected) second fun a =>
          Report.written decode "updated row not found" (.affected 1) a.rows)).start c).2 =
        first :: (match effect with
          | .ok [_] => [second]
          | _ => []) := by
  rw [conduct_result, sentOf_conduct]
  have hcheck := answer_bind h (exactlyOneAffected "no rows updated")
  rw [hlabel] at hcheck
  -- only of one changed row is the check passed, and the row read back
  rcases effect with e | _ | ⟨row, _ | ⟨row', rows⟩⟩
  · rw [Dialogue.hold_twice_of_error hcheck]
    exact ⟨rfl, rfl⟩
  · rw [Dialogue.hold_twice_of_error hcheck]
    exact ⟨rfl, rfl⟩
  · rw [Dialogue.hold_twice_of_ok hcheck]
    refine ⟨?_, rfl⟩
    simp only [List.nil_append, List.singleton_append, bind_assoc, Report.written_result]
    rw [answer_bind (hread row rfl) fun rows => exactlyOne "updated row not found" rows >>= decode]
    rfl
  · rw [Dialogue.hold_twice_of_error hcheck]
    exact ⟨rfl, rfl⟩

end Operation

namespace UpdateQuery

variable {t : Table} {calls : List Call} {ps : Params β} {decode : Row → Except QueryError α}

theorem exec_of_error {e : QueryError} (h : (ofCalls t calls).render = .error e) (c : Client β) :
    ((ofCalls t calls).exec decode ps).start c = (.error e, []) :=
  Run.start_error h c

theorem exec_of_lacking {r : Rendered} {name : String} (h : (ofCalls t calls).render = .ok r)
    (hname : ps.lacking r.params = some name) (c : Client β) :
    ((ofCalls t calls).exec decode ps).start c = (.error (.missingParam name), []) := by
  unfold exec
  rw [h]
  exact Run.start_error (Params.bind_of_lacking hname) c

/-- Where the row is returned, one statement is sent, for the rows. -/
theorem exec_returning {r : Rendered} {args : List β}
    (hreturns : t.capabilities.returningOnUpdate = true) (hr : (ofCalls t calls).render = .ok r)
    (hargs : ps.bind r.params = .ok args) (c : Client β) :
    ((ofCalls t calls).exec decode ps).start c =
      ((Operation.new t .update r).conduct (.once ⟨.query, r.sql, args⟩ fun a =>
        Report.written decode "no rows updated" (.rows 1) a.rows)).start c := by
  have hrender : (Method.update calls : Method α α).render t = .ok r := hr
  have hback : (Method.update calls : Method α α).readBack t = none := if_pos hreturns
  have hreport : (Method.update calls).report t decode = fun a =>
      Report.written decode "no rows updated" (.rows 1) a.rows := funext fun a => if_pos hreturns
  refine Execution.start_of_operation (x := .once (.update calls) ps) ?_ c
  rw [← hreport]
  exact Method.course_of_bound hrender hargs hback

/-- Where the changed rows are counted, a second statement follows if there is one of them. -/
theorem exec_plain {r read : Rendered} {args readArgs : List β}
    (hplain : t.capabilities.returningOnUpdate = false) (hr : (ofCalls t calls).render = .ok r)
    (hargs : ps.bind r.params = .ok args) (hread : (ofCalls t calls).renderReadBack = .ok read)
    (hreadArgs : ps.bind read.params = .ok readArgs) (c : Client β) :
    ((ofCalls t calls).exec decode ps).start c =
      ((Operation.new t .update r).conduct
        (.twice ⟨.execute, r.sql, args⟩ (fun a => exactlyOneAffected "no rows updated" a.affected)
          ⟨.query, read.sql, readArgs⟩ fun a =>
            Report.written decode "updated row not found" (.affected 1) a.rows)).start c := by
  have hreturns : ¬t.capabilities.returningOnUpdate = true := by simp [hplain]
  have hrender : (Method.update calls : Method α α).render t = .ok r := hr
  have hback : (Method.update calls : Method α α).readBack t = some (.ok read) :=
    (if_neg hreturns).trans (congrArg some hread)
  have hreport : (Method.update calls).report t decode = fun a =>
      Report.written decode "updated row not found" (.affected 1) a.rows :=
    funext fun a => if_neg hreturns
  refine Execution.start_of_operation (x := .once (.update calls) ps) ?_ c
  rw [← hreport]
  exact Method.course_of_bound_readBack hrender hargs hback hreadArgs

/-! ## One effect -/

/-- The two dialects refuse an UPDATE for the same reason, and else write it alike. -/
theorem render_ofCalls_returning (t : Table) (calls : List Call) :
    (ofCalls (t.returningUpdates true) calls).render =
      (ofCalls (t.returningUpdates false) calls).render.map (·.returning t.schema.allColumns) := by
  rw [ofCalls_returningUpdates, ofCalls_returningUpdates, render_returningUpdates, table_ofCalls]

theorem mutates_render {q : UpdateQuery} {r : Rendered} (h : q.render = .ok r) :
    Sql.mutates r.sql = true := by
  obtain ⟨c, -, h⟩ := bind_ok h
  obtain ⟨u, -, h⟩ := bind_ok h
  exact Renderer.mutates_of_render h

theorem not_mutates_renderReadBack {q : UpdateQuery} {read : Rendered}
    (h : q.renderReadBack = .ok read) : Sql.mutates read.sql = false := by
  obtain ⟨c, -, h⟩ := bind_ok h
  exact Renderer.mutates_of_render h

/-- Clients of the two dialects that show one effect of an UPDATE with given values: the changed rows
as they are stored, or a failure. The one answers with these rows; the other with their number, and,
where there is one, with this row when it is read back. -/
structure ShowEffect (t : Table) (calls : List Call) (ps : Params β) (returning plain : Client β)
    (effect : Except QueryError (List Row)) : Prop where
  returned : ∀ r args, (ofCalls (t.returningUpdates true) calls).render = .ok r →
    ps.bind r.params = .ok args →
      ((Operation.new t .update r).judge (returning.reply [⟨.query, r.sql, args⟩])).map (·.rows) =
        effect
  counted : ∀ r args, (ofCalls (t.returningUpdates false) calls).render = .ok r →
    ps.bind r.params = .ok args →
      ((Operation.new t .update r).judge (plain.reply [⟨.execute, r.sql, args⟩])).map
          (·.affected) = effect.map List.length
  readBack : ∀ r args read readArgs row,
    (ofCalls (t.returningUpdates false) calls).render = .ok r → ps.bind r.params = .ok args →
    (ofCalls (t.returningUpdates false) calls).renderReadBack = .ok read →
    ps.bind read.params = .ok readArgs → effect = .ok [row] →
      ((Operation.new t .update r).judge (plain.reply
          [⟨.execute, r.sql, args⟩, ⟨.query, read.sql, readArgs⟩])).map (·.rows) = .ok [row]

/-- What the runs of an UPDATE in the two dialects have in common: the value or error in every case,
the statement that changes rows, and that it comes first. The row is read back only where it is not
returned, and only if exactly one was changed. -/
structure Agree (t : Table) (calls : List Call) (decode : Row → Except QueryError α)
    (ps : Params β) (effect : Except QueryError (List Row))
    (returning plain : Except QueryError α × List (Action β)) : Prop where
  result : returning.1 = plain.1
  refused : ∀ e, (ofCalls (t.returningUpdates false) calls).render = .error e →
    returning = (.error e, []) ∧ plain = (.error e, [])
  unbound : ∀ r name, (ofCalls (t.returningUpdates false) calls).render = .ok r →
    ps.lacking r.params = some name →
      returning = (.error (.missingParam name), []) ∧ plain = (.error (.missingParam name), [])
  settled : ∀ r args, (ofCalls (t.returningUpdates false) calls).render = .ok r →
    ps.bind r.params = .ok args →
      plain.1 = settle t.schema.table decode effect ∧
      sentOf returning.2 =
        [⟨.query, r.sql ++ " RETURNING " ++ quotedList t.schema.allColumns, args⟩] ∧
      ∃ read readArgs, (ofCalls (t.returningUpdates false) calls).renderReadBack = .ok read ∧
        ps.bind read.params = .ok readArgs ∧
        sentOf plain.2 = ⟨.execute, r.sql, args⟩ ::
          (match effect with
            | .ok [_] => [⟨.query, read.sql, readArgs⟩]
            | _ => [])
  mutates : ∀ s rest, sentOf returning.2 = s :: rest ∨ sentOf plain.2 = s :: rest →
    Sql.mutates s.sql = true ∧ ∀ s' ∈ rest, Sql.mutates s'.sql = false

namespace Agree

variable {effect : Except QueryError (List Row)}

/-- Where nothing is sent, the error is the same. -/
theorem of_error {e : QueryError}
    (h : (ofCalls (t.returningUpdates false) calls).render = .error e ∨
      ∃ r name, (ofCalls (t.returningUpdates false) calls).render = .ok r ∧
        ps.lacking r.params = some name ∧ e = .missingParam name) :
    Agree t calls decode ps effect (.error e, []) (.error e, []) where
  result := rfl
  refused e' he := by
    rcases h with h | ⟨r, name, h, -, -⟩ <;> rw [h] at he <;> cases he
    exact ⟨rfl, rfl⟩
  unbound r name hr hname := by
    rcases h with h | ⟨r', name', h, hname', rfl⟩ <;> rw [h] at hr <;> cases hr
    rw [hname] at hname'
    cases hname'
    exact ⟨rfl, rfl⟩
  settled r args hr hargs := by
    rcases h with h | ⟨r', name, h, hname, -⟩ <;> rw [h] at hr <;> cases hr
    rw [Params.bind_of_lacking hname] at hargs
    cases hargs
  mutates s rest hs := by rcases hs with hs | hs <;> cases hs

theorem of_bound {returning plain : Client β} {r : Rendered} {args : List β}
    (h : ShowEffect t calls ps returning plain effect)
    (hr : (ofCalls (t.returningUpdates false) calls).render = .ok r)
    (hargs : ps.bind r.params = .ok args) :
    Agree t calls decode ps effect
      (((ofCalls (t.returningUpdates true) calls).exec decode ps).start returning)
      (((ofCalls (t.returningUpdates false) calls).exec decode ps).start plain) := by
  have hfull : (ofCalls (t.returningUpdates true) calls).render =
      .ok (r.returning t.schema.allColumns) := by
    rw [render_ofCalls_returning, hr]
    rfl
  have hplain : (ofCalls (t.returningUpdates false) calls).table.capabilities.returningOnUpdate =
      false := by
    rw [table_ofCalls]
    rfl
  obtain ⟨read, hread⟩ := renderReadBack_ok hr
  obtain ⟨readArgs, hreadArgs⟩ := bind_readBack hplain hr hread hargs
  have hlabel (returns : Bool) (first : Rendered) :
      (Operation.new (t.returningUpdates returns) .update first).info.label =
        "update " ++ t.schema.table := rfl
  -- with the row returned, and with it counted and read back: the effect decides both runs
  obtain ⟨hresult, hsent⟩ := Operation.conduct_settles decode
    (hlabel true (r.returning t.schema.allColumns)) (h.returned _ args hfull hargs)
  obtain ⟨hresult', hsent'⟩ := Operation.conduct_settles_twice decode (hlabel false r)
    (h.counted r args hr hargs)
    fun row => h.readBack r args read readArgs row hr hargs hread hreadArgs
  rw [← exec_returning rfl hfull hargs] at hresult hsent
  rw [← exec_plain rfl hr hargs hread hreadArgs] at hresult' hsent'
  rw [Rendered.sql_returning_allColumns] at hsent
  -- both come to what the effect settles; as the UPDATE is written and has its values, nothing
  -- of the refused and the unbound cases is left
  refine ⟨hresult.trans hresult'.symm, fun e he => ?_, fun r' name hr' hname => ?_,
    fun r' args' hr' hargs' => ?_, fun s rest hs => ?_⟩
  · rw [hr] at he
    cases he
  · rw [hr] at hr'
    cases hr'
    rw [Params.bind_of_lacking hname] at hargs
    cases hargs
  · rw [hr] at hr'
    cases hr'
    rw [hargs] at hargs'
    cases hargs'
    exact ⟨hresult', hsent, read, readArgs, hread, hreadArgs, hsent'⟩
  -- what changes rows is sent first, and a read-back does not
  · rcases hs with hs | hs
    · rw [hsent] at hs
      cases hs
      rw [← Rendered.sql_returning_allColumns]
      exact ⟨mutates_render hfull, List.forall_mem_nil _⟩
    · rw [hsent'] at hs
      cases hs
      refine ⟨mutates_render hr, ?_⟩
      split
      · exact List.forall_mem_singleton.2 (not_mutates_renderReadBack hread)
      · exact List.forall_mem_nil _

end Agree

/-- With clients that show the same effect, the dialect that returns the changed row and the one that
reads it back come to the same. -/
theorem strategies_agree (t : Table) (calls : List Call) (decode : Row → Except QueryError α)
    (ps : Params β) (returning plain : Client β) (effect : Except QueryError (List Row))
    (h : ShowEffect t calls ps returning plain effect) :
    Agree t calls decode ps effect
      (((ofCalls (t.returningUpdates true) calls).exec decode ps).start returning)
      (((ofCalls (t.returningUpdates false) calls).exec decode ps).start plain) := by
  have hfull := render_ofCalls_returning t calls
  -- the same error of writing, then the same lacking value, before either client is asked
  cases hr : (ofCalls (t.returningUpdates false) calls).render with
  | error e =>
    rw [hr] at hfull
    rw [exec_of_error hfull, exec_of_error hr]
    exact .of_error (.inl hr)
  | ok r =>
    rw [hr] at hfull
    cases hargs : ps.bind r.params with
    | error e =>
      obtain ⟨name, hname, rfl⟩ := Params.bind_error hargs
      rw [exec_of_lacking hfull hname, exec_of_lacking hr hname]
      exact .of_error (.inr ⟨r, name, hr, hname, rfl⟩)
    | ok args => exact .of_bound h hr hargs

/-- One changed row, which the second dialect reads back by another numbering of the names. -/
theorem strategies_agree_one :
    let schema : Schema :=
      ⟨"users", [⟨"id", true, false⟩, ⟨"age", false, true⟩], by decide, by decide, by decide,
        by decide⟩
    let t : Table := { schema, renderer := .ofDialect .postgres }
    let calls : List Call := [.assign "age" "next", .whereCond (.compare "id" "=" "id")]
    let ps : Params Nat := .ofList [("id", 5), ("next", 7)]
    let row : Row := [("id", .int8 (some 5)), ("age", .int4 (some 7))]
    let returning : Client Nat := .ofScript [{ outcome := .ok { rows := [row] } }] ⟨0⟩
    let plain : Client Nat :=
      .ofScript [{ outcome := .ok { affected := 1 } }, { outcome := .ok { rows := [row] } }] ⟨0⟩
    let run (returns : Bool) (c : Client Nat) :=
      ((ofCalls (t.returningUpdates returns) calls).exec (·.int8 "id") ps).start c
    ShowEffect t calls ps returning plain (.ok [row]) ∧
      (run true returning).1 = .ok 5 ∧ (run false plain).1 = .ok 5 ∧
      sentOf (run true returning).2 =
        [⟨.query, "UPDATE \"users\" SET \"age\" = $1 WHERE \"id\" = $2 RETURNING \"id\", \"age\"",
          [7, 5]⟩] ∧
      sentOf (run false plain).2 =
        [⟨.execute, "UPDATE \"users\" SET \"age\" = $1 WHERE \"id\" = $2", [7, 5]⟩,
          ⟨.query, "SELECT \"id\", \"age\" FROM \"users\" WHERE \"id\" = $1", [5]⟩] := by
  intro schema t calls ps row returning plain run
  have hshow : ShowEffect t calls ps returning plain (.ok [row]) :=
    ⟨fun _ _ _ _ => rfl, fun _ _ _ _ => rfl, by rintro _ _ _ _ _ _ _ _ _ ⟨⟩; rfl⟩
  have hr : (ofCalls (t.returningUpdates false) calls).render =
      .ok ⟨"UPDATE \"users\" SET \"age\" = $1 WHERE \"id\" = $2", ["next", "id"]⟩ := by
    decide +kernel
  have hread : (ofCalls (t.returningUpdates false) calls).renderReadBack =
      .ok ⟨"SELECT \"id\", \"age\" FROM \"users\" WHERE \"id\" = $1", ["id"]⟩ := by
    decide +kernel
  have hagree := strategies_agree t calls (·.int8 "id") ps returning plain (.ok [row]) hshow
  obtain ⟨hresult, hsent, read, readArgs, hread', hreadArgs, hsent'⟩ := hagree.settled _ [7, 5] hr rfl
  rw [hread] at hread'
  cases hread'
  cases hreadArgs
  have hdecode : settle "users" (·.int8 "id") (.ok [row]) = .ok 5 := by decide +kernel
  exact ⟨hshow, (hagree.result.trans hresult).trans hdecode, hresult.trans hdecode, hsent, hsent'⟩

end UpdateQuery

end CheckedSql
