/-
What an INSERT needs where its row is not returned. The statement that reads the row back is bound
before anything is sent, and has the names of the columns it looks for. All of them are written by
the INSERT but columns of the primary key that the conflict target names: a value for each of these
is needed besides, and nothing else.
-/
import CheckedSql.Proofs.Execution.Bound
import CheckedSql.Proofs.Execution.Cells
import CheckedSql.Proofs.Execution.InsertReadBack

namespace CheckedSql

variable {α β ρ : Type}

/-- The table, with an INSERT that returns its row or does not. -/
def Table.returningInserts (t : Table) (returns : Bool) : Table :=
  { t with
    renderer :=
      { t.renderer with
        capabilities := { t.renderer.capabilities with returningOnInsert := returns } } }

/-! ## What is sent first, and what is missing -/

namespace Method

variable {t : Table} {m : Method α ρ} {ps : Params β} {decode : Row → Except QueryError α}

/-- Only with its first statement written and bound does a method send anything. -/
theorem bound_of_sent {c : Client β} (h : sentOf ((m.run t decode ps).start c).2 ≠ []) :
    ∃ r args, m.render t = .ok r ∧ ps.bind r.params = .ok args := by
  cases hcourse : (Execution.once m ps).course t decode with
  | error e => exact absurd (congrArg (sentOf ·.2) (Execution.start_of_error hcourse c)) h
  | ok k => exact bound_of_course hcourse

/-- With both statements written and bound, the one that writes is sent first. -/
theorem sent_first {r read : Rendered} {args readArgs : List β} (hr : m.render t = .ok r)
    (hargs : ps.bind r.params = .ok args) (hback : m.readBack t = some (.ok read))
    (hreadArgs : ps.bind read.params = .ok readArgs) (c : Client β) :
    (sentOf ((m.run t decode ps).start c).2)[0]? = some ⟨.execute, r.sql, args⟩ := by
  have hcourse : (Execution.once m ps).course t decode = _ :=
    course_of_bound_readBack hr hargs hback hreadArgs
  show (sentOf (((Execution.once m ps).run t decode).start c).2)[0]? = _
  rw [Execution.start_of_operation hcourse, Operation.sentOf_conduct]
  rfl

/-- A missing value is one of the statement that writes or of the one that reads back. -/
theorem mem_params_of_missing (hdecode : ∀ row, Fails QueryError.isOfAnswer (decode row))
    {r read : Rendered} (hr : m.render t = .ok r) (hback : m.readBack t = some (.ok read))
    {c : Client β} {name : String}
    (h : ((m.run t decode ps).start c).1 = .error (.missingParam name)) :
    name ∈ r.params ∨ name ∈ read.params := by
  obtain ⟨statements, hplan, hlacks⟩ :=
    (BoundFirst.of_run hdecode t (.once m ps) c).missing name h
  have hboth : m.plan t ps = .ok [⟨.execute, r, ps⟩, ⟨.query, read, ps⟩] := by
    simp only [plan, hr, hback]
    rfl
  cases hboth.symm.trans hplan
  obtain ⟨p, hp, hname⟩ := List.exists_of_findSome?_eq_some hlacks
  have hmem : name ∈ p.statement.params := List.mem_of_find?_eq_some hname
  rcases List.mem_cons.1 hp with rfl | hp
  · exact .inl hmem
  · rw [List.mem_singleton.1 hp] at hmem
    exact .inr hmem

end Method

/-! ## Names that only the reading back has -/

namespace InsertQuery

variable {t : Table} {calls : List Call}

/-- The columns of the conflict that an INSERT does not write: those of the primary key. -/
def unwrittenNames (s : Schema) (calls : List Call) : List String :=
  (targetNames calls).filter (· ∈ s.primaryKey.map (·.name))

theorem mem_unwrittenNames {s : Schema} {name : String} :
    name ∈ unwrittenNames s calls ↔
      name ∈ targetNames calls ∧ name ∈ s.primaryKey.map (·.name) := by
  rw [unwrittenNames, List.mem_filter, decide_eq_true_iff]

/-- A row is found again by columns that were written, and by those of the conflict that were
not. -/
theorem mem_keyNames_unwritten {s : Schema}
    (htarget : ∀ name ∈ targetNames calls, name ∈ s.allColumns.map (·.name)) {name : String} :
    (name ∈ keyNames s calls ∧ name ∉ s.nonPrimary.map (·.name)) ↔
      name ∈ unwrittenNames s calls := by
  rw [mem_unwrittenNames]
  constructor
  · rintro ⟨hkey, hunwritten⟩
    unfold keyNames at hkey
    split at hkey
    · exact absurd hkey hunwritten
    · refine ⟨hkey, ?_⟩
      obtain ⟨c, hc, rfl⟩ := List.mem_map.1 (htarget name hkey)
      rcases Schema.mem_allColumns.1 hc with hprimary | hother
      · exact List.mem_map_of_mem hprimary
      · exact absurd (List.mem_map_of_mem hother) hunwritten
  · rintro ⟨hmem, hprimary⟩
    refine ⟨?_, s.names_disjoint hprimary⟩
    rw [keyNames, if_neg (List.ne_nil_of_mem hmem)]
    exact hmem

/-- The names of an INSERT are those of the columns that it writes, whether it returns its row or
not. -/
theorem params_render {r : Rendered} (h : (ofCalls t calls).render = .ok r) :
    r.params = t.schema.nonPrimary.map (·.name) := by
  obtain ⟨conflict, -, h⟩ := bind_ok h
  rw [(Renderer.render_eq_ok.1 h).2]
  show (Rendered.ofTokens (InsertStatement.tokens _)).params = _
  rw [(Rendered.ofTokens_eq _).1, InsertStatement.paramsOf_tokens]
  have hnames : ((ofCalls t calls).columns.map (·.name)).Nodup := by
    refine List.Nodup.map_on ?_ (nodup_columns _)
    rintro ⟨a⟩ - ⟨b⟩ - hname
    exact congrArg Column.mk hname
  have hcolumns : (ofCalls t calls).columns = t.schema.nonPrimary := by
    rw [columns, table_ofCalls]
  simp only [InsertStatement.uses, statement, List.flatMap_cons, List.flatMap_nil, List.append_nil,
    List.map_map]
  exact (eraseDups_of_nodup hnames).trans (by rw [hcolumns])

/-- The names that only the statement reading the row back has. -/
theorem mem_params_unwritten {r read : Rendered} (h : (ofCalls t calls).render = .ok r)
    (hread : (ofCalls t calls).renderReadBack = .ok read) {name : String} :
    (name ∈ read.params ∧ name ∉ r.params) ↔ name ∈ unwrittenNames t.schema calls := by
  obtain ⟨conflict, hconflict, -⟩ := bind_ok h
  obtain rfl := Except.ok.inj ((renderReadBack_eq hconflict).symm.trans hread)
  obtain ⟨hnames, hmem⟩ := targetColumns_ofCalls hconflict
  rw [mem_params_readBack, names_keys hconflict, params_render h]
  refine mem_keyNames_unwritten fun name hname => ?_
  obtain ⟨c, hc, rfl⟩ := List.mem_map.1 (hnames ▸ hname)
  exact List.mem_map_of_mem (hmem c hc)

/-! ## What is needed without the row returned -/

/-- An INSERT that is written where its row is not returned. The statement that reads the row back
has a name that the INSERT does not have if and only if it is that of a column of the primary key
which the conflict target names. With values for these, whatever lets the INSERT be sent where its
row is returned lets it be sent here too; and no other name is ever missing that the INSERT does not
have. -/
theorem needs_of_render (t : Table) (calls : List Call) {r : Rendered}
    (h : (ofCalls (t.returningInserts false) calls).render = .ok r) :
    ∃ read, (ofCalls (t.returningInserts false) calls).renderReadBack = .ok read ∧
      (∀ name, (name ∈ read.params ∧ name ∉ r.params) ↔ name ∈ unwrittenNames t.schema calls) ∧
      ∀ {α β : Type} (decode : Row → Except QueryError α) (ps : Params β) (returning plain : Client β),
        (sentOf (((ofCalls (t.returningInserts true) calls).exec decode ps).start returning).2 ≠ [] →
          (∀ name ∈ unwrittenNames t.schema calls, ps.contains name = true) →
          ∃ args, ps.bind r.params = .ok args ∧
            (sentOf (((ofCalls (t.returningInserts false) calls).exec decode ps).start plain).2)[0]? =
              some ⟨.execute, r.sql, args⟩) ∧
        ((∀ row e, decode row = .error e → ∃ column detail, e = .decode column detail) →
          ∀ name, (((ofCalls (t.returningInserts false) calls).exec decode ps).start plain).1 =
              .error (.missingParam name) →
            name ∉ r.params → name ∈ unwrittenNames t.schema calls) := by
  obtain ⟨read, hread⟩ := renderReadBack_ok h
  have hunwritten (name : String) :
      (name ∈ read.params ∧ name ∉ r.params) ↔ name ∈ unwrittenNames t.schema calls :=
    mem_params_unwritten h hread
  refine ⟨read, hread, hunwritten, fun {α β} decode ps returning plain => ?_⟩
  let m : Method α α := .insert calls
  have hrender : m.render (t.returningInserts false) = .ok r := h
  have hback : m.readBack (t.returningInserts false) = some (.ok read) := congrArg some hread
  constructor
  · intro hsent hcontains
    obtain ⟨full, args, hfull, hargs⟩ :=
      Method.bound_of_sent (m := m) (t := t.returningInserts true) hsent
    -- both tables write the same columns
    have hparams : full.params = r.params := (params_render hfull).trans (params_render h).symm
    rw [hparams] at hargs
    obtain ⟨readArgs, hreadArgs⟩ : ∃ readArgs, ps.bind read.params = .ok readArgs := by
      refine Params.bind_of_contains fun name hname => ?_
      by_cases hwritten : name ∈ r.params
      · exact Params.contains_of_bind hargs hwritten
      · exact hcontains name ((hunwritten name).1 ⟨hname, hwritten⟩)
    exact ⟨args, hargs, Method.sent_first hrender hargs hback hreadArgs plain⟩
  · intro hdecode name hmissing hname
    have hlate (row : Row) : Fails QueryError.isOfAnswer (decode row) := .of_decode (hdecode row)
    have hmem := (Method.mem_params_of_missing hlate hrender hback hmissing).resolve_left hname
    exact (hunwritten name).1 ⟨hmem, hname⟩

/-- A conflict on the key: with a value for it besides the INSERT is sent, and without one it is the
name that is missing. -/
theorem needs_of_render_keyed :
    let schema : Schema :=
      ⟨"users", [⟨"id", true, false⟩, ⟨"age", false, true⟩], by decide, by decide, by decide,
        by decide⟩
    let t : Table := { schema, renderer := .ofDialect .postgres }
    let calls : List Call := [.onConflictSkip ["id"]]
    let c : Client Nat := .ofScript [{ outcome := .ok { affected := 1 } }] ⟨0⟩
    let r : Rendered :=
      ⟨"INSERT INTO \"users\" (\"age\") VALUES ($1) ON CONFLICT (\"id\") DO NOTHING", ["age"]⟩
    let run (ps : List (String × Nat)) :=
      ((ofCalls (t.returningInserts false) calls).exec (·.int8 "id") (.ofList ps)).start c
    (ofCalls (t.returningInserts false) calls).render = .ok r ∧
      (∃ args, (sentOf (run [("age", 7), ("id", 1)]).2)[0]? = some ⟨.execute, r.sql, args⟩) ∧
      (run [("age", 7)]).1 = .error (.missingParam "id") ∧ "id" ∈ unwrittenNames t.schema calls := by
  intro schema t calls c r run
  have hr : (ofCalls (t.returningInserts false) calls).render = .ok r := by decide +kernel
  obtain ⟨read, -, -, hneeds⟩ := needs_of_render t calls hr
  have hmissing : (run [("age", 7)]).1 = .error (.missingParam "id") := by decide +kernel
  have hdecode (row : Row) (e : QueryError) (h : row.int8 "id" = .error e) := Row.int8_error h
  obtain ⟨hsends, -⟩ := hneeds (·.int8 "id") (.ofList [("age", 7), ("id", 1)]) c c
  obtain ⟨args, -, hfirst⟩ := hsends (by decide +kernel) (by decide)
  obtain ⟨-, hlacks⟩ := hneeds (·.int8 "id") (.ofList [("age", 7)]) c c
  exact ⟨hr, ⟨args, hfirst⟩, hmissing, hlacks hdecode "id" hmissing (by decide)⟩

/-- A conflict on the key, with values for what the INSERT writes and no other: the INSERT that
returns its row is sent, and the one that does not is refused for want of the key. -/
theorem needs_key_of_conflict :
    let schema : Schema :=
      ⟨"users", [⟨"id", true, false⟩, ⟨"age", false, true⟩], by decide, by decide, by decide,
        by decide⟩
    let t : Table := { schema, renderer := .ofDialect .postgres }
    let q (returns : Bool) := ofCalls (t.returningInserts returns) [.onConflictSkip ["id"]]
    let c : Client Nat := .ofScript [] ⟨0⟩
    let run (returns : Bool) := ((q returns).exec (·.int8 "id") (.ofList [("age", 7)])).start c
    t.capabilities.upsert = true ∧
      (q false).render.map (·.params) = .ok ["age"] ∧
      (q false).renderReadBack.map (·.params) = .ok ["id"] ∧
      sentOf (run true).2 ≠ [] ∧ run false = (.error (.missingParam "id"), []) := by
  decide +kernel

end InsertQuery

end CheckedSql
