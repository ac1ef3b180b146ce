/-
The statement that reads back the row which an UPDATE has changed. It is written wherever the UPDATE
is, and has the same conditions behind its WHERE: the placeholders have other numbers, since the
UPDATE sets columns first, but the same names and so the same values. What it reads is what the
UPDATE would return where the dialect can do that.
-/
import CheckedSql.Proofs.Execution.Plan
import CheckedSql.Proofs.Query.Returning
import CheckedSql.Proofs.Sql.Respell

namespace CheckedSql

open Sql (paramsOf placeholdersOf textOf)

variable {β : Type}

/-! ## Names and values of places -/

namespace Rendered

/-- The name that a number stands for. -/
def nameAt (o : Rendered) (n : Nat) : String :=
  (o.params[n - 1]?).getD ""

/-- A text of a statement with the names in the place of their placeholders. -/
def named (o : Rendered) (text : String) : String :=
  Sql.respell o.nameAt text

variable {o : Rendered} {ts : Tokens}

/-- Names put in the place of placeholders are those that the placeholders were written for. -/
theorem named_textOf (h : ∀ name ∈ paramsOf ts, name ∈ o.params) :
    o.named (textOf o.spell ts) = textOf id ts := by
  have hback : (o.numbered ts).map (Sql.Token.map o.nameAt) = ts := by
    rw [numbered, Sql.map_tokenMap]
    refine Sql.map_eq_self fun name hname => ?_
    show o.nameAt (Draft.rank o.params name) = name
    rw [nameAt, Draft.getElem?_rank (h name hname), Option.getD_some]
  rw [named, textOf_spell, Sql.respell_textOf, ← Function.id_comp o.nameAt, ← Sql.textOf_map, hback]

/-- The places of a sequence of tokens are given the values of the names they were written for. -/
theorem values_textOf (h : ∀ name ∈ paramsOf ts, name ∈ o.params) {ps : Params β} {args : List β}
    (hargs : ps.bind o.params = .ok args) :
    (placeholdersOf (textOf o.spell ts)).map (fun n => args[n - 1]?) =
      (paramsOf ts).map ps.get? := by
  rw [textOf_spell, Sql.placeholdersOf_textOf, numbered, Sql.paramsOf_map, List.map_map]
  refine List.map_congr_left fun name hname => ?_
  show args[Draft.rank o.params name - 1]? = ps.get? name
  rw [Params.getElem?_bind hargs, Draft.getElem?_rank (h name hname)]
  rfl

/-- Conditions behind the WHERE of a statement that has names for them: with these in the place of
the placeholders, they are the conditions as they are written with names. -/
theorem named_conjunction {o : Rendered} {cs : List Cond}
    (h : ∀ name ∈ Cond.usesAll cs, name ∈ o.params) :
    o.named (conjunctionText o.spell cs) = conjunctionText id cs := by
  refine named_textOf fun name hname => h name ?_
  rwa [paramsOf_conjunctionTokens] at hname

/-- Conditions behind the WHERE of a statement that has names for them: each place is given the value
of the name that it was written for. -/
theorem values_conjunction {o : Rendered} {cs : List Cond}
    (h : ∀ name ∈ Cond.usesAll cs, name ∈ o.params) {ps : Params β} {args : List β}
    (hargs : ps.bind o.params = .ok args) :
    (placeholdersOf (conjunctionText o.spell cs)).map (fun n => args[n - 1]?) =
      (Cond.usesAll cs).map ps.get? := by
  rw [← paramsOf_conjunctionTokens cs] at h ⊢
  exact values_textOf h hargs

end Rendered

/-! ## The same rows -/

namespace UpdateQuery

variable {q : UpdateQuery}

/-- Without a row to return, the tokens of an UPDATE are those of its clauses. -/
theorem render_ok_plain {r : Rendered} (hplain : q.table.capabilities.returningOnUpdate = false)
    (h : q.render = .ok r) :
    ∃ c, q.assigned = .ok c ∧ c.assignments ≠ [] ∧ c.conditions ≠ [] ∧
      r = .ofTokens (q.plain c).tokens := by
  obtain ⟨c, hc, h⟩ := bind_ok h
  obtain ⟨u, hwhere, h⟩ := bind_ok h
  rw [hplain] at h
  exact ⟨c, hc, assignments_ne_nil hc, requireWhere_ok hwhere, (Renderer.render_eq_ok.1 h).2⟩

theorem renderReadBack_tokens {c : Clauses} {read : Rendered} (hc : q.assigned = .ok c)
    (h : q.renderReadBack = .ok read) : read = .ofTokens (q.readBack c).tokens := by
  rw [renderReadBack, hc] at h
  exact (Renderer.render_eq_ok.1 h).2

/-- The tokens of the statement that reads the row back: every column, under the conditions. -/
theorem tokens_readBack (q : UpdateQuery) (c : Clauses) :
    (q.readBack c).tokens =
      .keyword .SELECT :: columnTokens q.table.schema.allColumns
        ++ [.keyword .FROM, .identifier q.table.schema.table] ++ whereTokens c.conditions :=
  tokens_select _ q.table.schema.allColumns_ne_nil _

theorem paramsOf_readBack (q : UpdateQuery) (c : Clauses) :
    paramsOf (q.readBack c).tokens = Cond.usesAll c.conditions := by
  rw [tokens_readBack]
  simp

/-- The statement that reads the row back has the names of the conditions, and no other. -/
theorem mem_params_readBack {c : Clauses} {read : Rendered}
    (hread : read = .ofTokens (q.readBack c).tokens) {name : String} :
    name ∈ read.params ↔ name ∈ Cond.usesAll c.conditions := by
  rw [hread, Rendered.mem_params_ofTokens, paramsOf_readBack]

/-- The names of the conditions are among those of the UPDATE. -/
theorem mem_params_plain {c : Clauses} {r : Rendered} (hr : r = .ofTokens (q.plain c).tokens)
    {name : String} (hname : name ∈ Cond.usesAll c.conditions) : name ∈ r.params := by
  rw [hr, Rendered.mem_params_ofTokens, UpdateStatement.paramsOf_tokens]
  exact List.mem_append_right _ hname

/-- Whatever binds the UPDATE binds the statement that reads the row back. -/
theorem bind_readBack {r read : Rendered} {ps : Params β} {args : List β}
    (hplain : q.table.capabilities.returningOnUpdate = false) (h : q.render = .ok r)
    (hread : q.renderReadBack = .ok read) (hargs : ps.bind r.params = .ok args) :
    ∃ readArgs, ps.bind read.params = .ok readArgs := by
  obtain ⟨c, hc, -, -, hr⟩ := render_ok_plain hplain h
  exact Params.bind_of_subset hargs fun name hname =>
    mem_params_plain hr ((mem_params_readBack (renderReadBack_tokens hc hread)).1 hname)

/-- The UPDATE as it is written, up to its conditions and from them on. -/
theorem sql_plain {c : Clauses} {r : Rendered} (hset : c.assignments ≠ [])
    (hwhere : c.conditions ≠ []) (hr : r = .ofTokens (q.plain c).tokens) :
    r.sql = "UPDATE " ++ Ident.quote q.table.schema.table ++ " SET "
      ++ assignmentList r.spell c.assignments
      ++ " WHERE " ++ conjunctionText r.spell c.conditions := by
  subst hr
  have hnothing : returningText (q.plain c).returning = "" := rfl
  have hclause (spell : String → String) : Sql.spaced spell (whereTokens (q.plain c).conditions) =
      " WHERE " ++ conjunctionText spell c.conditions := spaced_whereTokens spell hwhere
  rw [Rendered.sql_ofTokens, UpdateStatement.textOf_tokens _ _ hset, hclause, hnothing,
    String.append_empty, ← String.append_assoc]
  rfl

/-- The statement that reads the row back, up to its conditions and from them on. -/
theorem sql_readBack {c : Clauses} {read : Rendered} (hwhere : c.conditions ≠ [])
    (hread : read = .ofTokens (q.readBack c).tokens) :
    read.sql = "SELECT " ++ quotedList q.table.schema.allColumns ++ " FROM "
      ++ Ident.quote q.table.schema.table
      ++ " WHERE " ++ conjunctionText read.spell c.conditions := by
  subst hread
  have hselect := textOf_select (Rendered.ofTokens (q.readBack c).tokens).spell
    q.table.schema.table q.table.schema.allColumns_ne_nil c.conditions
  rw [Rendered.sql_ofTokens]
  refine hselect.trans ?_
  rw [spaced_whereTokens _ hwhere, ← String.append_assoc]

/-- The UPDATE that returns its row, where the other one is written. -/
theorem render_returning_of_plain {r : Rendered}
    (hplain : q.table.capabilities.returningOnUpdate = false) (h : q.render = .ok r) :
    (q.returningUpdates true).render = .ok (r.returning q.table.schema.allColumns) := by
  have hself : q.returningUpdates false = q := by
    rw [returningUpdates, Table.returningUpdates_self hplain]
  rw [render_returningUpdates, hself, h]
  rfl

/-- Conditions under the names of two statements are given the same values in both, one for each
occurrence. -/
theorem values_readBack {cs : List Cond} {r read : Rendered}
    (hnames : ∀ name ∈ Cond.usesAll cs, name ∈ r.params)
    (hreadNames : ∀ name ∈ Cond.usesAll cs, name ∈ read.params) {ps : Params β}
    {args readArgs : List β} (hargs : ps.bind r.params = .ok args)
    (hreadArgs : ps.bind read.params = .ok readArgs) :
    (placeholdersOf (conjunctionText r.spell cs)).map (fun n => args[n - 1]?) =
        (placeholdersOf (conjunctionText read.spell cs)).map (fun n => readArgs[n - 1]?) ∧
      ∀ n ∈ placeholdersOf (conjunctionText r.spell cs), (args[n - 1]?).isSome := by
  have hvalues := Rendered.values_conjunction hnames hargs
  refine ⟨?_, fun n hn => ?_⟩
  · rw [hvalues, Rendered.values_conjunction hreadNames hreadArgs]
  · have hmem : args[n - 1]? ∈ (Cond.usesAll cs).map ps.get? := by
      rw [← hvalues]
      exact List.mem_map_of_mem hn
    obtain ⟨name, hname, hget⟩ := List.mem_map.1 hmem
    rw [← hget]
    exact Params.contains_of_bind hargs (hnames name hname)

/-- Where an UPDATE cannot return its row, the statement that reads it back is written too. Behind its
WHERE it has the same conditions as the UPDATE, once the names are put in the place of their
placeholders; each of its names is one of the UPDATE, and whatever binds the UPDATE gives the same
values to both, occurrence by occurrence. It reads every column, in the order in which another
dialect would return them. -/
theorem readBack_of_render {t : Table} {calls : List Call} {r : Rendered}
    (hplain : t.capabilities.returningOnUpdate = false) (h : (ofCalls t calls).render = .ok r) :
    ∃ read clause readClause,
      (ofCalls t calls).renderReadBack = .ok read ∧
      r.sql = "UPDATE " ++ Ident.quote t.schema.table ++ " SET "
        ++ assignmentList r.spell (ofCalls t calls).chain.clauses.assignments
        ++ " WHERE " ++ clause ∧
      read.sql = "SELECT " ++ quotedList t.schema.allColumns ++ " FROM "
        ++ Ident.quote t.schema.table ++ " WHERE " ++ readClause ∧
      r.named clause = read.named readClause ∧
      (∀ name ∈ read.params, name ∈ r.params) ∧
      (∀ {β : Type} (ps : Params β) (args : List β), ps.bind r.params = .ok args →
        ∃ readArgs, ps.bind read.params = .ok readArgs ∧
          (placeholdersOf clause).map (fun n => args[n - 1]?) =
            (placeholdersOf readClause).map (fun n => readArgs[n - 1]?) ∧
          ∀ n ∈ placeholdersOf clause, (args[n - 1]?).isSome) ∧
      ∃ full, (ofCalls (t.returningUpdates true) calls).render = .ok full ∧
        full.params = r.params ∧
        full.sql = r.sql ++ " RETURNING " ++ quotedList t.schema.allColumns := by
  have htable := table_ofCalls t calls
  rw [ofCalls_returningUpdates]
  generalize ofCalls t calls = q at h htable ⊢
  subst htable
  obtain ⟨c, hc, hset, hwhere, hr⟩ := render_ok_plain hplain h
  obtain ⟨read, hread⟩ := renderReadBack_ok h
  have hreadTokens := renderReadBack_tokens hc hread
  -- both statements have all names of the conditions, so both clauses are spelled with them
  have hnames : ∀ name ∈ Cond.usesAll c.conditions, name ∈ r.params := fun _ => mem_params_plain hr
  have hreadNames : ∀ name ∈ Cond.usesAll c.conditions, name ∈ read.params :=
    fun _ => (mem_params_readBack hreadTokens).2
  have hnamed : r.named (conjunctionText r.spell c.conditions) =
      read.named (conjunctionText read.spell c.conditions) := by
    rw [Rendered.named_conjunction hnames, Rendered.named_conjunction hreadNames]
  -- a name has one value, under whichever number the statement gives it
  have hvalues {β : Type} (ps : Params β) (args : List β) (hargs : ps.bind r.params = .ok args) :
      ∃ readArgs, ps.bind read.params = .ok readArgs ∧ _ :=
    (bind_readBack hplain h hread hargs).imp fun _ hreadArgs =>
      ⟨hreadArgs, values_readBack hnames hreadNames hargs hreadArgs⟩
  rw [assigned_ok hc]
  refine ⟨read, _, _, hread, sql_plain hset hwhere hr, sql_readBack hwhere hreadTokens, hnamed,
    fun name hname => hnames name ((mem_params_readBack hreadTokens).1 hname), hvalues, _,
    render_returning_of_plain hplain h, rfl, ?_⟩
  exact Rendered.sql_returning_allColumns r q.table.schema

/-- A name that is set and asked for, which has another number in each of the statements. -/
theorem readBack_of_render_shared :
    let schema : Schema :=
      ⟨"users", [⟨"id", true, false⟩, ⟨"age", false, true⟩], by decide, by decide, by decide,
        by decide⟩
    let t : Table := { schema, renderer := .ofDialect .redshift }
    let q := ofCalls t
      [.assign "id" "next", .assign "age" "v",
        .whereCond (.group .or [.compare "age" "=" "v",
          .group .and [.null "age" true, .compare "id" "=" "id"]])]
    let r : Rendered :=
      ⟨"UPDATE \"users\" SET \"id\" = $1, \"age\" = $2 WHERE " ++
        "(\"age\" = $2 OR (\"age\" IS NOT NULL AND \"id\" = $3))", ["next", "v", "id"]⟩
    let read : Rendered :=
      ⟨"SELECT \"id\", \"age\" FROM \"users\" WHERE " ++
        "(\"age\" = $1 OR (\"age\" IS NOT NULL AND \"id\" = $2))", ["v", "id"]⟩
    let ps : Params Nat := .ofList [("id", 5), ("next", 6), ("v", 7)]
    t.capabilities.returningOnUpdate = false ∧ q.render = .ok r ∧ q.renderReadBack = .ok read ∧
      ps.bind r.params = .ok [6, 7, 5] ∧
      ∃ readArgs, ps.bind read.params = .ok readArgs ∧ readArgs = [7, 5] := by
  intro schema t q r read ps
  have hplain : t.capabilities.returningOnUpdate = false := rfl
  have hr : q.render = .ok r := by decide +kernel
  have hread : q.renderReadBack = .ok read := by decide +kernel
  have hargs : ps.bind r.params = .ok [6, 7, 5] := by decide +kernel
  obtain ⟨read', clause, readClause, hread', -, -, -, -, hvalues, -⟩ := readBack_of_render hplain hr
  rw [hread] at hread'
  cases hread'
  obtain ⟨readArgs, hreadArgs, -, -⟩ := hvalues ps _ hargs
  refine ⟨hplain, hr, hread, hargs, readArgs, hreadArgs, ?_⟩
  have hbound : ps.bind read.params = .ok [7, 5] := by decide +kernel
  rw [hbound] at hreadArgs
  exact (Except.ok.inj hreadArgs).symm

end UpdateQuery

end CheckedSql
