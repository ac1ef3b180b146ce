/-
Dialects that differ in nothing but whether an UPDATE returns the row that it changes. They refuse
the same queries for the same reasons, and write the same statement, with the same names, but for the
clause that returns the row.
-/
import CheckedSql.Proofs.Query.Mutation
import CheckedSql.Proofs.Refusal
import CheckedSql.Proofs.Statement.Text
import CheckedSql.Proofs.Statement.Uses

namespace CheckedSql

/-! ## The two dialects -/

/-- The renderer, with an UPDATE that returns its row or does not. -/
def Renderer.returningUpdates (r : Renderer) (returns : Bool) : Renderer :=
  { r with capabilities := { r.capabilities with returningOnUpdate := returns } }

/-- The table, with an UPDATE that returns its row or does not. -/
def Table.returningUpdates (t : Table) (returns : Bool) : Table :=
  { t with renderer := t.renderer.returningUpdates returns }

/-- The query on the table that returns its row or does not. -/
def UpdateQuery.returningUpdates (q : UpdateQuery) (returns : Bool) : UpdateQuery :=
  { q with table := q.table.returningUpdates returns }

theorem Table.returningUpdates_self {t : Table} {returns : Bool}
    (h : t.capabilities.returningOnUpdate = returns) : t.returningUpdates returns = t := by
  subst h
  rfl

theorem UpdateQuery.ofCalls_returningUpdates (t : Table) (returns : Bool) (calls : List Call) :
    ofCalls (t.returningUpdates returns) calls = (ofCalls t calls).returningUpdates returns := by
  rw [ofCalls_eq, ofCalls_eq]
  rfl

/-! ## What is refused -/

/-- Nothing in a list of demands is about what an UPDATE returns. -/
def Indifferent (ds : List Demand) : Prop :=
  .feature .updateReturning ∉ ds

theorem Indifferent.append {ds es : List Demand} (hds : Indifferent ds) (hes : Indifferent es) :
    Indifferent (ds ++ es) :=
  fun h => (List.mem_append.1 h).elim hds hes

theorem Cond.indifferent_all (cs : List Cond) : Indifferent (Cond.demandsAll cs) :=
  fun h => Cond.demandsAll_ofCondition cs _ h

namespace Renderer

variable (r : Renderer) (returns : Bool)

theorem meets_returningUpdates {d : Demand} (h : d ≠ .feature .updateReturning) :
    (r.returningUpdates returns).meets d = r.meets d := by
  cases d with
  | flaw f => rfl
  | feature f =>
    cases f with
    | updateReturning => exact absurd rfl h
    | _ => rfl

theorem refusal?_returningUpdates {ds : List Demand} (h : Indifferent ds) :
    (r.returningUpdates returns).refusal? ds = r.refusal? ds := by
  have hdialect : (r.returningUpdates returns).dialect = r.dialect := rfl
  exact refusal?_congr hdialect fun _ hd => r.meets_returningUpdates returns fun he => h (he ▸ hd)

end Renderer

/-! ## What is written -/

/-- A statement that returns columns besides. -/
def Rendered.returning (o : Rendered) (columns : List Column) : Rendered :=
  { o with sql := o.sql ++ returningText columns }

theorem Schema.allColumns_ne_nil (s : Schema) : s.allColumns ≠ [] := by
  simpa [allColumns] using s.columns_ne_nil

theorem Rendered.sql_returning_allColumns (o : Rendered) (s : Schema) :
    (o.returning s.allColumns).sql = o.sql ++ " RETURNING " ++ quotedList s.allColumns := by
  have hreturned : returningText s.allColumns = " RETURNING " ++ quotedList s.allColumns :=
    if_neg (by simpa using s.allColumns_ne_nil)
  rw [returning, hreturned, String.append_assoc]

theorem UpdateStatement.ofTokens_returning (s : UpdateStatement) (hset : s.assignments ≠ []) :
    Rendered.ofTokens s.tokens =
      (Rendered.ofTokens { s with returning := [] }.tokens).returning s.returning := by
  let plain : UpdateStatement := { s with returning := [] }
  have hparams : (Rendered.ofTokens s.tokens).params = (Rendered.ofTokens plain.tokens).params := by
    rw [(Rendered.ofTokens_eq _).1, (Rendered.ofTokens_eq _).1, paramsOf_tokens, paramsOf_tokens]
    rfl
  have hspell : (Rendered.ofTokens s.tokens).spell = (Rendered.ofTokens plain.tokens).spell := by
    funext name
    rw [Rendered.spell, hparams]
    rfl
  have hsql : (Rendered.ofTokens s.tokens).sql =
      (Rendered.ofTokens plain.tokens).sql ++ returningText s.returning := by
    rw [Rendered.sql_ofTokens, Rendered.sql_ofTokens, hspell, s.textOf_tokens _ hset,
      plain.textOf_tokens _ hset, returningText.eq_def plain.returning]
    exact congrArg (· ++ returningText s.returning) String.append_empty.symm
  exact congrArg₂ Rendered.mk hsql hparams

namespace UpdateQuery

variable {q : UpdateQuery}

theorem assignments_ne_nil {c : Clauses} (h : q.assigned = .ok c) : c.assignments ≠ [] := by
  obtain ⟨g, -, h⟩ := bind_ok h
  split at h
  · cases h
  · rename_i hne
    cases h
    simpa using hne

/-- The UPDATE of clauses, with nothing returned. -/
def plain (q : UpdateQuery) (c : Clauses) : UpdateStatement :=
  { table := q.table.schema.table, assignments := c.assignments, conditions := c.conditions }

theorem indifferent_plain (q : UpdateQuery) (c : Clauses) : Indifferent (q.plain c).demands := by
  refine .append (.append ?_ (Cond.indifferent_all c.conditions)) ?_
  · split <;> simp [Indifferent]
  · simp [Indifferent, plain]

/-- An UPDATE that returns nothing is the same in both dialects. -/
theorem renderStatement_nil (q : UpdateQuery) (c : Clauses) (returns : Bool) :
    (q.returningUpdates returns).renderStatement c [] = q.renderStatement c [] := by
  show (q.table.renderer.returningUpdates returns).render (.update (q.plain c)) =
    q.table.renderer.render (.update (q.plain c))
  rw [Renderer.render_eq, Renderer.render_eq, Statement.demands,
    Renderer.refusal?_returningUpdates _ _ (q.indifferent_plain c)]

/-- The dialects refuse the same UPDATE for the same reason, and else write the same, but for what
is returned. -/
theorem renderStatement_returning {c : Clauses} (hset : c.assignments ≠ []) :
    (q.returningUpdates true).renderStatement c q.table.schema.allColumns =
      (q.renderStatement c []).map (·.returning q.table.schema.allColumns) := by
  let st : UpdateStatement := { q.plain c with returning := q.table.schema.allColumns }
  have hdemands : st.demands = (q.plain c).demands ++ [.feature .updateReturning] := by
    have hsome : st.returning.isEmpty = false := by simpa using q.table.schema.allColumns_ne_nil
    simp [UpdateStatement.demands, hsome, plain, st]
  have hrefusal : (q.table.renderer.returningUpdates true).refusal? st.demands =
      q.table.renderer.refusal? (q.plain c).demands := by
    have hmet : (q.table.renderer.returningUpdates true).refusal? [.feature .updateReturning] =
        none := rfl
    rw [hdemands, Renderer.refusal?_append, hmet, Option.or_none,
      Renderer.refusal?_returningUpdates _ _ (q.indifferent_plain c)]
  show (q.table.renderer.returningUpdates true).render (.update st) =
    (q.table.renderer.render (.update (q.plain c))).map _
  rw [Renderer.render_eq, Renderer.render_eq, Statement.demands, Statement.demands, hrefusal]
  cases q.table.renderer.refusal? (q.plain c).demands with
  | some e => rfl
  | none => exact congrArg Except.ok (st.ofTokens_returning hset)

/-- Where an UPDATE is written, so is the one that returns nothing, with the same names. -/
theorem renderStatement_nil_of_render {o : Rendered} (h : q.render = .ok o) :
    ∃ c r, q.assigned = .ok c ∧ c.requireWhere = .ok () ∧ q.renderStatement c [] = .ok r ∧
      r.params = o.params := by
  obtain ⟨c, hc, h⟩ := bind_ok h
  obtain ⟨u, hwhere, h⟩ := bind_ok h
  cases hreturns : q.table.capabilities.returningOnUpdate with
  | false =>
    rw [hreturns] at h
    exact ⟨c, o, hc, hwhere, h, rfl⟩
  | true =>
    have hself : q.returningUpdates true = q := by
      rw [returningUpdates, Table.returningUpdates_self hreturns]
    have hreturning := renderStatement_returning (q := q) (assignments_ne_nil hc)
    rw [hreturns] at h
    have hfull : q.renderStatement c q.table.schema.allColumns = .ok o := h
    rw [hself, hfull] at hreturning
    cases hr : q.renderStatement c [] with
    | error e =>
      rw [hr] at hreturning
      cases hreturning
    | ok r =>
      rw [hr] at hreturning
      cases hreturning
      exact ⟨c, r, hc, hwhere, hr, rfl⟩

/-- Where the row is returned, the UPDATE that is sent is the one of the other dialect with every
column returned; and it is refused for the same reason, if it is. -/
theorem render_returningUpdates (q : UpdateQuery) :
    (q.returningUpdates true).render =
      (q.returningUpdates false).render.map (·.returning q.table.schema.allColumns) := by
  have hassigned (returns : Bool) : (q.returningUpdates returns).assigned = q.assigned := rfl
  unfold render
  rw [hassigned, hassigned]
  cases hc : q.assigned with
  | error e => rfl
  | ok c =>
    show (c.requireWhere >>= fun _ => _) = Except.map _ (c.requireWhere >>= fun _ => _)
    cases c.requireWhere with
    | error e => rfl
    | ok u =>
      refine (renderStatement_returning (assignments_ne_nil hc)).trans ?_
      exact congrArg (Except.map _) (renderStatement_nil q c false).symm

end UpdateQuery

end CheckedSql
