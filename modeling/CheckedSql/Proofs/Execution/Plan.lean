/-
The statements of an execution, each with the values that it is bound to. Writing them needs no
values; a statement has a place for each of its names; and where a statement is written that cannot
return its row, so is the one that reads the row back.
-/
import CheckedSql.Proofs.Execution.Course
import CheckedSql.Proofs.Params
import CheckedSql.Proofs.Refusal
import CheckedSql.Proofs.Sql.Placeholder
import Mathlib.Data.List.MinMax
import Mathlib.Order.Nat

namespace CheckedSql

variable {α β ρ σ : Type}

/-! ## Places of a statement -/

/-- The highest number of a placeholder in a text, zero without any. -/
def Sql.highestPlaceholder (sql : String) : Nat :=
  (placeholdersOf sql).foldr max 0

namespace Rendered

/-- A statement has a place for each of its names, and no other. -/
def Numbered (o : Rendered) : Prop :=
  ∀ k, k ∈ Sql.placeholdersOf o.sql ↔ 1 ≤ k ∧ k ≤ o.params.length

theorem numbered_ofTokens (ts : List (Sql.Token String)) : (ofTokens ts).Numbered := by
  intro k
  obtain ⟨hparams, hsql⟩ := ofTokens_eq ts
  have hnodup : (ofTokens ts).params.Nodup := hparams ▸ nodup_eraseDups _
  have hmem (name : String) : name ∈ (ofTokens ts).params ↔ name ∈ Sql.paramsOf ts := by
    rw [hparams, List.mem_eraseDups]
  rw [hsql, Sql.placeholdersOf_textOf, numbered, Sql.paramsOf_map]
  constructor
  · intro hk
    obtain ⟨name, hname, rfl⟩ := List.mem_map.1 hk
    have hlt := List.idxOf_lt_length_of_mem ((hmem name).2 hname)
    exact ⟨Nat.le_add_left 1 _, hlt⟩
  · rintro ⟨hlow, hhigh⟩
    have hk : k ∈ (ofTokens ts).params.map (Draft.rank (ofTokens ts).params) := by
      rw [Draft.map_rank hnodup, List.mem_range'_1]
      omega
    obtain ⟨name, hname, rfl⟩ := List.mem_map.1 hk
    exact List.mem_map_of_mem ((hmem name).1 hname)

theorem Numbered.highest {o : Rendered} (h : o.Numbered) :
    Sql.highestPlaceholder o.sql = o.params.length := by
  refine Nat.le_antisymm (List.max_le_of_forall_le _ _ fun k hk => ((h k).1 hk).2) ?_
  rcases Nat.eq_zero_or_pos o.params.length with hzero | hpos
  · exact hzero ▸ Nat.zero_le _
  · exact List.le_max_of_le ((h _).2 ⟨hpos, Nat.le_refl _⟩) (Nat.le_refl _)

end Rendered

theorem Renderer.render_numbered {r : Renderer} {st : Statement} {o : Rendered}
    (h : r.render st = .ok o) : o.Numbered := by
  rw [(Renderer.render_eq_ok.1 h).2]
  exact Rendered.numbered_ofTokens st.tokens

theorem Renderer.render_lift_numbered {γ : Type} {x : Except QueryError γ} {r : Renderer}
    {f : γ → Statement} {o : Rendered} (h : (x >>= fun a => r.render (f a)) = .ok o) :
    o.Numbered := by
  obtain ⟨a, -, h⟩ := bind_ok h
  exact render_numbered h

theorem UpdateQuery.render_numbered {q : UpdateQuery} {returning : List Column} {o : Rendered}
    (h : (do
      let c ← q.assigned
      c.requireWhere
      q.renderStatement c returning) = .ok o) : o.Numbered := by
  obtain ⟨c, -, h⟩ := bind_ok h
  obtain ⟨-, -, h⟩ := bind_ok h
  exact Renderer.render_numbered h

theorem DeleteQuery.render_numbered {q : DeleteQuery} {o : Rendered} (h : q.render = .ok o) :
    o.Numbered := by
  obtain ⟨conditions, -, h⟩ := bind_ok h
  split at h
  · cases h
  · exact Renderer.render_numbered h

theorem Method.render_numbered {t : Table} {m : Method α ρ} {o : Rendered}
    (h : m.render t = .ok o) : o.Numbered := by
  cases m with
  | fetchOne calls | fetchOneRow calls | fetchAll calls | fetchRows calls =>
    exact Renderer.render_lift_numbered h
  | compoundAll first calls | compoundRows first calls => exact Renderer.render_lift_numbered h
  | aggregate get fn column calls => exact Renderer.render_lift_numbered h
  | insert calls => exact Renderer.render_lift_numbered h
  | update calls => exact UpdateQuery.render_numbered h
  | delete calls => exact DeleteQuery.render_numbered h

theorem Method.readBack_numbered {t : Table} {m : Method α ρ} {o : Rendered}
    (h : m.readBack t = some (.ok o)) : o.Numbered := by
  cases m with
  | insert calls =>
    rw [readBack] at h
    split at h
    · cases h
    · exact Renderer.render_lift_numbered (Option.some.inj h)
  | update calls =>
    rw [readBack] at h
    split at h
    · cases h
    · exact Renderer.render_lift_numbered (Option.some.inj h)
  | _ => cases h

theorem BatchMethod.render_numbered {t : Table} {m : BatchMethod} {count : Nat} {o : Rendered}
    (h : m.render t count = .ok o) : o.Numbered := by
  cases m with
  | insert calls => exact Renderer.render_lift_numbered h
  | update calls => exact UpdateQuery.render_numbered h
  | delete calls => exact DeleteQuery.render_numbered h

/-! ## Statements that are planned -/

/-- A statement that an execution is about to send, with the values it is bound to. -/
structure Planned (β : Type) where
  mode : Mode
  statement : Rendered
  values : Params β

namespace Planned

/-- The first name of the statement without a value. -/
def lacks (p : Planned β) : Option String :=
  p.values.lacking p.statement.params

/-- What is sent is the planned statement, in the place of each name the value of that name. -/
def Sends (p : Planned β) (s : Sent β) : Prop :=
  s.mode = p.mode ∧ s.sql = p.statement.sql ∧
    s.args.map some = p.statement.params.map p.values.get?

theorem Sends.of_bind {p : Planned β} {args : List β}
    (h : p.values.bind p.statement.params = .ok args) :
    p.Sends ⟨p.mode, p.statement.sql, args⟩ :=
  ⟨rfl, rfl, (Params.bind_ok h).2⟩

/-- A statement has as many values as places. -/
theorem Sends.highest {p : Planned β} {s : Sent β} (h : p.Sends s) (hp : p.statement.Numbered) :
    Sql.highestPlaceholder s.sql = s.args.length := by
  have hlength := congrArg List.length h.2.2
  rw [List.length_map, List.length_map] at hlength
  rw [h.2.1, hp.highest, hlength]

end Planned

/-- The statements of a method, in the order in which they are sent. -/
def Method.plan (t : Table) (m : Method α ρ) (ps : Params β) :
    Except QueryError (List (Planned β)) := do
  let r ← m.render t
  match m.readBack t with
  | none => return [⟨m.mode, r, ps⟩]
  | some read => do
    let read ← read
    return [⟨.execute, r, ps⟩, ⟨.query, read, ps⟩]

/-- The statements of a batch: one for the rows of an INSERT, and else one for each set. -/
def BatchMethod.statements (r : Rendered) (sets : List (Params β)) :
    BatchMethod → List (Planned β)
  | insert _ => [⟨.execute, r, .ofRows 0 .empty sets⟩]
  | update _ | delete _ => sets.map fun set => ⟨.execute, r, set⟩

/-- The statements of a batch; without sets there is none. -/
def BatchMethod.plan (t : Table) (m : BatchMethod) (sets : List (Params β)) :
    Except QueryError (List (Planned β)) := do
  m.preflight t
  if sets.isEmpty then return []
  let r ← m.render t sets.length
  return m.statements r sets

/-- The statements of an execution. -/
def Execution.plan (t : Table) : Execution α β ρ → Except QueryError (List (Planned β))
  | once m ps => m.plan t ps
  | batch m sets => m.plan t sets

/-! ## What is written can be read back -/

namespace InsertQuery

variable (q : InsertQuery) (conflict : Option Conflict)

theorem demands_keyCond (c : Column) : (q.keyCond c).demands = [] := by
  unfold keyCond
  split <;> rfl

theorem demandsAll_keyCond (cs : List Column) : Cond.demandsAll (cs.map q.keyCond) = [] := by
  simp [Cond.demandsAll_eq_flatMap, demands_keyCond]

/-- The statement that reads a row back demands nothing. -/
theorem demands_readBack : (q.readBack conflict).demands = [] := by
  simp [SelectStatement.demands, readBack, Schema.allItems, SelectItem.ofColumn, Expr.demands,
    demandsAll_keyCond, Cond.demandsAll, OrderItem.demandsAll_eq_flatMap, OrderItem.demands]

variable {q conflict}

/-- With a conflict clause that is sound, or none, the statement that reads a row back is written. -/
theorem renderReadBack_eq (h : liftBuild q.chain.result = .ok conflict) :
    q.renderReadBack = .ok (.ofTokens (q.readBack conflict).tokens) := by
  rw [renderReadBack, h]
  refine Renderer.render_eq_ok.2 ⟨?_, rfl⟩
  rw [Statement.demands, demands_readBack]
  rfl

/-- Where an INSERT is written, so is the statement that reads its row back. -/
theorem renderReadBack_ok {r : Rendered} (h : q.render = .ok r) :
    ∃ read, q.renderReadBack = .ok read := by
  obtain ⟨conflict, hconflict, -⟩ := bind_ok h
  exact ⟨_, renderReadBack_eq hconflict⟩

end InsertQuery

/-- Where an UPDATE is written, so is the statement that reads its row back: it has the same
conditions, and demands nothing else. -/
theorem UpdateQuery.renderReadBack_ok {q : UpdateQuery} {r : Rendered} (h : q.render = .ok r) :
    ∃ read, q.renderReadBack = .ok read := by
  obtain ⟨c, hc, h⟩ := bind_ok h
  obtain ⟨-, -, h⟩ := bind_ok h
  obtain ⟨hmet, -⟩ := Renderer.render_eq_ok.1 h
  rw [renderReadBack, hc]
  refine ⟨_, Renderer.render_eq_ok.2 ⟨?_, rfl⟩⟩
  rw [Statement.demands, UpdateStatement.demands, Renderer.refusal?_append,
    Renderer.refusal?_append] at hmet
  simp only [Option.or_eq_none_iff] at hmet
  have hdemands : (q.readBack c).demands = Cond.demandsAll c.conditions := by
    simp [SelectStatement.demands, readBack, Schema.allItems, SelectItem.ofColumn, Expr.demands,
      Cond.demandsAll, OrderItem.demandsAll]
  rw [Statement.demands, hdemands]
  exact hmet.1.2

theorem Method.readBack_ok {t : Table} {m : Method α ρ} {r : Rendered}
    {read : Except QueryError Rendered} (h : m.render t = .ok r) (hread : m.readBack t = some read) :
    ∃ o, read = .ok o := by
  cases m with
  | insert calls =>
    rw [readBack] at hread
    split at hread
    · cases hread
    · cases hread
      exact InsertQuery.renderReadBack_ok h
  | update calls =>
    rw [readBack] at hread
    split at hread
    · cases hread
    · cases hread
      exact UpdateQuery.renderReadBack_ok h
  | _ => cases hread

theorem Method.plan_numbered {t : Table} {m : Method α ρ} {ps : Params β} {plan : List (Planned β)}
    (h : m.plan t ps = .ok plan) : ∀ p ∈ plan, p.statement.Numbered := by
  obtain ⟨r, hr, h⟩ := bind_ok h
  have hfirst := render_numbered hr
  cases hback : m.readBack t with
  | none =>
    rw [hback] at h
    cases h
    exact List.forall_mem_singleton.2 hfirst
  | some read =>
    rw [hback] at h
    obtain ⟨o, rfl, h⟩ := bind_ok h
    cases h
    exact List.forall_mem_cons.2 ⟨hfirst, List.forall_mem_singleton.2 (readBack_numbered hback)⟩

theorem BatchMethod.plan_numbered {t : Table} {m : BatchMethod} {sets : List (Params β)}
    {plan : List (Planned β)} (h : m.plan t sets = .ok plan) :
    ∀ p ∈ plan, p.statement.Numbered := by
  obtain ⟨-, -, h⟩ := bind_ok h
  split at h
  · cases h
    exact List.forall_mem_nil _
  · obtain ⟨r, hr, h⟩ := bind_ok h
    cases h
    have hnumbered := render_numbered hr
    cases m with
    | insert calls => exact List.forall_mem_singleton.2 hnumbered
    | update calls | delete calls => exact List.forall_mem_map.2 fun _ _ => hnumbered

theorem Execution.plan_numbered {t : Table} {x : Execution α β ρ} {plan : List (Planned β)}
    (h : x.plan t = .ok plan) : ∀ p ∈ plan, p.statement.Numbered := by
  cases x with
  | once m ps => exact Method.plan_numbered h
  | batch m sets => exact BatchMethod.plan_numbered h

/-! ## Errors of writing -/

/-- Every error that a value or error can be is of a kind. -/
def Fails (kind : QueryError → Bool) (x : Except QueryError σ) : Prop :=
  ∀ e, x = .error e → kind e = true

theorem Fails.ok {kind : QueryError → Bool} (a : σ) : Fails kind (.ok a) := by
  rintro e ⟨⟩

theorem Fails.error {kind : QueryError → Bool} {e : QueryError} (h : kind e = true) :
    Fails kind (.error e : Except QueryError σ) := by
  rintro e' ⟨⟩
  exact h

theorem Fails.mono {kind kind' : QueryError → Bool} (h : ∀ e, kind e = true → kind' e = true)
    {x : Except QueryError σ} (hx : Fails kind x) : Fails kind' x :=
  fun e he => h e (hx e he)

theorem Fails.bind {kind : QueryError → Bool} {x : Except QueryError σ}
    {f : σ → Except QueryError ρ} (hx : Fails kind x) (hf : ∀ a, Fails kind (f a)) :
    Fails kind (x >>= f) := by
  intro e h
  rcases bind_error h with h | ⟨a, -, h⟩
  · exact hx e h
  · exact hf a e h

/-- An error of building or of writing a statement, which needs no values. -/
def QueryError.isWriting : QueryError → Bool
  | .build _ | .missingWhere _ | .render _ => true
  | _ => false

open QueryError (isWriting)

theorem liftBuild_writing (x : Except BuildError σ) : Fails isWriting (liftBuild x) := by
  cases x with
  | error e => exact .error rfl
  | ok a => exact .ok a

theorem Renderer.render_writing (r : Renderer) (st : Statement) :
    Fails isWriting (r.render st) := by
  unfold render
  split
  · rename_i d _
    cases d <;> exact .error rfl
  · exact .ok _

theorem UpdateQuery.assigned_writing (q : UpdateQuery) : Fails isWriting q.assigned := by
  refine .bind (liftBuild_writing _) fun c => ?_
  split
  · exact .error rfl
  · exact .ok c

theorem UpdateQuery.Clauses.requireWhere_writing (c : UpdateQuery.Clauses) :
    Fails isWriting c.requireWhere := by
  unfold requireWhere
  split
  · exact .error rfl
  · exact .ok ()

theorem DeleteQuery.render_writing (q : DeleteQuery) : Fails isWriting q.render := by
  refine .bind (liftBuild_writing _) fun conditions => ?_
  split
  · exact .error rfl
  · exact Renderer.render_writing _ _

theorem Method.render_writing (t : Table) (m : Method α ρ) : Fails isWriting (m.render t) := by
  cases m with
  | fetchOne calls | fetchOneRow calls | fetchAll calls | fetchRows calls =>
    exact .bind (liftBuild_writing _) fun _ => Renderer.render_writing _ _
  | compoundAll first calls | compoundRows first calls =>
    exact .bind (liftBuild_writing _) fun _ => Renderer.render_writing _ _
  | aggregate get fn column calls =>
    exact .bind (liftBuild_writing _) fun _ => Renderer.render_writing _ _
  | insert calls => exact .bind (liftBuild_writing _) fun _ => Renderer.render_writing _ _
  | update calls =>
    exact .bind (UpdateQuery.assigned_writing _) fun c =>
      .bind c.requireWhere_writing fun _ => Renderer.render_writing _ _
  | delete calls => exact DeleteQuery.render_writing _

theorem BatchMethod.preflight_writing (t : Table) (m : BatchMethod) :
    Fails isWriting (m.preflight t) := by
  cases m with
  | insert calls => exact .bind (liftBuild_writing _) fun _ => .ok ()
  | update calls => exact .bind (UpdateQuery.assigned_writing _) fun _ => .ok ()
  | delete calls => exact .bind (liftBuild_writing _) fun _ => .ok ()

theorem BatchMethod.render_writing (t : Table) (count : Nat) (m : BatchMethod) :
    Fails isWriting (m.render t count) := by
  cases m with
  | insert calls => exact .bind (liftBuild_writing _) fun _ => Renderer.render_writing _ _
  | update calls =>
    exact .bind (UpdateQuery.assigned_writing _) fun c =>
      .bind c.requireWhere_writing fun _ => Renderer.render_writing _ _
  | delete calls => exact DeleteQuery.render_writing _

end CheckedSql
