/-
Bounds of joined queries that are parameters. A bound keeps its name as it is given, while the
names of an operand are told apart by the operand's position: so a bound shares its placeholder
with an operand only where it is given such a name, and then it does.
-/
import CheckedSql.Proofs.Query.Clauses
import CheckedSql.Proofs.Statement.Operands

namespace CheckedSql

namespace CompoundQuery

open ParamName (inOperand)

/-! ## What the calls make -/

/-- The operand that a call joins, and its set operation. -/
def Call.joined? : Call → Option (SetOp × SelectQuery)
  | .combine op operand => some (op, operand)
  | _ => none

/-- The limit that a call sets. -/
def Call.limit? : Call → Option Bound
  | .limit n => some (.literal n)
  | .limitParam name => some (.param ⟨name⟩)
  | _ => none

/-- The offset that a call sets. -/
def Call.offset? : Call → Option Bound
  | .offset n => some (.literal n)
  | .offsetParam name => some (.param ⟨name⟩)
  | _ => none

/-- The operands behind the first, each with its set operation. -/
def joined (calls : List Call) : List (SetOp × SelectQuery) :=
  calls.filterMap Call.joined?

/-- The limit of the whole: the last that is set. -/
def limitOf (calls : List Call) : Option Bound :=
  (calls.filterMap Call.limit?).getLast?

/-- The offset of the whole: the last that is set. -/
def offsetOf (calls : List Call) : Option Bound :=
  (calls.filterMap Call.offset?).getLast?

theorem joined_concat (calls : List Call) (call : Call) :
    joined (calls ++ [call]) = joined calls ++ call.joined?.toList := by
  rw [joined, List.filterMap_append]
  cases h : call.joined? <;> simp [joined, h]

theorem limitOf_concat (calls : List Call) (call : Call) :
    limitOf (calls ++ [call]) = call.limit?.or (limitOf calls) := by
  rw [limitOf, List.filterMap_append, List.getLast?_append]
  cases h : call.limit? <;> simp [limitOf, h]

theorem offsetOf_concat (calls : List Call) (call : Call) :
    offsetOf (calls ++ [call]) = call.offset?.or (offsetOf calls) := by
  rw [offsetOf, List.filterMap_append, List.getLast?_append]
  cases h : call.offset? <;> simp [offsetOf, h]

/-- Clauses that are made by calls none of which fails. -/
structure Clauses.MadeBy (calls : List Call) (c : Clauses) : Prop where
  ops : c.rest.map (·.1) = (joined calls).map (·.1)
  operands : List.Forall₂ (fun q st => q.statement = .ok st) ((joined calls).map (·.2))
    (c.rest.map (·.2))
  limit : c.limit = limitOf calls
  offset : c.offset = offsetOf calls

/-- A call that joins no operand sets at most the bounds. -/
theorem Clauses.MadeBy.unjoined {calls : List Call} {c next : Clauses} (hc : c.MadeBy calls)
    {call : Call} (hcall : call.joined? = none) (hrest : next.rest = c.rest)
    (hlimit : next.limit = call.limit?.or c.limit)
    (hoffset : next.offset = call.offset?.or c.offset) : next.MadeBy (calls ++ [call]) := by
  have hjoined : joined (calls ++ [call]) = joined calls := by
    rw [joined_concat, hcall, Option.toList_none, List.append_nil]
  constructor
  · rw [hrest, hjoined]
    exact hc.ops
  · rw [hrest, hjoined]
    exact hc.operands
  · rw [hlimit, limitOf_concat, hc.limit]
  · rw [hoffset, offsetOf_concat, hc.offset]

theorem resolveParam_ok {s : Schema} {name : String} {p : Param}
    (h : s.resolveParam name = .ok p) : p = ⟨name⟩ := by
  unfold Schema.resolveParam at h
  split at h <;> cases h
  rfl

theorem Clauses.MadeBy.apply {s : Schema} {calls : List Call} {c next : Clauses} {call : Call}
    (hc : c.MadeBy calls) (h : c.apply s call = .ok next) : next.MadeBy (calls ++ [call]) := by
  cases call with
  | combine op operand =>
    obtain ⟨st, hst, h⟩ := bind_ok h
    cases h
    have hjoined : joined (calls ++ [.combine op operand]) = joined calls ++ [(op, operand)] :=
      joined_concat calls _
    constructor
    · rw [hjoined, List.map_append, List.map_append, hc.ops]
      rfl
    · rw [hjoined, List.map_append, List.map_append]
      exact List.rel_append hc.operands (.cons hst .nil)
    · rw [limitOf_concat]
      exact hc.limit
    · rw [offsetOf_concat]
      exact hc.offset
  -- an ordering and a bound join no operand: only what they set themselves changes
  | orderBy column direction | orderByNulls column direction nulls =>
    obtain ⟨item, -, h⟩ := bind_ok h
    cases h
    exact hc.unjoined rfl rfl rfl rfl
  | limit n | offset n =>
    cases h
    exact hc.unjoined rfl rfl rfl rfl
  | limitParam name | offsetParam name =>
    obtain ⟨p, hp, h⟩ := bind_ok h
    cases h
    cases resolveParam_ok hp
    exact hc.unjoined rfl rfl rfl rfl

/-- A chain of calls is a chain on the clauses alone. -/
theorem ofCalls_eq (first : SelectQuery) (calls : List Call) :
    ofCalls first calls =
      { table := first.table
        first := first.statement
        chain := calls.foldl (fun ch c => ch.call fun g => g.apply first.table.schema c)
          { clauses := {} } } := by
  exact List.foldl_hom
    (fun ch => CompoundQuery.mk first.table first.statement ch) fun _ _ => rfl

theorem table_ofCalls (first : SelectQuery) (calls : List Call) :
    (ofCalls first calls).table = first.table := by
  rw [ofCalls_eq]

/-- The statement of a chain of calls: the statements of its operands, and the bounds last set. -/
theorem statement_ofCalls {first : SelectQuery} {calls : List Call} {st : CompoundStatement}
    (h : (ofCalls first calls).statement = .ok st) :
    List.Forall₂ (fun q s => q.statement = .ok s) (first :: (joined calls).map (·.2)) st.operands ∧
      st.rest.map (·.1) = (joined calls).map (·.1) ∧
      st.limit = limitOf calls ∧ st.offset = offsetOf calls := by
  rw [ofCalls_eq] at h
  obtain ⟨head, hhead, h⟩ := bind_ok h
  obtain ⟨c, hc, h⟩ := bind_ok h
  have hmade : c.MadeBy ([] ++ calls) :=
    Chain.result_foldl (fun _ _ _ _ hdone hstep => hdone.apply hstep) calls
      (fun _ => ⟨rfl, .nil, rfl, rfl⟩) hc
  rw [List.nil_append] at hmade
  split at h
  · cases h
  · cases h
    exact ⟨.cons hhead hmade.operands, hmade.ops, hmade.limit, hmade.offset⟩

/-! ## What the bounds share -/

/-- What is sent for joined queries, with the bounds at its end: a bound that is a parameter has the
placeholder of a parameter of an operand if and only if it is given the very name that the whole has
for that parameter. -/
theorem bound_shared_iff {first : SelectQuery} {calls : List Call} {o : Rendered}
    (h : (ofCalls first calls).render = .ok o) :
    let spell := placeholder ∘ Draft.rank o.params
    ∃ ss os,
      List.Forall₂ (fun q s => q.statement = .ok s) (first :: (joined calls).map (·.2)) ss ∧
      o.sql = chainText ((joined calls).map (·.1)) (ss.mapIdx (operandText spell))
        ++ (orderByText spell os ++ boundText spell "LIMIT" (limitOf calls)
          ++ boundText spell "OFFSET" (offsetOf calls)) ∧
      ∀ p ∈ Bound.uses (limitOf calls) ++ Bound.uses (offsetOf calls),
        ∀ i (hi : i < ss.length),
          Draft.rank o.params p ∈ Sql.placeholdersOf (operandText spell i ss[i]) ↔
            ∃ n ∈ ss[i].uses, p = inOperand i n := by
  intro spell
  obtain ⟨st, hst, h⟩ := bind_ok h
  obtain ⟨hoperands, hops, hlimit, hoffset⟩ := statement_ofCalls (liftBuild_ok hst)
  obtain ⟨ho, -⟩ := Renderer.render_ok h
  subst ho
  refine ⟨st.operands, st.orderBy, hoperands, ?_, fun p hp i hi => ?_⟩
  · rw [← hops, ← hlimit, ← hoffset]
    exact st.sql_operands
  -- a trailing name is one of the statement's, whose names their numbers tell apart
  · rw [← hlimit, ← hoffset] at hp
    have huses : p ∈ st.uses := by
      rw [CompoundStatement.uses, List.append_assoc]
      exact List.mem_append_right _ hp
    exact st.rank_mem_operandText huses hi

/-- Users of an id. -/
def usersById : SelectQuery :=
  let schema : Schema :=
    ⟨"users", [⟨"id", true, false⟩, ⟨"email", false, false⟩, ⟨"age", false, true⟩], by decide,
      by decide, by decide, by decide⟩
  .ofCalls { schema, renderer := .ofDialect .postgres } [.whereCond (.compare "id" "=" "id")]

/-- A limit that is named apart from the operands has a placeholder of its own. -/
theorem bound_shared_iff_page :
    let o : Rendered :=
      ⟨"(SELECT \"id\", \"email\", \"age\" FROM \"users\" WHERE \"id\" = $1) UNION "
        ++ "(SELECT \"id\", \"email\", \"age\" FROM \"users\" WHERE \"id\" = $2) LIMIT $3",
        ["q0_id", "q1_id", "page"]⟩
    (ofCalls usersById [.combine .union usersById, .limitParam "page"]).render = .ok o ∧
      ∀ s, usersById.statement = .ok s →
        Draft.rank o.params "page" ∉
          Sql.placeholdersOf (operandText (placeholder ∘ Draft.rank o.params) 0 s) := by
  intro o
  have hok :
      (ofCalls usersById [.combine .union usersById, .limitParam "page"]).render = .ok o := by
    decide +kernel
  refine ⟨hok, fun s hs hmem => ?_⟩
  obtain ⟨ss, os, hss, -, hshared⟩ := bound_shared_iff hok
  rcases hss with _ | ⟨hfirst, hrest⟩
  rw [hs] at hfirst
  cases hfirst
  obtain ⟨n, -, hn⟩ := (hshared "page" List.mem_cons_self 0 (Nat.zero_lt_succ _)).1 hmem
  -- no name begins both like a page and like an operand's parameter
  have hhead := congrArg (fun name => name.toList.head?) hn
  simp [inOperand, ParamName.operandQualifier] at hhead

/-- A limit that is given the name of an operand's parameter is this parameter. -/
theorem bound_shared_q0_id :
    let o : Rendered :=
      ⟨"(SELECT \"id\", \"email\", \"age\" FROM \"users\" WHERE \"id\" = $1) UNION "
        ++ "(SELECT \"id\", \"email\", \"age\" FROM \"users\" WHERE \"id\" = $2) LIMIT $1",
        ["q0_id", "q1_id"]⟩
    (ofCalls usersById [.combine .union usersById, .limitParam "q0_id"]).render = .ok o ∧
      ∃ s, usersById.statement = .ok s ∧
        Draft.rank o.params "q0_id" ∈
          Sql.placeholdersOf (operandText (placeholder ∘ Draft.rank o.params) 0 s) := by
  refine ⟨by decide +kernel, _, rfl, ?_⟩
  rw [placeholdersOf_operandText]
  decide +kernel

end CompoundQuery

end CheckedSql
