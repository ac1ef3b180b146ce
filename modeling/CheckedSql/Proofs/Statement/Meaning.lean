/-
The text of a WHERE or HAVING clause means its conditions. Conditions of a list are joined by a
bare AND and only groups stand in parentheses, while BETWEEN has an AND of its own and the
comparison that takes NULL for equal is an OR around an AND. Read with the precedence of SQL, the
text is nevertheless a formula over the predicates of the conditions that comes to what they come
to, in the logic of three truth values.
-/
import CheckedSql.Proofs.Sql.Formula
import CheckedSql.Proofs.Statement.Acceptance
import CheckedSql.Proofs.Statement.ReadStatement
import Mathlib.Data.List.Forall2

namespace CheckedSql

open Sql (Token Keyword Balanced Formula Reads Avoids keywords)

/-! ## What conditions mean -/

mutual

/-- The predicates of a condition, as they are written. The comparison that takes NULL for equal is
made of three. -/
def Cond.predicates : Cond → List Tokens
  | .nullSafeEq column param =>
    [[column.token, .symbol .eq, param.token], column.token :: keywords [.IS, .NULL],
      param.token :: keywords [.IS, .NULL]]
  | .group _ members => Cond.predicatesEach members
  | c => [c.tokens]

/-- The predicates of conditions that follow one another. -/
def Cond.predicatesEach : List Cond → List Tokens
  | [] => []
  | c :: cs => c.predicates ++ Cond.predicatesEach cs

end

mutual

/-- The value of a condition whose first predicate is number `i`, under an assignment of values to
the predicates: a group is the AND or the OR of its members. -/
def Cond.truth (v : Nat → Truth) (i : Nat) : Cond → Truth
  | .nullSafeEq _ _ => (v i).or ((v (i + 1)).and (v (i + 2)))
  | .group junction members => junction.join (Cond.truths v i members)
  | _ => v i

/-- The values of conditions that follow one another. -/
def Cond.truths (v : Nat → Truth) (i : Nat) : List Cond → List Truth
  | [] => []
  | c :: cs => c.truth v i :: Cond.truths v (i + c.predicates.length) cs

end

/-! ## The formula of a condition -/

/-- Formulas joined from the left, if there are any. -/
def Sql.Formula.ofMembers {π : Type} (j : Junction) : List (Formula π) → Formula π
  | [] => .predicate []
  | f :: fs => .joined j f fs

section

variable {π : Type} (f : String → π)

mutual

/-- The formula that a condition is read as. -/
def Cond.formula : Cond → Formula π
  | .nullSafeEq column param =>
    let spell (ts : Tokens) : Formula π := .predicate (ts.map (Token.map f))
    .combine .or (spell [column.token, .symbol .eq, param.token])
      (.combine .and (spell (column.token :: keywords [.IS, .NULL]))
        (spell (param.token :: keywords [.IS, .NULL])))
  | .group junction members => .ofMembers junction (Cond.formulas members)
  | c => .predicate (c.tokens.map (Token.map f))

/-- The formulas of conditions that follow one another. -/
def Cond.formulas : List Cond → List (Formula π)
  | [] => []
  | c :: cs => c.formula :: Cond.formulas cs

end

theorem Cond.formulas_eq_map (cs : List Cond) : Cond.formulas f cs = cs.map (Cond.formula f) := by
  induction cs with
  | nil => rfl
  | cons c cs ih => rw [Cond.formulas, ih, List.map_cons]

variable {r : Renderer}

/-- A group that is accepted has a member. -/
theorem Cond.members_of_meetsAll {j : Junction} {members : List Cond}
    (h : r.MeetsAll (Cond.group j members).demands) :
    ∃ c cs, members = c :: cs ∧ r.MeetsAll (Cond.demandsAll (c :: cs)) := by
  rw [Cond.demands, Renderer.meetsAll_flaw_if] at h
  obtain ⟨hne, h⟩ := h
  cases members with
  | nil => exact absurd rfl hne
  | cons c cs => exact ⟨c, cs, rfl, h⟩

theorem Cond.meetsAll_cons {c : Cond} {cs : List Cond} :
    r.MeetsAll (Cond.demandsAll (c :: cs)) ↔
      r.MeetsAll c.demands ∧ r.MeetsAll (Cond.demandsAll cs) := by
  rw [Cond.demandsAll, Renderer.meetsAll_append]

mutual

theorem Cond.predicates_formula : ∀ c : Cond, r.MeetsAll c.demands →
    (c.formula f).predicates = c.predicates.map (List.map (Token.map f))
  | .nullSafeEq _ _, _ => rfl
  | .group j members, h => by
    obtain ⟨c, cs, rfl, h⟩ := Cond.members_of_meetsAll h
    rw [Cond.formula, Cond.formulas, Formula.ofMembers, Formula.predicates_joined, Cond.predicates]
    exact Cond.predicates_formulas (c :: cs) h
  | .compare _ _ _, _ | .compareColumns _ _ _, _ | .null _ _, _ | .between _ _ _ _, _
  | .aggregate _ _ _ _, _ => rfl

theorem Cond.predicates_formulas : ∀ cs : List Cond, r.MeetsAll (Cond.demandsAll cs) →
    (Cond.formulas f cs).flatMap Formula.predicates =
      (Cond.predicatesEach cs).map (List.map (Token.map f))
  | [], _ => rfl
  | c :: cs, h => by
    obtain ⟨hc, hcs⟩ := Cond.meetsAll_cons.1 h
    rw [Cond.formulas, List.flatMap_cons, Cond.predicates_formula c hc,
      Cond.predicates_formulas cs hcs, Cond.predicatesEach, List.map_append]

end

mutual

/-- The formula of a condition comes to what the condition comes to. -/
theorem Cond.truth_formula (v : Nat → Truth) : ∀ (c : Cond) (i : Nat), r.MeetsAll c.demands →
    (c.formula f).truth v i = c.truth v i
  | .nullSafeEq _ _, _, _ => rfl
  | .group j members, i, h => by
    obtain ⟨c, cs, rfl, h⟩ := Cond.members_of_meetsAll h
    rw [Cond.formula, Cond.formulas, Formula.ofMembers, Formula.truth_joined, Cond.truth]
    exact congrArg j.join (Cond.truths_formulas v (c :: cs) i h)
  | .compare _ _ _, _, _ | .compareColumns _ _ _, _, _ | .null _ _, _, _
  | .between _ _ _ _, _, _ | .aggregate _ _ _ _, _, _ => rfl

theorem Cond.truths_formulas (v : Nat → Truth) : ∀ (cs : List Cond) (i : Nat),
    r.MeetsAll (Cond.demandsAll cs) →
      Formula.truths v i (Cond.formulas f cs) = Cond.truths v i cs
  | [], _, _ => rfl
  | c :: cs, i, h => by
    obtain ⟨hc, hcs⟩ := Cond.meetsAll_cons.1 h
    have hlength : (c.formula f).predicates.length = c.predicates.length := by
      rw [Cond.predicates_formula f c hc, List.length_map]
    rw [Cond.formulas, Formula.truths, hlength, Cond.truth_formula v c i hc,
      Cond.truths_formulas v cs _ hcs, Cond.truths]

end

end

/-! ## Reading the formula -/

namespace Sql.Formula

variable {π : Type} (f : String → π)

theorem takes_column (c : Column) : Takes readOperand [c.token.map f] :=
  fun _ _ => rfl

theorem takes_aggregate (fn : AggregateFn) (column : Option Column) :
    Takes readOperand
      ((aggregateTokens fn (column.map fun c => [c.token])).map (Token.map f)) := by
  have hcall : ∃ inner : Tokens, Balanced inner ∧
      aggregateTokens fn (column.map fun c => [c.token]) =
        .call fn.keyword :: inner ++ [.symbol .closeParen] := by
    refine ⟨_, ?_, rfl⟩
    cases column with
    | none => exact .single rfl rfl
    | some c =>
      dsimp only [Option.map_some]
      split
      · exact .cons rfl rfl (.single rfl rfl)
      · exact .single rfl rfl
  obtain ⟨inner, hinner, htokens⟩ := hcall
  rw [htokens, List.map_append]
  exact takes_call (hinner.map f)

theorem takes_comparison (op : Operator) (p : Param) :
    Takes readTest ((comparisonTokens op p).map (Token.map f)) := by
  intro rest _
  cases op <;> rfl

/-- Membership is no operator between columns. -/
theorem takes_operator {op : Operator} (h : op.isMembership = false) (c : Column) :
    Takes readTest ((op.tokens ++ [c.token]).map (Token.map f)) := by
  intro rest _
  cases op with
  | isIn | notIn => cases h
  | _ => rfl

theorem takes_null (negated : Bool) :
    Takes readTest
      ((keywords (if negated then [.IS, .NOT, .NULL] else [.IS, .NULL])).map (Token.map f)) := by
  intro rest _
  cases negated <;> rfl

theorem takes_between (low high : Param) (negated : Bool) :
    Takes readTest
      ((keywords (if negated then [.NOT, .BETWEEN] else [.BETWEEN])
        ++ [low.token, .keyword .AND, high.token]).map (Token.map f)) := by
  intro rest _
  cases negated <;> rfl

/-- Conditions with a word between each two, as they are written. -/
theorem map_members (j : Junction) (cs : List Cond) :
    ([Token.keyword j.keyword].intercalate (Cond.tokensEach cs)).map (Token.map f) =
      [Token.keyword j.keyword].intercalate (cs.map fun c => c.tokens.map (Token.map f)) := by
  rw [map_intercalate, Cond.tokensEach_eq_map, List.map_map]
  rfl

variable [DecidableEq π] {r : Renderer}

/-- The comparison that takes NULL for equal is an OR in parentheses, around an AND in
parentheses. -/
theorem reads_nullSafeEq (fuel : Nat) (column : Column) (param : Param) :
    Reads (readFactor (read (fuel + 2)))
      ((Cond.nullSafeEq column param).tokens.map (Token.map f))
      ((Cond.nullSafeEq column param).formula f) [] := by
  intro rest _
  rfl

theorem reads_members {fuel : Nat} (j : Junction) {c : Cond} {cs : List Cond}
    (h : ∀ x ∈ c :: cs,
      Reads (readFactor (read fuel)) (x.tokens.map (Token.map f)) (x.formula f) []) :
    Reads (read (fuel + 1))
      (([Token.keyword j.keyword].intercalate (Cond.tokensEach (c :: cs))).map (Token.map f))
      (ofMembers j (Cond.formulas f (c :: cs))) [.keyword .OR, .keyword .AND] := by
  rw [map_members, Cond.formulas_eq_map]
  exact read_joined h

/-- A part of a group is shorter than the group, which has parentheses. -/
theorem length_member {j : Junction} {members : List Cond} {fuel : Nat}
    (hfuel : (Cond.group j members).tokens.length ≤ fuel + 2) :
    ∀ c ∈ members, c.tokens.length ≤ fuel := by
  intro c hc
  have hle : c.tokens.length ≤
      ([.keyword j.keyword].intercalate (Cond.tokensEach members)).length := by
    rw [Cond.tokensEach_eq_map]
    exact length_le_intercalate (List.mem_map_of_mem hc)
  simp only [Cond.tokens, parenthesized, List.length_append, List.length_cons] at hfuel
  omega

mutual

/-- A condition is read as its formula, in the place of a predicate and whatever comes next. -/
theorem reads_cond : ∀ (c : Cond) (fuel : Nat), r.MeetsAll c.demands →
    c.tokens.length ≤ fuel + 1 →
      Reads (readFactor (read fuel)) (c.tokens.map (Token.map f)) (c.formula f) []
  | .compare column op param, _, _, _ =>
    readFactor_predicate (takes_predicate (takes_column f column) (takes_comparison f op param)) _
  | .compareColumns left op right, _, h, _ => by
    rw [Cond.demands, Renderer.meetsAll_flaw_if, Bool.not_eq_true] at h
    exact readFactor_predicate
      (takes_predicate (takes_column f left) (takes_operator f h.1 right)) _
  | .null column negated, _, _, _ =>
    readFactor_predicate (takes_predicate (takes_column f column) (takes_null f negated)) _
  -- a comparison in brackets of its own takes two levels of reading
  | .nullSafeEq column param, fuel, _, hfuel => by
    obtain _ | _ | fuel := fuel
    · simp [Cond.tokens, parenthesized] at hfuel
    · simp [Cond.tokens, parenthesized] at hfuel
    · exact reads_nullSafeEq f fuel column param
  | .between column low high negated, _, _, _ =>
    readFactor_predicate
      (takes_predicate (takes_column f column) (takes_between f low high negated)) _
  | .aggregate fn column op param, _, _, _ => by
    have hpredicate := takes_predicate (takes_aggregate f fn column) (takes_comparison f op param)
    rw [← List.map_append] at hpredicate
    exact readFactor_predicate hpredicate _
  | .group j members, fuel, h, hfuel => by
    -- an empty group is a flaw, so there is a first member
    obtain ⟨c, cs, rfl, h⟩ := Cond.members_of_meetsAll h
    cases fuel with
    | zero => simp [Cond.tokens, parenthesized] at hfuel
    | succ fuel =>
      have hmembers := reads_conds (c :: cs) fuel h fun x hx =>
        Nat.le_succ_of_le (length_member hfuel x hx)
      rw [Cond.tokens, map_parenthesized]
      exact readFactor_parenthesized (reads_members f j hmembers) (by simp)

theorem reads_conds : ∀ (cs : List Cond) (fuel : Nat), r.MeetsAll (Cond.demandsAll cs) →
    (∀ c ∈ cs, c.tokens.length ≤ fuel + 1) → ∀ c ∈ cs,
      Reads (readFactor (read fuel)) (c.tokens.map (Token.map f)) (c.formula f) []
  | [], _, _, _ => List.forall_mem_nil _
  | c :: cs, fuel, h, hfuel => by
    obtain ⟨hc, hcs⟩ := Cond.meetsAll_cons.1 h
    obtain ⟨hfuelc, hfuelcs⟩ := List.forall_mem_cons.1 hfuel
    exact List.forall_mem_cons.2 ⟨reads_cond c fuel hc hfuelc, reads_conds cs fuel hcs hfuelcs⟩

end

end Sql.Formula

/-! ## Clauses of conditions -/

/-- A clause of conditions: its word, and the conditions that must all hold. -/
abbrev TestClause := Keyword × List Cond

/-- The clauses of conditions of a SELECT. -/
def SelectStatement.testClauses (s : SelectStatement) : List TestClause :=
  [(.WHERE, s.conditions), (.HAVING, s.having)]

/-- The queries of a statement: how each names its parameters in the whole, and its clauses of
conditions. -/
def Statement.bodies : Statement → List ((String → String) × List TestClause)
  | .select s => [(id, s.testClauses)]
  | .insert _ => [(id, [])]
  | .update s => [(id, [(.WHERE, s.conditions)])]
  | .delete s => [(id, [(.WHERE, s.conditions)])]
  | .compound s => s.operands.mapIdx fun i q => (ParamName.inOperand i, q.testClauses)

/-- The queries of a text: the operands of its set operations, or all of it if it has none. -/
def Sql.bodies {π : Type} (ts : List (Token π)) : List (List (Token π)) :=
  match SetOp.readTree ts with
  | some (tree, _) => tree.first :: tree.rest.map (·.2)
  | none => [ts]

/-- A query whose text has, outside of parentheses and behind the word of a clause, the conditions
of the clause as a formula that means them: its predicates are those of the conditions, in order,
and whatever values these have, it comes to those of the conditions joined by AND. -/
def Expresses (f : String → Nat) (body : List (Token Nat)) (clause : TestClause) : Prop :=
  ∃ before text rest tree,
    body = before ++ .keyword clause.1 :: text ∧ Balanced before ∧
      text = (conjunctionTokens clause.2).map (Token.map f) ++ rest ∧
      Formula.ofTokens text = some (tree, rest) ∧
      tree.predicates = (Cond.predicatesEach clause.2).map (List.map (Token.map f)) ∧
      ∀ v, tree.truth v 0 = Junction.and.join (Cond.truths v 0 clause.2)

theorem Sql.Avoids.map_keywords {π ρ : Type} (f : π → ρ) {ks : List Keyword} {ts : List (Token π)}
    (h : Avoids (keywords ks) ts) : Avoids (keywords ks) (ts.map (Token.map f)) := by
  intro u hu hmem
  obtain ⟨t, ht, rfl⟩ := Option.map_eq_some_iff.1 (List.head?_map ▸ hu)
  obtain ⟨k, hk, hkeyword⟩ := List.mem_map.1 hmem
  cases t <;> cases hkeyword
  exact h _ ht (List.mem_map_of_mem hk)

/-- The tokens of a query that has a clause of conditions outside of parentheses, with nothing
behind it that would go on with them. -/
structure HasClause (ts : Tokens) (clause : TestClause) (before after : Tokens) : Prop where
  tokens : ts = before ++ .keyword clause.1 :: (conjunctionTokens clause.2 ++ after)
  balanced : Balanced before
  ends : Avoids (keywords [.OR, .AND]) after

/-- Conditions that must all hold are read as a group of them, written without its parentheses. -/
theorem Sql.Formula.ofTokens_conjunction {cs : List Cond} (hne : cs ≠ []) {r : Renderer}
    (hmeets : r.MeetsAll (Cond.demandsAll cs)) {after : Tokens}
    (hends : Avoids (keywords [.OR, .AND]) after) (f : String → Nat) :
    Formula.ofTokens ((conjunctionTokens cs ++ after).map (Token.map f)) =
      some ((Cond.group .and cs).formula f, after.map (Token.map f)) := by
  obtain ⟨c, cs, rfl⟩ := List.exists_cons_of_ne_nil hne
  have hfuel : ∀ x ∈ c :: cs,
      x.tokens.length ≤ ((conjunctionTokens (c :: cs) ++ after).map (Token.map f)).length + 1 := by
    intro x hx
    have hle : x.tokens.length ≤ (conjunctionTokens (c :: cs)).length := by
      rw [conjunctionTokens, Cond.tokensEach_eq_map]
      exact length_le_intercalate (List.mem_map_of_mem hx)
    rw [List.length_map, List.length_append]
    omega
  have hread := Formula.reads_members f .and
    (Formula.reads_conds f (c :: cs) _ hmeets hfuel) _ (hends.map_keywords f)
  rw [ofTokens]
  rw [List.map_append] at hread ⊢
  exact hread

theorem HasClause.expresses {ts before after : Tokens} {clause : TestClause}
    (h : HasClause ts clause before after) (hne : clause.2 ≠ []) {r : Renderer}
    (hmeets : r.MeetsAll (Cond.demandsAll clause.2)) (f : String → Nat) :
    Expresses f (ts.map (Token.map f)) clause := by
  obtain ⟨k, cs⟩ := clause
  have hgroup : r.MeetsAll (Cond.group .and cs).demands := by
    rwa [Cond.demands, List.isEmpty_eq_false_iff.2 hne, if_neg (by decide)]
  refine ⟨before.map (Token.map f), _, _, (Cond.group .and cs).formula f, ?_, h.balanced.map f,
    List.map_append, Formula.ofTokens_conjunction hne hmeets h.ends f, ?_, fun v => ?_⟩
  · rw [h.tokens, List.map_append, List.map_cons]
    rfl
  · exact Cond.predicates_formula f _ hgroup
  · exact Cond.truth_formula f v _ 0 hgroup

/-! ## Statements -/

theorem whereTokens_of_ne_nil {cs : List Cond} (h : cs ≠ []) :
    whereTokens cs = .keyword .WHERE :: conjunctionTokens cs := by
  rw [whereTokens, List.isEmpty_eq_false_iff.2 h, if_neg (by decide)]

theorem havingTokens_of_ne_nil {cs : List Cond} (h : cs ≠ []) :
    havingTokens cs = .keyword .HAVING :: conjunctionTokens cs := by
  rw [havingTokens, List.isEmpty_eq_false_iff.2 h, if_neg (by decide)]

theorem SelectStatement.hasClause (s : SelectStatement) {clause : TestClause}
    (h : clause ∈ s.testClauses) (hne : clause.2 ≠ []) :
    ∃ before after, HasClause s.tokens clause before after := by
  have htail : Avoids (keywords [.OR, .AND])
      (tailTokens s.orderBy s.limit s.offset ++ (lockTokens s.lock ++ [])) :=
    .append (tailTokens_avoids (by decide) _ _ _) (.append (lockTokens_avoids (by decide) _) .nil)
  rw [SelectStatement.testClauses, List.mem_cons, List.mem_singleton] at h
  rcases h with rfl | rfl
  · have hgroups : Avoids (keywords [.OR, .AND])
        (groupByTokens s.groupBy ++ havingTokens s.having) := by
      rw [groupByTokens_eq, havingTokens_eq]
      exact .append (.clauseTokens (by decide) _ _) (.clauseTokens (by decide) _ _)
    refine ⟨_, _, ?_, sourceTokens_balanced s.distinct s.items s.table, hgroups.append htail⟩
    rw [s.tokens_eq, whereTokens_of_ne_nil hne]
    simp
  · have hbefore := (sourceTokens_balanced s.distinct s.items s.table).append
      ((whereTokens_balanced s.conditions).append (groupByTokens_balanced s.groupBy))
    refine ⟨_, _, ?_, hbefore, htail⟩
    rw [s.tokens_eq, havingTokens_of_ne_nil hne]
    simp

theorem UpdateStatement.hasClause (s : UpdateStatement) (hne : s.conditions ≠ []) :
    ∃ before after, HasClause s.tokens (.WHERE, s.conditions) before after := by
  have hbefore : Balanced ([.keyword .UPDATE, .identifier s.table, .keyword .SET]
      ++ Sql.commaSeparated (s.assignments.map fun a => [a.1.token, .symbol .eq, a.2.token])) := by
    refine .append (.cons rfl rfl (.cons rfl rfl (.single rfl rfl))) (.commaSeparated_map ?_)
    exact fun _ _ => .cons rfl rfl (.cons rfl rfl (.single rfl rfl))
  refine ⟨_, _, ?_, hbefore, returningTokens_avoids (by decide) s.returning⟩
  rw [UpdateStatement.tokens, whereTokens_of_ne_nil hne]
  simp

theorem DeleteStatement.hasClause (s : DeleteStatement) (hne : s.conditions ≠ []) :
    ∃ before after, HasClause s.tokens (.WHERE, s.conditions) before after := by
  have hbefore : Balanced (keywords [.DELETE, .FROM] ++ [.identifier s.table] : Tokens) :=
    .append (.keywords _) (.single rfl rfl)
  refine ⟨_, [], ?_, hbefore, .nil⟩
  rw [DeleteStatement.tokens, whereTokens_of_ne_nil hne]
  simp

theorem SelectStatement.expresses (s : SelectStatement) {r : Renderer}
    (hmeets : r.MeetsAll s.demands) (f : String → Nat) :
    ∀ clause ∈ s.testClauses, clause.2 ≠ [] → Expresses f (s.tokens.map (Token.map f)) clause := by
  intro clause hclause hne
  obtain ⟨before, after, h⟩ := s.hasClause hclause hne
  refine h.expresses (r := r) hne ?_ f
  simp only [SelectStatement.demands, Renderer.meetsAll_append] at hmeets
  obtain ⟨⟨⟨⟨-, hconditions⟩, hhaving⟩, -⟩, -⟩ := hmeets
  rw [SelectStatement.testClauses, List.mem_cons, List.mem_singleton] at hclause
  rcases hclause with rfl | rfl
  · exact hconditions
  · exact hhaving

/-! ## Texts -/

theorem forall₂_mapIdx {α β γ : Type} {R : β → γ → Prop} {xs : List α} {f : Nat → α → β}
    {g : Nat → α → γ} (h : ∀ i, ∀ x ∈ xs, R (f i x) (g i x)) :
    List.Forall₂ R (xs.mapIdx f) (xs.mapIdx g) := by
  induction xs generalizing f g with
  | nil => exact .nil
  | cons x xs ih =>
    rw [List.mapIdx_cons, List.mapIdx_cons]
    exact .cons (h 0 x List.mem_cons_self) (ih fun i y hy => h (i + 1) y (.tail _ hy))

theorem chainOf_operands {π : Type} (f : String → π) (index : Nat)
    (rest : List (SetOp × SelectStatement)) :
    (chainOf f index rest).map (·.2) =
      (rest.map (·.2)).mapIdx fun i s => operandOf f (index + i) s := by
  induction rest generalizing index with
  | nil => rfl
  | cons x rest ih =>
    rw [chainOf_cons, List.map_cons, List.map_cons, List.mapIdx_cons, ih]
    simp only [Nat.add_zero, Nat.add_assoc, Nat.add_comm 1]

/-- The queries of the text of a compound statement are its operands. -/
theorem Rendered.bodies_compound (o : Rendered) (c : CompoundStatement) :
    Sql.bodies (o.numbered c.tokens) = c.operands.mapIdx o.operand := by
  obtain ⟨-, hfirst, hrest⟩ := SetTree.bound_iff.2 (rfl : SetTree.byPrecedence
    (o.operand 0 c.first) (o.chain 1 c.rest) = _)
  rw [Sql.bodies, o.readTree_compound]
  show _ :: _ = _
  rw [hfirst, hrest, CompoundStatement.operands, List.mapIdx_cons, chain, chainOf_operands]
  simp only [Nat.add_comm 1]
  rfl

theorem SelectStatement.expresses_operand (s : SelectStatement) {r : Renderer}
    (hmeets : r.MeetsAll s.demands) (o : Rendered) (i : Nat) :
    ∀ clause ∈ s.testClauses, clause.2 ≠ [] →
      Expresses (Draft.rank o.params ∘ ParamName.inOperand i) (o.operand i s) clause := by
  rw [Rendered.operand, operandOf, Sql.map_tokenMap]
  exact s.expresses hmeets _

/-- The text of a WHERE or HAVING clause means the conditions of the clause. The text is read as
its queries, one for a statement and one for each operand of joined queries; and each clause that
a query of the statement has is, in the text of that query, a formula that comes to the
conditions of the clause joined by AND, whatever values its predicates have. -/
theorem Renderer.conditions_of_render {r : Renderer} {st : Statement} {o : Rendered}
    (h : r.render st = .ok o) :
    ∃ ts, Sql.scan o.sql = some ts ∧
      List.Forall₂
        (fun body query => ∀ clause ∈ query.2, clause.2 ≠ [] →
          Expresses (Draft.rank o.params ∘ query.1) body clause)
        (Sql.bodies ts) st.bodies := by
  obtain ⟨ho, hmeets⟩ := Renderer.render_ok h
  refine ⟨o.numbered st.tokens, ?_, ?_⟩
  · have hsql : o.sql = Sql.textOf placeholder (o.numbered st.tokens) := by
      rw [ho]
      exact (Rendered.ofTokens_eq st.tokens).2
    rw [hsql, Sql.scan_textOf]
  -- one body for each query of the statement: the operands of a compound, else the statement
  · change r.MeetsAll st.demands at hmeets
    cases st with
    | select s => exact .cons (s.expresses hmeets _) .nil
    | insert s => exact .cons (List.forall_mem_nil _) .nil
    | update s =>
      refine .cons (List.forall_mem_singleton.2 fun hne => ?_) .nil
      obtain ⟨before, after, hclause⟩ := s.hasClause hne
      simp only [Statement.demands, UpdateStatement.demands, meetsAll_append] at hmeets
      exact hclause.expresses hne hmeets.1.2 _
    | delete s =>
      refine .cons (List.forall_mem_singleton.2 fun hne => ?_) .nil
      obtain ⟨before, after, hclause⟩ := s.hasClause hne
      exact hclause.expresses hne hmeets _
    | compound s =>
      simp only [Statement.demands, CompoundStatement.demands, meetsAll_append,
        meetsAll_flatMap] at hmeets
      show List.Forall₂ _ (Sql.bodies (o.numbered s.tokens)) _
      rw [o.bodies_compound]
      refine forall₂_mapIdx fun i q hq => ?_
      exact q.expresses_operand (q.meetsAll_operandDemands.1 (hmeets.1 q hq)).2 o i

/-- The AND of a BETWEEN next to the AND of the list, an OR in a group, and a comparison that takes
NULL for equal. With both addresses NULL, and nothing known of the age, the whole is unknown. -/
theorem Renderer.conditions_of_render_between :
    let age : Column := ⟨"age"⟩
    let cs : List Cond :=
      [.between age ⟨"low"⟩ ⟨"high"⟩ true, .group .or [.null age true, .compare age .isIn ⟨"ages"⟩],
        .nullSafeEq ⟨"email"⟩ ⟨"email"⟩]
    let o : Rendered :=
      ⟨"DELETE FROM \"users\" WHERE \"age\" NOT BETWEEN $1 AND $2 AND "
        ++ "(\"age\" IS NOT NULL OR \"age\" = ANY($3)) AND "
        ++ "(\"email\" = $4 OR (\"email\" IS NULL AND $4 IS NULL))",
        ["low", "high", "ages", "email"]⟩
    (Renderer.ofDialect .postgres).render (.delete { table := "users", conditions := cs }) = .ok o ∧
      ∃ ts, Sql.scan o.sql = some ts ∧ ∃ body, Sql.bodies ts = [body] ∧
        ∃ before text rest tree, body = before ++ .keyword .WHERE :: text ∧
          Formula.ofTokens text = some (tree, rest) ∧
          tree.truth (fun i => if i < 4 then .unknown else .yes) 0 = .unknown := by
  intro age cs o
  have hok : (Renderer.ofDialect .postgres).render
      (.delete { table := "users", conditions := cs }) = .ok o := by decide +kernel
  obtain ⟨ts, hscan, hbodies⟩ := Renderer.conditions_of_render hok
  obtain ⟨body, _, hbody, hnil, hts⟩ := List.forall₂_cons_right_iff.1 hbodies
  cases List.forall₂_nil_right_iff.1 hnil
  obtain ⟨before, text, rest, tree, htokens, -, -, hread, -, htruth⟩ :=
    hbody _ List.mem_cons_self (List.cons_ne_nil _ _)
  refine ⟨hok, ts, hscan, body, hts, before, text, rest, tree, htokens, hread, ?_⟩
  rw [htruth]
  decide

end CheckedSql
