/-
A compound statement is its operands, renumbered. Each operand is written as it would be on its
own, with its placeholders numbered on from those of the operands before it; its names are told
apart from all others by its position, so no two operands share a number.
-/
import CheckedSql.Proofs.Params
import CheckedSql.Proofs.Refusal
import CheckedSql.Proofs.Sql.Layout
import CheckedSql.Proofs.Sql.Renumber
import CheckedSql.Proofs.Statement.Parts
import CheckedSql.Proofs.Statement.Uses
import Mathlib.Algebra.Ring.Nat

namespace CheckedSql

open ParamName (inOperand inOperand_injective inOperand_inj)
open Sql (Token Keyword EndsLoose StartsWithWord keywords parenthesized spaced textOf)

/-! ## Texts put together -/

/-- The spelling of a set operation. -/
def SetOp.text : SetOp → String
  | .union => "UNION"
  | .unionAll => "UNION ALL"
  | .intersect => "INTERSECT"
  | .intersectAll => "INTERSECT ALL"
  | .except => "EXCEPT"
  | .exceptAll => "EXCEPT ALL"

/-- Operands in parentheses, each behind its set operation. -/
def restText : List SetOp → List String → String
  | op :: ops, t :: ts => " " ++ op.text ++ " (" ++ t ++ ")" ++ restText ops ts
  | _, _ => ""

/-- Operands in parentheses, with the set operations between them. -/
def chainText (ops : List SetOp) : List String → String
  | [] => ""
  | t :: ts => "(" ++ t ++ ")" ++ restText ops ts

/-- The ordering of a result as a clause; nothing without keys. -/
def orderByText (spell : String → String) (os : List OrderItem) : String :=
  spaced spell (orderByTokens os)

/-- A bound as a clause; nothing without one. -/
def boundText (spell : String → String) (word : String) : Option Bound → String
  | none => ""
  | some (.literal n) => " " ++ word ++ " " ++ toString n
  | some (.param p) => " " ++ word ++ " " ++ spell p.name

namespace CompoundStatement

/-- What follows the operands. -/
def tailText (c : CompoundStatement) (spell : String → String) : String :=
  orderByText spell c.orderBy ++ boundText spell "LIMIT" c.limit
    ++ boundText spell "OFFSET" c.offset

/-- The parameters of what follows the operands. -/
def trailingUses (c : CompoundStatement) : List String :=
  OrderItem.usesAll c.orderBy ++ Bound.uses c.limit ++ Bound.uses c.offset

/-- The ordering of the whole, as that of a single table. -/
def ordering (c : CompoundStatement) : SelectStatement :=
  { table := c.first.table, orderBy := c.orderBy }

end CompoundStatement

section

variable (spell : String → String)

/-- An operand as it is written at a position. -/
def operandText (index : Nat) (s : SelectStatement) : String :=
  textOf (spell ∘ inOperand index) s.tokens

theorem textOf_operandTokens (index : Nat) (s : SelectStatement) :
    textOf spell (operandTokens index s) = "(" ++ operandText spell index s ++ ")" := by
  rw [operandTokens, Sql.textOf_parenthesized, Sql.textOf_map]
  rfl

theorem endsLoose_operandTokens (index : Nat) (s : SelectStatement) :
    EndsLoose (operandTokens index s) :=
  Sql.endsLoose_parenthesized _

/-- An operand behind its set operation. -/
theorem spaced_operand (op : SetOp) (index : Nat) (s : SelectStatement) :
    spaced spell (keywords op.keywords ++ operandTokens index s) =
      " " ++ op.text ++ " (" ++ operandText spell index s ++ ")" := by
  have hgap : Sql.gapBetween (keywords op.keywords) (operandTokens index s) = " " := by
    cases op <;> rfl
  have hop : textOf spell (keywords op.keywords) = op.text := by cases op <;> rfl
  have hne : (keywords op.keywords ++ operandTokens index s).isEmpty = false := by
    cases op <;> rfl
  have hopen : " (" = " " ++ "(" := rfl
  rw [spaced, hne, Sql.textOf_append, hgap, hop, textOf_operandTokens, hopen]
  simp only [Bool.false_eq_true, if_false, String.append_assoc]

theorem startsWithWord_restTokens (index : Nat) (rest : List (SetOp × SelectStatement)) :
    StartsWithWord (restTokens index rest) := by
  rcases rest with _ | ⟨⟨op, s⟩, rest⟩
  · rintro t ⟨⟩
  · cases op <;> exact Sql.startsWithWord_cons _ _

theorem endsLoose_restTokens (index : Nat) (rest : List (SetOp × SelectStatement)) :
    EndsLoose (restTokens index rest) := by
  induction rest generalizing index with
  | nil => rintro t ⟨⟩
  | cons x rest ih =>
    obtain ⟨op, s⟩ := x
    exact ((Sql.endsLoose_keywords _).append (endsLoose_operandTokens index s)).append (ih _)

theorem spaced_restTokens (index : Nat) (rest : List (SetOp × SelectStatement)) :
    spaced spell (restTokens index rest) =
      restText (rest.map (·.1))
        ((rest.map (·.2)).mapIdx fun i s => operandText spell (index + i) s) := by
  induction rest generalizing index with
  | nil => rfl
  | cons x rest ih =>
    obtain ⟨op, s⟩ := x
    have hloose : EndsLoose (keywords op.keywords ++ operandTokens index s) :=
      (Sql.endsLoose_keywords _).append (endsLoose_operandTokens index s)
    rw [restTokens, Sql.spaced_append spell hloose (startsWithWord_restTokens _ _),
      spaced_operand, ih]
    simp only [List.map_cons, List.mapIdx_cons, restText, Nat.add_zero, Nat.add_assoc,
      Nat.add_comm 1]

/-! ## The ordering and the bounds -/

theorem OrderItem.endsLoose_tokens (o : OrderItem) : EndsLoose o.tokens := by
  obtain ⟨expr, direction, nulls⟩ := o
  cases nulls with
  | none => exact (Sql.endsLoose_keywords [direction.keyword]).behind (List.cons_ne_nil _ _) _
  | some n =>
    exact (Sql.endsLoose_keywords [direction.keyword, .NULLS, n.keyword]).behind
      (List.cons_ne_nil _ _) _

theorem endsLoose_orderByTokens (os : List OrderItem) : EndsLoose (orderByTokens os) := by
  unfold orderByTokens
  split
  · rintro t ⟨⟩
  · refine (Sql.endsLoose_keywords _).append (Sql.endsLoose_commaSeparated fun ts hts => ?_)
    rw [OrderItem.tokensEach_eq_map, List.mem_map] at hts
    obtain ⟨o, -, rfl⟩ := hts
    exact o.endsLoose_tokens

theorem startsWithWord_orderByTokens (os : List OrderItem) : StartsWithWord (orderByTokens os) := by
  cases os with
  | nil => rintro t ⟨⟩
  | cons o os => exact Sql.startsWithWord_cons _ _

theorem endsLoose_boundTokens (k : Keyword) (b : Option Bound) : EndsLoose (boundTokens k b) := by
  rcases b with _ | n | p <;> rintro t ⟨⟩ <;> rfl

theorem startsWithWord_boundTokens (k : Keyword) (b : Option Bound) :
    StartsWithWord (boundTokens k b) := by
  rcases b with _ | b
  · rintro t ⟨⟩
  · exact Sql.startsWithWord_cons _ _

theorem spaced_boundTokens (k : Keyword) (b : Option Bound) :
    spaced spell (boundTokens k b) = boundText spell k.text b := by
  rcases b with _ | n | p <;> simp [boundTokens, boundText, spaced, textOf, Bound.token,
    Param.token, Token.gapBefore, Token.gap, Token.tightAfter, Token.tightBefore, Token.text,
    String.append_assoc]

theorem startsWithWord_tailTokens (c : CompoundStatement) :
    StartsWithWord (tailTokens c.orderBy c.limit c.offset) :=
  ((startsWithWord_orderByTokens _).append (startsWithWord_boundTokens _ _)).append
    (startsWithWord_boundTokens _ _)

theorem spaced_tailTokens (c : CompoundStatement) :
    spaced spell (tailTokens c.orderBy c.limit c.offset) = c.tailText spell := by
  have hlimit : EndsLoose (orderByTokens c.orderBy ++ boundTokens .LIMIT c.limit) :=
    (endsLoose_orderByTokens _).append (endsLoose_boundTokens _ _)
  rw [tailTokens, Sql.spaced_append spell hlimit (startsWithWord_boundTokens _ _),
    Sql.spaced_append spell (endsLoose_orderByTokens _) (startsWithWord_boundTokens _ _),
    spaced_boundTokens, spaced_boundTokens]
  rfl

/-- The text of a compound statement is that of its operands and of what follows them. -/
theorem CompoundStatement.textOf_tokens (c : CompoundStatement) :
    textOf spell c.tokens =
      chainText (c.rest.map (·.1)) (c.operands.mapIdx (operandText spell)) ++ c.tailText spell := by
  have hne : operandTokens 0 c.first ≠ [] := List.cons_ne_nil _ _
  have hloose : EndsLoose (operandTokens 0 c.first ++ restTokens 1 c.rest) :=
    (endsLoose_operandTokens 0 c.first).append (endsLoose_restTokens 1 c.rest)
  rw [tokens,
    Sql.textOf_append_spaced spell (List.append_ne_nil_of_left_ne_nil hne _) hloose
      (startsWithWord_tailTokens c),
    Sql.textOf_append_spaced spell hne (endsLoose_operandTokens 0 c.first)
      (startsWithWord_restTokens _ _),
    textOf_operandTokens, spaced_restTokens, spaced_tailTokens, operands, List.mapIdx_cons,
    chainText]
  simp only [Nat.add_comm 1]

end

/-! ## Names -/

/-- The names of the operands of a whole, from those that each has on its own. -/
def operandNames (rs : List Rendered) : List String :=
  (rs.mapIdx fun i o => o.params.map (inOperand i)).flatten

/-- How many names come before those of an operand. -/
def numbersBefore (rs : List Rendered) (index : Nat) : Nat :=
  ((rs.take index).map (·.params.length)).sum

/-- The texts of operands, each with its placeholders numbered on from those before it. -/
def operandTexts (rs : List Rendered) : List String :=
  rs.mapIdx fun i o => Sql.renumber (numbersBefore rs i + ·) o.sql

/-- A SELECT as a statement of its own. -/
def SelectStatement.alone (s : SelectStatement) : Rendered :=
  Rendered.ofTokens s.tokens

theorem SelectStatement.alone_params (s : SelectStatement) : s.alone.params = s.uses.eraseDups := by
  rw [alone, (Rendered.ofTokens_eq s.tokens).1, s.paramsOf_tokens]

/-- The names of an operand are told apart from those of every other operand. -/
theorem operandUses_disjoint (ss : List SelectStatement) :
    (ss.mapIdx fun i s => s.uses.map (inOperand i)).Pairwise fun l m => ∀ a ∈ l, a ∉ m := by
  rw [List.pairwise_iff_getElem]
  intro i j hi hj hij a ha hb
  rw [List.getElem_mapIdx, List.mem_map] at ha hb
  obtain ⟨n, -, rfl⟩ := ha
  obtain ⟨m, -, hm⟩ := hb
  have hji : j = i := (inOperand_inj.1 hm).1
  omega

theorem eraseDups_operandUses (ss : List SelectStatement) :
    (ss.mapIdx fun i s => s.uses.map (inOperand i)).flatten.eraseDups =
      operandNames (ss.map (·.alone)) := by
  rw [eraseDups_flatten _ (operandUses_disjoint ss), operandNames]
  refine congrArg List.flatten (List.ext_getElem (by simp) fun i hi hj => ?_)
  rw [List.getElem_map, List.getElem_mapIdx, List.getElem_mapIdx, List.getElem_map,
    SelectStatement.alone_params]
  exact eraseDups_map _ fun a _ b _ h => inOperand_injective i h

/-- The names of the whole: those of the operands, then those of what follows the operands that are
not among them. -/
theorem CompoundStatement.params_tokens (c : CompoundStatement) :
    let names := operandNames (c.operands.map (·.alone))
    (Rendered.ofTokens c.tokens).params =
      names ++ (c.trailingUses.filter (· ∉ names)).eraseDups := by
  intro names
  have huses : c.uses =
      (c.operands.mapIdx fun i s => s.uses.map (inOperand i)).flatten ++ c.trailingUses := by
    rw [uses, trailingUses, List.append_assoc, List.append_assoc, List.append_assoc]
  rw [(Rendered.ofTokens_eq c.tokens).1, c.paramsOf_tokens, huses, eraseDups_append_new,
    eraseDups_operandUses]

/-! ## Numbers -/

/-- The names of an operand are numbered as they are on their own, on from those before them. -/
theorem rank_operandNames (before after : List Rendered) {o : Rendered} {name : String}
    (h : name ∈ o.params) (more : List String) :
    Draft.rank (operandNames (before ++ o :: after) ++ more) (inOperand before.length name) =
      (before.map (·.params.length)).sum + Draft.rank o.params name := by
  have hsplit : operandNames (before ++ o :: after) ++ more =
      operandNames before ++ (o.params.map (inOperand before.length) ++
        ((after.mapIdx fun i o => o.params.map (inOperand (i + 1 + before.length))).flatten
          ++ more)) := by
    rw [operandNames, List.mapIdx_append, List.mapIdx_cons]
    simp [operandNames]
  -- a name of an earlier operand begins with that operand's position
  have hbefore : inOperand before.length name ∉ operandNames before := by
    intro hm
    obtain ⟨l, hl, ha⟩ := List.mem_flatten.1 hm
    obtain ⟨i, hi, rfl⟩ := List.mem_mapIdx.1 hl
    obtain ⟨m, -, hm⟩ := List.mem_map.1 ha
    have hindex : i = before.length := (inOperand_inj.1 hm).1
    omega
  have hlength : (operandNames before).length = (before.map (·.params.length)).sum := by
    rw [operandNames, List.length_flatten]
    refine congrArg List.sum (List.ext_getElem (by simp) fun i hi hj => ?_)
    simp
  rw [hsplit, Draft.rank_append_right hbefore, hlength,
    Draft.rank_append_left (List.mem_map_of_mem h), Draft.rank_map (inOperand_injective _)]

theorem rank_operand {rs : List Rendered} {index : Nat} (hi : index < rs.length) {name : String}
    (h : name ∈ rs[index].params) (more : List String) :
    Draft.rank (operandNames rs ++ more) (inOperand index name) =
      numbersBefore rs index + Draft.rank rs[index].params name := by
  have hsplit : rs = rs.take index ++ rs[index] :: rs.drop (index + 1) := by
    rw [← List.drop_eq_getElem_cons hi, List.take_append_drop]
  have hlength : (rs.take index).length = index := List.length_take_of_le (Nat.le_of_lt hi)
  have hrank := rank_operandNames (rs.take index) (rs.drop (index + 1)) h more
  rw [← hsplit, hlength] at hrank
  exact hrank

/-- The text of an operand is that of its tokens, each parameter by its number in the whole. -/
theorem operandText_numbered (names : List String) (index : Nat) (s : SelectStatement) :
    operandText (placeholder ∘ Draft.rank names) index s =
      textOf placeholder (s.tokens.map (Token.map (Draft.rank names ∘ inOperand index))) :=
  (Sql.textOf_map _ placeholder s.tokens).symm

/-- An operand whose names are numbered on from a number is its own text, renumbered. -/
theorem operandText_eq {names : List String} {index offset : Nat} {s : SelectStatement}
    (h : ∀ n ∈ s.uses,
      Draft.rank names (inOperand index n) = offset + Draft.rank s.alone.params n) :
    operandText (placeholder ∘ Draft.rank names) index s =
      Sql.renumber (offset + ·) s.alone.sql := by
  have hsql : s.alone.sql = textOf placeholder (s.alone.numbered s.tokens) :=
    (Rendered.ofTokens_eq s.tokens).2
  have hnumbers : s.tokens.map (Token.map (Draft.rank names ∘ inOperand index)) =
      s.tokens.map (Token.map ((offset + ·) ∘ Draft.rank s.alone.params)) := by
    refine Sql.map_congr_params fun n hn => ?_
    rw [s.paramsOf_tokens] at hn
    exact h n hn
  rw [operandText_numbered, hnumbers, hsql, Sql.renumber_textOf, Rendered.numbered,
    Sql.map_tokenMap]

/-- Operands under the names of a whole are written as they are on their own, renumbered. -/
theorem mapIdx_operandText (ss : List SelectStatement) (more : List String) :
    ss.mapIdx (operandText
        (placeholder ∘ Draft.rank (operandNames (ss.map (·.alone)) ++ more))) =
      operandTexts (ss.map (·.alone)) := by
  refine List.ext_getElem (by simp [operandTexts]) fun i hi hj => ?_
  have hs : i < ss.length := by simpa using hi
  have hr : i < (ss.map (·.alone)).length := by simpa using hi
  have hown : (ss.map (·.alone))[i] = ss[i].alone := List.getElem_map _
  simp only [operandTexts, List.getElem_mapIdx, hown]
  refine operandText_eq fun n hn => ?_
  rw [← List.mem_eraseDups, ← SelectStatement.alone_params, ← hown] at hn
  rw [rank_operand hr hn, hown]

theorem mem_operandNames {ss : List SelectStatement} {index : Nat} (hi : index < ss.length)
    {name : String} (h : name ∈ ss[index].uses) :
    inOperand index name ∈ operandNames (ss.map (·.alone)) := by
  rw [← eraseDups_operandUses, List.mem_eraseDups, List.mem_flatten]
  refine ⟨_, List.getElem_mem (by simpa using hi), ?_⟩
  rw [List.getElem_mapIdx]
  exact List.mem_map_of_mem h

theorem placeholdersOf_operandText (names : List String) (index : Nat) (s : SelectStatement) :
    Sql.placeholdersOf (operandText (placeholder ∘ Draft.rank names) index s) =
      s.uses.map fun n => Draft.rank names (inOperand index n) := by
  rw [operandText_numbered, Sql.placeholdersOf_textOf, Sql.paramsOf_map, s.paramsOf_tokens]
  rfl

/-- A name has the number of a placeholder of an operand only if it is that of a parameter of the
operand, told apart by the operand's position. -/
theorem rank_mem_operandText {ss : List SelectStatement} {more : List String} {name : String}
    (hname : name ∈ operandNames (ss.map (·.alone)) ++ more) {index : Nat}
    (hi : index < ss.length) :
    let names := operandNames (ss.map (·.alone)) ++ more
    Draft.rank names name ∈
        Sql.placeholdersOf (operandText (placeholder ∘ Draft.rank names) index ss[index]) ↔
      ∃ n ∈ ss[index].uses, name = inOperand index n := by
  intro names
  rw [placeholdersOf_operandText, List.mem_map]
  constructor
  · rintro ⟨n, hn, hrank⟩
    have hmem : inOperand index n ∈ names := List.mem_append_left _ (mem_operandNames hi hn)
    exact ⟨n, hn, (Draft.rank_injective hmem hname hrank).symm⟩
  · rintro ⟨n, hn, rfl⟩
    exact ⟨n, hn, rfl⟩

/-- No two operands share a placeholder. -/
theorem operandTexts_disjoint (ss : List SelectStatement) :
    (operandTexts (ss.map (·.alone))).Pairwise fun t u =>
      ∀ k ∈ Sql.placeholdersOf t, k ∉ Sql.placeholdersOf u := by
  rw [← mapIdx_operandText ss [], List.pairwise_iff_getElem]
  intro i j hi hj hij k hk hk'
  have hi' : i < ss.length := by simpa using hi
  have hj' : j < ss.length := by simpa using hj
  rw [List.getElem_mapIdx] at hk hk'
  rw [placeholdersOf_operandText, List.mem_map] at hk
  obtain ⟨n, hn, rfl⟩ := hk
  have hmem := List.mem_append_left [] (mem_operandNames hi' hn)
  obtain ⟨m, -, hm⟩ := (rank_mem_operandText hmem hj').1 hk'
  have hindex : i = j := (inOperand_inj.1 hm).1
  omega

/-! ## The whole -/

namespace CompoundStatement

/-- The text of a compound statement under the names of the whole. -/
theorem sql_operands (c : CompoundStatement) :
    let o := Rendered.ofTokens c.tokens
    let spell := placeholder ∘ Draft.rank o.params
    o.sql = chainText (c.rest.map (·.1)) (c.operands.mapIdx (operandText spell))
      ++ c.tailText spell := by
  intro o spell
  rw [(Rendered.ofTokens_eq c.tokens).2, Rendered.numbered, Sql.textOf_map, c.textOf_tokens]

/-- The text of a compound statement: its operands as they are written on their own, renumbered,
and what follows them under the names of the whole. -/
theorem sql_tokens (c : CompoundStatement) :
    let o := Rendered.ofTokens c.tokens
    o.sql = chainText (c.rest.map (·.1)) (operandTexts (c.operands.map (·.alone)))
      ++ c.tailText (placeholder ∘ Draft.rank o.params) := by
  intro o
  have hoperands : c.operands.mapIdx (operandText (placeholder ∘ Draft.rank o.params)) =
      operandTexts (c.operands.map (·.alone)) := by
    rw [c.params_tokens]
    exact mapIdx_operandText _ _
  rw [c.sql_operands, hoperands]

/-- A name of the whole shares its placeholder with an operand if and only if it is the name that
the whole has for a parameter of this operand. -/
theorem rank_mem_operandText (c : CompoundStatement) {name : String} (hname : name ∈ c.uses)
    {index : Nat} (hi : index < c.operands.length) :
    let o := Rendered.ofTokens c.tokens
    Draft.rank o.params name ∈
        Sql.placeholdersOf
          (operandText (placeholder ∘ Draft.rank o.params) index c.operands[index]) ↔
      ∃ n ∈ c.operands[index].uses, name = inOperand index n := by
  intro o
  have hparam : name ∈ o.params := by
    rw [(Rendered.ofTokens_eq c.tokens).1, c.paramsOf_tokens, List.mem_eraseDups]
    exact hname
  rw [c.params_tokens] at hparam ⊢
  exact CheckedSql.rank_mem_operandText hparam hi

end CompoundStatement

namespace Renderer

variable {r : Renderer} {c : CompoundStatement}

theorem operandDemands_of_unlocked {s : SelectStatement} (h : s.lock = none) :
    s.operandDemands = s.demands := by
  rw [SelectStatement.operandDemands, h]
  rfl

theorem demands_ordering (c : CompoundStatement) :
    c.ordering.demands = OrderItem.demandsAll c.orderBy := by
  simp [CompoundStatement.ordering, SelectStatement.demands, Cond.demandsAll]

/-- Operands that are each sent on their own are no reason for refusing the whole. -/
theorem refusal?_operands {ss : List SelectStatement} (hlock : ∀ s ∈ ss, s.lock = none)
    (h : ∀ s ∈ ss, ∃ o, r.render (.select s) = .ok o) :
    r.refusal? (ss.flatMap (·.operandDemands)) = none := by
  rw [refusal?_eq_none]
  intro d hd
  obtain ⟨s, hs, hd⟩ := List.mem_flatMap.1 hd
  obtain ⟨o, ho⟩ := h s hs
  rw [operandDemands_of_unlocked (hlock s hs)] at hd
  exact refusal?_eq_none.1 (render_eq_ok.1 ho).1 d hd

theorem eq_alone {ss : List SelectStatement} {rs : List Rendered}
    (h : List.Forall₂ (fun s o => r.render (.select s) = .ok o) ss rs) :
    rs = ss.map (·.alone) ∧ ∀ s ∈ ss, ∃ o, r.render (.select s) = .ok o := by
  induction h with
  | nil => exact ⟨rfl, fun s hs => absurd hs List.not_mem_nil⟩
  | @cons s o ss rs ho _ ih =>
    obtain ⟨hrs, hss⟩ := ih
    rw [List.map_cons, ← hrs, (render_eq_ok.1 ho).2]
    exact ⟨rfl, List.forall_mem_cons.2 ⟨⟨o, ho⟩, hss⟩⟩

/-- A compound statement of operands without locks. It is sent if each operand is on its own, and
the ordering of the whole is: its text is that of the operands, in parentheses and each with its
placeholders numbered on from those before it, and of what follows them; its names are those of the
operands, told apart by their positions, and those that follow and are new. No two operands share a
placeholder. It is refused for the first operand that is refused on its own. -/
theorem render_compound (r : Renderer) (c : CompoundStatement)
    (hlock : ∀ s ∈ c.operands, s.lock = none) :
    (∀ rs, List.Forall₂ (fun s o => r.render (.select s) = .ok o) c.operands rs →
      (∃ o, r.render (.select c.ordering) = .ok o) →
      ∃ o, r.render (.compound c) = .ok o ∧
        o.sql = chainText (c.rest.map (·.1)) (operandTexts rs)
          ++ c.tailText (placeholder ∘ Draft.rank o.params) ∧
        o.params = operandNames rs
          ++ (c.trailingUses.filter (· ∉ operandNames rs)).eraseDups ∧
        (operandTexts rs).Pairwise fun t u =>
          ∀ k ∈ Sql.placeholdersOf t, k ∉ Sql.placeholdersOf u) ∧
    (∀ before s after e, c.operands = before ++ s :: after →
      (∀ q ∈ before, ∃ o, r.render (.select q) = .ok o) → r.render (.select s) = .error e →
      r.render (.compound c) = .error e) := by
  constructor
  · rintro rs hrs ⟨t, ht⟩
    -- what the operands are sent as is determined by the operands
    obtain ⟨rfl, hsent⟩ := eq_alone hrs
    have hordering : r.refusal? (OrderItem.demandsAll c.orderBy) = none := by
      rw [← demands_ordering]
      exact (render_eq_ok.1 ht).1
    have hall : r.refusal? c.demands = none := by
      rw [CompoundStatement.demands, refusal?_append, refusal?_operands hlock hsent, hordering]
      rfl
    exact ⟨Rendered.ofTokens c.tokens, render_eq_ok.2 ⟨hall, rfl⟩, c.sql_tokens, c.params_tokens,
      operandTexts_disjoint c.operands⟩
  · intro before s after e hsplit hbefore hs
    -- the demands of the operands before it are met, so its own first unmet one is the first
    rw [hsplit, List.forall_mem_append, List.forall_mem_cons] at hlock
    obtain ⟨hlock, hslock, -⟩ := hlock
    have hfirst : r.refusal? s.demands = some e := render_eq_error.1 hs
    rw [render_eq_error]
    show r.refusal? c.demands = some e
    rw [CompoundStatement.demands, hsplit, List.flatMap_append, List.flatMap_cons, refusal?_append,
      refusal?_append, refusal?_append, refusal?_operands hlock hbefore,
      operandDemands_of_unlocked hslock, hfirst]
    rfl

/-- Users of an id, and others of another: both parameters are called the same. -/
theorem render_compound_shared :
    let byId : SelectStatement := { table := "users", conditions := [.compare ⟨"id"⟩ .eq ⟨"id"⟩] }
    let c : CompoundStatement :=
      { first := byId, rest := [(.unionAll, byId)], limit := some (.param ⟨"page"⟩) }
    ∃ o, (Renderer.ofDialect .postgres).render (.compound c) = .ok o ∧
      o.sql = "(SELECT * FROM \"users\" WHERE \"id\" = $1) UNION ALL "
        ++ "(SELECT * FROM \"users\" WHERE \"id\" = $2) LIMIT $3" ∧
      o.params = ["q0_id", "q1_id", "page"] := by
  intro byId c
  have hone : (Renderer.ofDialect .postgres).render (.select byId) = .ok byId.alone := rfl
  obtain ⟨o, ho, hsql, hparams, -⟩ := (render_compound (.ofDialect .postgres) c (by
    intro s hs
    simp only [CompoundStatement.operands, c, List.map_cons, List.map_nil, List.mem_cons,
      List.not_mem_nil, or_false, or_self] at hs
    rw [hs])).1 [byId.alone, byId.alone] (.cons hone (.cons hone .nil)) ⟨_, rfl⟩
  have hnames : o.params = ["q0_id", "q1_id", "page"] := by
    rw [hparams]
    decide
  rw [hnames] at hsql
  exact ⟨o, ho, hsql.trans (by decide), hnames⟩

end Renderer

end CheckedSql
