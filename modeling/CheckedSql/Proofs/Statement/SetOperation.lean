/-
Compound statements read back. Only the operands stand in parentheses, so the text of a compound
statement is read as the tree that precedence gives to its chain of operations. That is the chain
applied from left to right if and only if no INTERSECT comes after a UNION or EXCEPT.
-/
import CheckedSql.Proofs.Numbering
import CheckedSql.Proofs.Sql.Scan
import CheckedSql.Proofs.Sql.SetTree
import CheckedSql.Proofs.Statement.Balanced

namespace CheckedSql

open Sql (Token Balanced upToClosing scan)

/-! ## Reading a chain of set operations -/

namespace SetOp

variable {π : Type}

/-- The set operation at the beginning of a sequence of tokens. -/
def read : List (Token π) → Option (SetOp × List (Token π))
  | .keyword .UNION :: .keyword .ALL :: ts => some (.unionAll, ts)
  | .keyword .UNION :: ts => some (.union, ts)
  | .keyword .INTERSECT :: .keyword .ALL :: ts => some (.intersectAll, ts)
  | .keyword .INTERSECT :: ts => some (.intersect, ts)
  | .keyword .EXCEPT :: .keyword .ALL :: ts => some (.exceptAll, ts)
  | .keyword .EXCEPT :: ts => some (.except, ts)
  | _ => none

/-- An operand is what stands in a parenthesis. -/
def readOperand : List (Token π) → Option (List (Token π) × List (Token π))
  | .symbol .openParen :: ts => upToClosing 0 ts
  | _ => none

/-- Operands, each behind a set operation, as long as there are any, and what follows them. -/
def readRest : (fuel : Nat) → List (Token π) →
    Option (List (SetOp × List (Token π)) × List (Token π))
  | 0, ts => some ([], ts)
  | fuel + 1, ts =>
    match read ts with
    | none => some ([], ts)
    | some (op, us) => do
      let (a, vs) ← readOperand us
      let (l, tail) ← readRest fuel vs
      return ((op, a) :: l, tail)

/-- The tree of the set operations of a query, and what follows the last operand. -/
def readTree (ts : List (Token π)) : Option (SetTree (List (Token π)) × List (Token π)) := do
  let (first, us) ← readOperand ts
  let (rest, tail) ← readRest us.length us
  return (.byPrecedence first rest, tail)

end SetOp

/-- The tree of the set operations of a text. -/
def SetTree.ofText (sql : String) : Option (SetTree (List (Token Nat))) := do
  let ts ← scan sql
  let (tree, _) ← SetOp.readTree ts
  return tree

/-! ## Reading what was written -/

namespace SetOp

variable {π : Type}

/-- What follows a set operation is an operand, so ALL belongs to the operation that has it. -/
theorem read_keywords (op : SetOp) (ts us : List (Token π)) :
    read (Sql.keywords op.keywords ++ (Sql.parenthesized ts ++ us)) =
      some (op, Sql.parenthesized ts ++ us) := by
  cases op <;> rfl

theorem readOperand_parenthesized {ts : List (Token π)} (h : Balanced ts) (us : List (Token π)) :
    readOperand (Sql.parenthesized ts ++ us) = some (ts, us) := by
  show readOperand (.symbol .openParen :: ((ts ++ [Token.symbol .closeParen]) ++ us)) = _
  rw [List.append_assoc, List.singleton_append]
  exact h.upToClosing_parenthesis us

end SetOp

/-- The clauses behind the operands do not begin like a set operation. -/
theorem read_tailTokens {π : Type} (f : String → π) (orderBy : List OrderItem)
    (limit offset : Option Bound) :
    SetOp.read ((tailTokens orderBy limit offset).map (Token.map f)) = none := by
  unfold tailTokens orderByTokens
  cases orderBy with
  | cons o os => rfl
  | nil => cases limit <;> cases offset <;> rfl

/-! ## Chains of operands -/

section

variable {π : Type} (f : String → π)

/-- An operand as it is written: its own tokens, with the parameters named apart by its position
and spelled in the way of the whole. -/
def operandOf (index : Nat) (s : SelectStatement) : List (Token π) :=
  (s.tokens.map (Token.map (ParamName.inOperand index))).map (Token.map f)

/-- Operands as they are written, the first of them operand `index`. -/
def chainOf (index : Nat) (rest : List (SetOp × SelectStatement)) :
    List (SetOp × List (Token π)) :=
  rest.mapIdx fun i x => (x.1, operandOf f (index + i) x.2)

theorem chainOf_cons (index : Nat) (op : SetOp) (s : SelectStatement)
    (rest : List (SetOp × SelectStatement)) :
    chainOf f index ((op, s) :: rest) =
      (op, operandOf f index s) :: chainOf f (index + 1) rest := by
  simp only [chainOf, List.mapIdx_cons, Nat.add_zero, Nat.add_assoc, Nat.add_comm 1]

theorem chainOf_ops (index : Nat) (rest : List (SetOp × SelectStatement)) :
    (chainOf f index rest).map (·.1) = rest.map (·.1) := by
  induction rest generalizing index with
  | nil => rfl
  | cons x rest ih => rw [chainOf_cons, List.map_cons, List.map_cons, ih]

theorem operandOf_balanced (index : Nat) (s : SelectStatement) : Balanced (operandOf f index s) :=
  (s.tokens_balanced.map _).map _

theorem map_operandTokens (index : Nat) (s : SelectStatement) :
    (operandTokens index s).map (Token.map f) = Sql.parenthesized (operandOf f index s) := by
  rw [operandTokens, Sql.map_parenthesized]
  rfl

/-- The operands after the first are read back, each with its operation. -/
theorem readRest_restTokens {tail : List (Token π)} (htail : SetOp.read tail = none)
    (rest : List (SetOp × SelectStatement)) (index fuel : Nat) (h : rest.length ≤ fuel) :
    SetOp.readRest fuel ((restTokens index rest).map (Token.map f) ++ tail) =
      some (chainOf f index rest, tail) := by
  induction rest generalizing index fuel with
  | nil =>
    show SetOp.readRest fuel tail = _
    cases fuel with
    | zero => rfl
    | succ fuel => rw [SetOp.readRest, htail]; rfl
  | cons x rest ih =>
    obtain ⟨op, s⟩ := x
    cases fuel with
    | zero => simp at h
    | succ fuel =>
      -- the closing parenthesis is found, since what stands in the operand is balanced
      have hts : (restTokens index ((op, s) :: rest)).map (Token.map f) ++ tail =
          Sql.keywords op.keywords ++ (Sql.parenthesized (operandOf f index s) ++
            ((restTokens (index + 1) rest).map (Token.map f) ++ tail)) := by
        rw [restTokens, List.map_append, List.map_append, map_operandTokens, Sql.map_keywords,
          List.append_assoc, List.append_assoc]
      have hoperand := SetOp.readOperand_parenthesized (operandOf_balanced f index s)
      have hrest := ih (index + 1) fuel (Nat.le_of_succ_le_succ h)
      rw [hts, SetOp.readRest, SetOp.read_keywords, chainOf_cons]
      simp only [Option.bind_eq_bind, Option.bind_some, hoperand, hrest]
      rfl

theorem length_le_restTokens (index : Nat) (rest : List (SetOp × SelectStatement)) :
    rest.length ≤ (restTokens index rest).length := by
  induction rest generalizing index with
  | nil => exact Nat.le_refl _
  | cons x rest ih =>
    obtain ⟨op, s⟩ := x
    have hpos : 1 ≤ (operandTokens index s).length := by simp [operandTokens, Sql.parenthesized]
    have := ih (index + 1)
    rw [restTokens, List.length_append, List.length_append, List.length_cons]
    omega

/-- The first operand of a compound statement, the others with their operations, and what follows
the operands. -/
theorem readOperands_compound (c : CompoundStatement) :
    ∃ us, SetOp.readOperand (c.tokens.map (Token.map f)) = some (operandOf f 0 c.first, us) ∧
      SetOp.readRest us.length us =
        some (chainOf f 1 c.rest,
          (tailTokens c.orderBy c.limit c.offset).map (Token.map f)) := by
  refine ⟨(restTokens 1 c.rest).map (Token.map f)
    ++ (tailTokens c.orderBy c.limit c.offset).map (Token.map f), ?_, ?_⟩
  · rw [CompoundStatement.tokens, List.map_append, List.map_append, map_operandTokens,
      List.append_assoc, SetOp.readOperand_parenthesized (operandOf_balanced f 0 c.first)]
  · have hlength := length_le_restTokens 1 c.rest
    refine readRest_restTokens f (read_tailTokens f _ _ _) c.rest 1 _ ?_
    rw [List.length_append, List.length_map]
    omega

end

namespace Rendered

/-- An operand as it is written in a text, with its parameters numbered. -/
def operand (o : Rendered) (index : Nat) (s : SelectStatement) : List (Token Nat) :=
  operandOf (Draft.rank o.params) index s

/-- Operands as they are written in a text, the first of them operand `index`. -/
def chain (o : Rendered) (index : Nat) (rest : List (SetOp × SelectStatement)) :
    List (SetOp × List (Token Nat)) :=
  chainOf (Draft.rank o.params) index rest

/-- The tokens of a compound statement are read as the tree that precedence gives to its chain, and
what follows the operands is the ordering and the bounds of the whole. -/
theorem readTree_compound (o : Rendered) (c : CompoundStatement) :
    SetOp.readTree (o.numbered c.tokens) =
      some (.byPrecedence (o.operand 0 c.first) (o.chain 1 c.rest),
        o.numbered (tailTokens c.orderBy c.limit c.offset)) := by
  obtain ⟨us, hfirst, hrest⟩ := readOperands_compound (Draft.rank o.params) c
  unfold SetOp.readTree numbered
  rw [hfirst]
  simp only [Option.bind_eq_bind, Option.bind_some, hrest]
  rfl

end Rendered

/-- The tree of the text of a compound statement. -/
theorem SetTree.ofText_ofTokens (c : CompoundStatement) :
    SetTree.ofText (Rendered.ofTokens c.tokens).sql =
      some (.byPrecedence ((Rendered.ofTokens c.tokens).operand 0 c.first)
        ((Rendered.ofTokens c.tokens).chain 1 c.rest)) := by
  unfold SetTree.ofText
  rw [(Rendered.ofTokens_eq c.tokens).2, Sql.scan_textOf]
  simp only [Option.bind_eq_bind, Option.bind_some, Rendered.readTree_compound]
  rfl

/-- The text of a compound statement means the chain of its operations, applied from left to right,
if and only if none of them is applied before an earlier one: no INTERSECT comes after a UNION or
EXCEPT. What it means otherwise is the tree in which INTERSECT comes first. -/
theorem SetTree.ofText_render {r : Renderer} {c : CompoundStatement} {o : Rendered}
    (h : r.render (.compound c) = .ok o) :
    SetTree.ofText o.sql = some (.byPrecedence (o.operand 0 c.first) (o.chain 1 c.rest)) ∧
      (SetTree.ofText o.sql = some (.leftToRight (o.operand 0 c.first) (o.chain 1 c.rest)) ↔
        InOrder (c.rest.map (·.1))) := by
  obtain ⟨ho, -⟩ := Renderer.render_ok h
  have ht : SetTree.ofText o.sql =
      some (.byPrecedence (o.operand 0 c.first) (o.chain 1 c.rest)) := by
    rw [ho]; exact SetTree.ofText_ofTokens c
  refine ⟨ht, ?_⟩
  rw [ht, Option.some.injEq, byPrecedence_eq_leftToRight_iff, Rendered.chain, chainOf_ops]

/-- Users without an age, those of an id, and those of an address, joined by two operations. -/
def usersJoined (op₁ op₂ : SetOp) : CompoundStatement :=
  { first := { table := "users", conditions := [.null ⟨"age"⟩ false] }
    rest :=
      [(op₁, { table := "users", conditions := [.compare ⟨"id"⟩ .eq ⟨"id"⟩] }),
        (op₂, { table := "users", conditions := [.compare ⟨"email"⟩ .eq ⟨"email"⟩] })] }

theorem SetTree.ofText_render_intersect_union :
    let c := usersJoined .intersect .union
    let o := Rendered.ofTokens c.tokens
    (Renderer.ofDialect .postgres).render (.compound c) = .ok o ∧
      SetTree.ofText o.sql = some (.leftToRight (o.operand 0 c.first) (o.chain 1 c.rest)) := by
  refine ⟨rfl, ?_⟩
  exact (SetTree.ofText_render (r := .ofDialect .postgres) (c := usersJoined .intersect .union)
    rfl).2.2 (by decide)

/-- Users without an age or of an id, among those of an address: the text asks for users without an
age, or of an id and an address. -/
theorem SetTree.ofText_union_intersect_ne :
    let c := usersJoined .union .intersect
    let o := Rendered.ofTokens c.tokens
    (Renderer.ofDialect .postgres).render (.compound c) = .ok o ∧
      SetTree.ofText o.sql ≠ some (.leftToRight (o.operand 0 c.first) (o.chain 1 c.rest)) := by
  refine ⟨rfl, fun h => ?_⟩
  rw [SetTree.ofText_ofTokens, Option.some.injEq, SetTree.byPrecedence_eq_leftToRight_iff,
    Rendered.chain, chainOf_ops] at h
  exact absurd h (by decide)

end CheckedSql
