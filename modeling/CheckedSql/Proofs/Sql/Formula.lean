/-
Conditions as SQL reads them. OR joins what AND joins, AND joins predicates, and parentheses put a
whole formula in the place of a predicate. The AND between the bounds of BETWEEN is part of the
predicate. Formulas without parentheses are joined from the left.
-/
import CheckedSql.Proofs.Sql.Brackets
import CheckedSql.Proofs.Sql.Reader
import CheckedSql.Proofs.Sql.Truth

namespace CheckedSql.Sql

/-- Predicates, joined by AND and OR. A predicate is known by its tokens. -/
inductive Formula (π : Type)
  | predicate (ts : List (Token π))
  | combine (j : Junction) (left right : Formula π)
  deriving DecidableEq

namespace Formula

variable {π : Type}

/-! ## What a formula means -/

/-- The predicates, from left to right. -/
def predicates : Formula π → List (List (Token π))
  | predicate ts => [ts]
  | combine _ left right => left.predicates ++ right.predicates

/-- The value of a formula whose first predicate is number `i`, under an assignment of values to
the predicates. -/
def truth (v : Nat → Truth) (i : Nat) : Formula π → Truth
  | predicate _ => v i
  | combine j left right =>
    j.apply (left.truth v i) (right.truth v (i + left.predicates.length))

/-- The values of formulas that follow one another. -/
def truths (v : Nat → Truth) (i : Nat) : List (Formula π) → List Truth
  | [] => []
  | f :: fs => f.truth v i :: truths v (i + f.predicates.length) fs

/-- A formula joined with others, from the left. -/
def joined (j : Junction) (f : Formula π) (fs : List (Formula π)) : Formula π :=
  fs.foldl (combine j) f

theorem predicates_joined (j : Junction) (f : Formula π) (fs : List (Formula π)) :
    (joined j f fs).predicates = (f :: fs).flatMap predicates := by
  induction fs generalizing f with
  | nil => simp [joined]
  | cons g fs ih =>
    show (joined j (combine j f g) fs).predicates = _
    rw [ih]
    simp [predicates]

/-- However they are grouped, formulas that are joined mean their values joined. -/
theorem truth_joined (v : Nat → Truth) (i : Nat) (j : Junction) (f : Formula π)
    (fs : List (Formula π)) : (joined j f fs).truth v i = j.join (truths v i (f :: fs)) := by
  induction fs generalizing f with
  | nil => simp [joined, truths]
  | cons g fs ih =>
    show (joined j (combine j f g) fs).truth v i = _
    rw [ih]
    simp [truths, truth, predicates, Junction.apply_assoc, Nat.add_assoc]

/-! ## Reading -/

/-- An operand of a predicate: a name, a placeholder, a number, or a call with its arguments. -/
def readOperand : Reader π (List (Token π))
  | .identifier name :: ts => some ([.identifier name], ts)
  | .param p :: ts => some ([.param p], ts)
  | .number n :: ts => some ([.number n], ts)
  | .call k :: ts =>
    (upToClosing 0 ts).map fun r => (.call k :: r.1 ++ [.symbol .closeParen], r.2)
  | _ => none

/-- An operator between two operands: a sign that is no punctuation, or a word of matching. -/
def readOperator : Reader π (List (Token π))
  | .symbol s :: ts =>
    if s ∈ [Symbol.openParen, .closeParen, .comma, .dot] then none else some ([.symbol s], ts)
  | .keyword .LIKE :: ts => some (keywords [.LIKE], ts)
  | .keyword .ILIKE :: ts => some (keywords [.ILIKE], ts)
  | .keyword .NOT :: .keyword .LIKE :: ts => some (keywords [.NOT, .LIKE], ts)
  | .keyword .NOT :: .keyword .ILIKE :: ts => some (keywords [.NOT, .ILIKE], ts)
  | _ => none

/-- The bounds of BETWEEN, with the AND between them. -/
def readBounds : Reader π (List (Token π)) := fun ts => do
  let (low, ts) ← readOperand ts
  match ts with
  | .keyword .AND :: ts => do
    let (high, ts) ← readOperand ts
    return (low ++ .keyword .AND :: high, ts)
  | _ => none

/-- What a predicate says of its first operand. -/
def readTest : Reader π (List (Token π))
  | .keyword .IS :: .keyword .NULL :: ts => some (keywords [.IS, .NULL], ts)
  | .keyword .IS :: .keyword .NOT :: .keyword .NULL :: ts => some (keywords [.IS, .NOT, .NULL], ts)
  | .keyword .BETWEEN :: ts =>
    (readBounds ts).map fun r => (keywords [.BETWEEN] ++ r.1, r.2)
  | .keyword .NOT :: .keyword .BETWEEN :: ts =>
    (readBounds ts).map fun r => (keywords [.NOT, .BETWEEN] ++ r.1, r.2)
  | ts => do
    let (op, ts) ← readOperator ts
    let (right, ts) ← readOperand ts
    return (op ++ right, ts)

/-- A predicate: an operand and what is said of it. -/
def readPredicate : Reader π (List (Token π)) := fun ts => do
  let (operand, ts) ← readOperand ts
  let (test, ts) ← readTest ts
  return (operand ++ test, ts)

variable [DecidableEq π]

/-- A formula in parentheses, or a predicate. -/
def readFactor (inner : Reader π (Formula π)) : Reader π (Formula π)
  | .symbol .openParen :: ts => do
    let (f, ts) ← inner ts
    let ts ← expect [.symbol .closeParen] ts
    return (f, ts)
  | ts => (readPredicate ts).map fun r => (predicate r.1, r.2)

/-- Formulas of a kind, joined by a word. -/
def readJoined (j : Junction) (p : Reader π (Formula π)) : Reader π (Formula π) := fun ts => do
  let (f, ts) ← p ts
  let (fs, ts) ← many (.keyword j.keyword) p ts.length ts
  return (joined j f fs, ts)

/-- A formula, in which parentheses are nested less than `fuel` deep. -/
def read : (fuel : Nat) → Reader π (Formula π)
  | 0 => fun _ => none
  | fuel + 1 => readJoined .or (readJoined .and (readFactor (read fuel)))

/-- The formula that tokens begin with. Parentheses are not nested deeper than there are tokens. -/
def ofTokens : Reader π (Formula π) := fun ts =>
  read (ts.length + 1) ts

/-! ## Reading predicates -/

section

omit [DecidableEq π]

/-- Tokens that a reader takes as they are, whatever comes next. -/
def Takes (p : Reader π (List (Token π))) (ts : List (Token π)) : Prop :=
  Reads p ts ts []

theorem takes_call {k : Keyword} {ts : List (Token π)} (h : Balanced ts) :
    Takes readOperand (.call k :: ts ++ [.symbol .closeParen]) := by
  intro rest _
  show (upToClosing 0 ((ts ++ [Token.symbol .closeParen]) ++ rest)).map _ = _
  rw [List.append_assoc, List.singleton_append, h.upToClosing_parenthesis]
  rfl

theorem takes_predicate {operand test : List (Token π)} (hoperand : Takes readOperand operand)
    (htest : Takes readTest test) : Takes readPredicate (operand ++ test) := by
  intro rest _
  rw [List.append_assoc, readPredicate, hoperand _ (.of_empty _)]
  simp only [Option.bind_eq_bind, Option.bind_some, htest _ (Avoids.of_empty rest)]
  rfl

end

/-- What is a predicate does not begin with a parenthesis. -/
theorem readFactor_predicate {ts : List (Token π)} (h : Takes readPredicate ts)
    (inner : Reader π (Formula π)) : Reads (readFactor inner) ts (predicate ts) [] := by
  intro rest hrest
  have hread := h rest hrest
  unfold readFactor
  split
  · rename_i us heq
    rw [heq] at hread
    cases hread
  · rw [hread]
    rfl

/-! ## Reading formulas -/

theorem readFactor_parenthesized {inner : Reader π (Formula π)} {ts stop : List (Token π)}
    {f : Formula π} (h : Reads inner ts f stop) (hstop : .symbol .closeParen ∉ stop) :
    Reads (readFactor inner) (parenthesized ts) f [] := by
  intro rest _
  have hinner := h (.symbol .closeParen :: rest) (.cons hstop rest)
  show readFactor inner (.symbol .openParen :: ((ts ++ [Token.symbol .closeParen]) ++ rest)) = _
  rw [List.append_assoc, List.singleton_append, readFactor, hinner]
  rfl

section

variable {γ : Type} {value : γ → Formula π} {write : γ → List (Token π)}

/-- Formulas with a word between each two are read up to where that word does not come next. -/
theorem readJoined_reads {j : Junction} {p : Reader π (Formula π)} {stop : List (Token π)} {x : γ}
    {xs : List γ} (h : ∀ y ∈ x :: xs, Reads p (write y) (value y) stop)
    (hstop : .keyword j.keyword ∉ stop) :
    Reads (readJoined j p) ([.keyword j.keyword].intercalate ((x :: xs).map write))
      (joined j (value x) (xs.map value)) (.keyword j.keyword :: stop) := by
  intro rest hrest
  have hhead := h x List.mem_cons_self _ (Avoids.flatMap hstop hrest write xs)
  have hrec := many_map (fun y hy => h y (.tail _ hy)) hstop hrest
    (length_le_flatMap (.keyword j.keyword) write xs rest)
  rw [List.map_cons, intercalate_eq_flatMap, List.flatMap_map, List.append_assoc, readJoined, hhead]
  simp only [Option.bind_eq_bind, Option.bind_some, hrec]
  rfl

/-- A single formula is joined with none. -/
theorem readJoined_single {j : Junction} {p : Reader π (Formula π)} {ts stop : List (Token π)}
    {f : Formula π} (h : Reads p ts f stop) (hstop : .keyword j.keyword ∉ stop) :
    Reads (readJoined j p) ts f (.keyword j.keyword :: stop) := by
  have hall : ∀ y ∈ [()], Reads p ((fun _ => ts) y) ((fun _ => f) y) stop := fun _ _ => h
  simpa [joined] using readJoined_reads hall hstop

/-- Predicates and parenthesized formulas with the same word between each two are read as joined by
it, whichever of the two words it is. -/
theorem read_joined {fuel : Nat} {j : Junction} {x : γ} {xs : List γ}
    (h : ∀ y ∈ x :: xs, Reads (readFactor (read fuel)) (write y) (value y) []) :
    Reads (read (fuel + 1)) ([.keyword j.keyword].intercalate ((x :: xs).map write))
      (joined j (value x) (xs.map value)) [.keyword .OR, .keyword .AND] := by
  cases j with
  | and => exact readJoined_single (readJoined_reads h List.not_mem_nil) (by simp [Junction.keyword])
  | or =>
    refine readJoined_reads (fun y hy => ?_) (by simp [Junction.keyword])
    exact readJoined_single (h y hy) List.not_mem_nil

end

end Formula

end CheckedSql.Sql
