/-
Queries are built by chains of calls. A chain keeps the clauses that its calls have made up to the
first one that fails, and that call's error; the calls after it change nothing.
-/
import CheckedSql.Condition

namespace CheckedSql

/-- A chain of calls that make clauses of type `γ`. -/
structure Chain (γ : Type) where
  clauses : γ
  fault : Option BuildError := none

namespace Chain

variable {γ : Type}

/-- One more call. -/
def call (c : Chain γ) (step : γ → Except BuildError γ) : Chain γ :=
  match c.fault with
  | some _ => c
  | none =>
    match step c.clauses with
    | .ok clauses => { c with clauses }
    | .error e => { c with fault := some e }

/-- The clauses, if no call has failed; else the first error. -/
def result (c : Chain γ) : Except BuildError γ :=
  match c.fault with
  | some e => .error e
  | none => .ok c.clauses

end Chain

/-- A list of conditions with one more, if that one says anything. -/
def attach (s : Schema) (c : Condition) (cs : List Cond) : Except BuildError (List Cond) := do
  let c ← c.resolve s
  return cs ++ c.toList

/-- A building error is an error of the query. -/
def liftBuild {α : Type} : Except BuildError α → Except QueryError α
  | .ok a => .ok a
  | .error e => .error (.build e)

end CheckedSql
