/-
The logic of SQL. A test of a row holds, does not hold, or is unknown, as any comparison with NULL
is. AND and OR of such values do not depend on how they are grouped, and each has a value that
adds nothing.
-/
import CheckedSql.Sql.Clause

namespace CheckedSql

/-- What a test of a row comes to. -/
inductive Truth
  | no | unknown | yes
  deriving DecidableEq

namespace Truth

/-- AND: no if either is no, unknown if neither is no and either is unknown. -/
def and : Truth → Truth → Truth
  | no, _ | _, no => no
  | yes, yes => yes
  | _, _ => unknown

/-- OR: yes if either is yes, unknown if neither is yes and either is unknown. -/
def or : Truth → Truth → Truth
  | yes, _ | _, yes => yes
  | no, no => no
  | _, _ => unknown

end Truth

namespace Junction

/-- Two values joined. -/
def apply : Junction → Truth → Truth → Truth
  | .and => Truth.and
  | .or => Truth.or

/-- The value that adds nothing. -/
def neutral : Junction → Truth
  | .and => .yes
  | .or => .no

/-- All of a list of values joined. -/
def join (j : Junction) (ts : List Truth) : Truth :=
  ts.foldr j.apply j.neutral

variable (j : Junction)

theorem apply_assoc (a b c : Truth) : j.apply (j.apply a b) c = j.apply a (j.apply b c) := by
  cases j <;> cases a <;> cases b <;> cases c <;> rfl

@[simp]
theorem apply_neutral (a : Truth) : j.apply a j.neutral = a := by
  cases j <;> cases a <;> rfl

@[simp]
theorem join_nil : j.join [] = j.neutral :=
  rfl

@[simp]
theorem join_cons (t : Truth) (ts : List Truth) : j.join (t :: ts) = j.apply t (j.join ts) :=
  rfl

/-- AND holds if and only if all that it joins holds. -/
theorem join_and_eq_yes {ts : List Truth} : Junction.and.join ts = .yes ↔ ∀ t ∈ ts, t = .yes := by
  induction ts with
  | nil => simp [neutral]
  | cons t ts ih =>
    rw [join_cons, List.forall_mem_cons, ← ih]
    cases t <;> cases Junction.and.join ts <;> decide

end Junction

end CheckedSql
