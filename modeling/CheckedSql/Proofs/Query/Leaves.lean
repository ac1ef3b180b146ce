/-
The leaves of a condition, and where its resolution fails: at the first leaf, from left to right,
that does not resolve.
-/
import CheckedSql.Condition

namespace CheckedSql

/-! ## Faults -/

/-- The error of a result that is one. -/
def faultOf {ε α : Type} : Except ε α → Option ε
  | .ok _ => none
  | .error e => some e

section

variable {ε α β : Type}

@[simp]
theorem faultOf_ok (a : α) : faultOf (.ok a : Except ε α) = none :=
  rfl

@[simp]
theorem faultOf_error (e : ε) : faultOf (.error e : Except ε α) = some e :=
  rfl

theorem faultOf_eq_none {x : Except ε α} : faultOf x = none ↔ ∃ a, x = .ok a := by
  cases x <;> simp

theorem faultOf_eq_some {x : Except ε α} {e : ε} : faultOf x = some e ↔ x = .error e := by
  cases x <;> simp

/-- Of two steps the first that fails is the fault. -/
theorem faultOf_bind {x : Except ε α} {f : α → Except ε β} {fault : Option ε}
    (h : ∀ a, x = .ok a → faultOf (f a) = fault) : faultOf (x >>= f) = (faultOf x).or fault := by
  cases x with
  | error e => rfl
  | ok a => exact h a rfl

/-- A step after which nothing can fail. -/
theorem faultOf_bind_ok {x : Except ε α} {f : α → Except ε β}
    (h : ∀ a, faultOf (f a) = none) : faultOf (x >>= f) = faultOf x := by
  rw [faultOf_bind fun a _ => h a, Option.or_none]

end

/-! ## Leaves -/

namespace Condition

mutual

/-- The parts of a condition that are no groups, from left to right. -/
def leaves : Condition → List Condition
  | group _ members => leavesAll members
  | c => [c]

/-- The leaves of a list of conditions. -/
def leavesAll : List Condition → List Condition
  | [] => []
  | c :: cs => c.leaves ++ leavesAll cs

end

/-- A part that joins others. -/
def IsGroup : Condition → Prop
  | group _ _ => True
  | _ => False

mutual

theorem leaves_not_group : ∀ c : Condition, ∀ l ∈ c.leaves, ¬l.IsGroup
  | .group _ members => leavesAll_not_group members
  | .compare _ _ _ | .compareColumns _ _ _ | .null _ _ | .between _ _ _ _ =>
    List.forall_mem_singleton.2 id

theorem leavesAll_not_group : ∀ cs : List Condition, ∀ l ∈ leavesAll cs, ¬l.IsGroup
  | [] => List.forall_mem_nil _
  | c :: cs => List.forall_mem_append.2 ⟨leaves_not_group c, leavesAll_not_group cs⟩

end

mutual

/-- The fault of a condition is that of its first leaf that has one. -/
theorem faultOf_resolve (s : Schema) : ∀ c : Condition,
    faultOf (c.resolve s) = c.leaves.findSome? fun l => faultOf (l.resolve s)
  | .group junction members => by
    rw [resolve, leaves, faultOf_bind_ok fun _ => rfl, faultOf_resolveAll s members]
  | .compare _ _ _ | .compareColumns _ _ _ | .null _ _ | .between _ _ _ _ => by
    rw [leaves, List.findSome?_singleton]
    all_goals rintro j members ⟨⟩

theorem faultOf_resolveAll (s : Schema) : ∀ cs : List Condition,
    faultOf (resolveAll s cs) = (leavesAll cs).findSome? fun l => faultOf (l.resolve s)
  | [] => rfl
  | c :: cs => by
    rw [resolveAll, faultOf_bind fun _ _ => faultOf_bind_ok fun _ => rfl, leavesAll,
      List.findSome?_append, faultOf_resolve s c, faultOf_resolveAll s cs]

end

/-- A condition resolves if its leaves do. -/
theorem resolve_ok {s : Schema} {c : Condition} (h : ∀ l ∈ c.leaves, ∃ r, l.resolve s = .ok r) :
    ∃ r, c.resolve s = .ok r := by
  rw [← faultOf_eq_none, faultOf_resolve, List.findSome?_eq_none_iff]
  exact fun l hl => faultOf_eq_none.2 (h l hl)

end Condition

end CheckedSql
