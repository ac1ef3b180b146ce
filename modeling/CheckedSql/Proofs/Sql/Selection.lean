/-
The rows that a query selects, as SQL decides it. A comparison with NULL is unknown, whether a value
is NULL never is, AND and OR follow the logic of three truth values; a row is selected if the
condition behind WHERE is true of it, and every row if there is none.
-/
import CheckedSql.Proofs.Sql.Formula
import CheckedSql.Proofs.Sql.Scan
import Mathlib.Data.List.Forall2

namespace CheckedSql

variable {V : Type} [BEq V]

/-! ## Tests of values -/

namespace Truth

/-- A test that is never unknown. -/
def ofBool : Bool → Truth
  | true => .yes
  | false => .no

/-- Equality of two values, of which `none` is NULL. -/
def equal : Option V → Option V → Truth
  | some a, some b => .ofBool (a == b)
  | _, _ => .unknown

omit [BEq V] in
/-- Whether a value is NULL. -/
def isNull (x : Option V) : Truth :=
  .ofBool x.isNone

end Truth

/-- Two values that are both NULL, or equal and neither NULL. -/
def Agree (x y : Option V) : Prop :=
  (x = none ∧ y = none) ∨ ∃ a b, x = some a ∧ y = some b ∧ (a == b) = true

theorem Agree.refl [ReflBEq V] (x : Option V) : Agree x x := by
  cases x with
  | none => exact .inl ⟨rfl, rfl⟩
  | some a => exact .inr ⟨a, a, rfl, rfl, BEq.rfl⟩

namespace Truth

theorem ofBool_eq_yes {b : Bool} : ofBool b = .yes ↔ b = true := by
  cases b <;> decide

theorem or_eq_yes {t u : Truth} : t.or u = .yes ↔ t = .yes ∨ u = .yes := by
  cases t <;> cases u <;> decide

theorem and_eq_yes {t u : Truth} : t.and u = .yes ↔ t = .yes ∧ u = .yes := by
  cases t <;> cases u <;> decide

omit [BEq V] in
theorem isNull_eq_yes {x : Option V} : isNull x = .yes ↔ x = none := by
  rw [isNull, ofBool_eq_yes, Option.isNone_iff_eq_none]

/-- A plain comparison holds of values that agree and are not NULL. -/
theorem equal_eq_yes {x y : Option V} : equal x y = .yes ↔ Agree x y ∧ x ≠ none := by
  rcases x with _ | a <;> rcases y with _ | b <;> simp [equal, Agree, ofBool_eq_yes]

/-- The comparison that takes NULL for equal holds of values that agree. -/
theorem nullSafe_eq_yes {x y : Option V} :
    (equal x y).or ((isNull x).and (isNull y)) = .yes ↔ Agree x y := by
  rw [or_eq_yes, and_eq_yes, equal_eq_yes, isNull_eq_yes, isNull_eq_yes]
  constructor
  · rintro (⟨h, -⟩ | h)
    · exact h
    · exact .inl h
  · rintro (h | ⟨a, b, rfl, rfl, h⟩)
    · exact .inr h
    · exact .inl ⟨.inr ⟨a, b, rfl, rfl, h⟩, Option.some_ne_none a⟩

end Truth

namespace Sql

/-! ## Predicates and formulas -/

/-- A row, by its columns, and the values of the placeholders. -/
structure Scope (V : Type) where
  row : String → Option V
  args : List (Option V)

namespace Scope

variable (σ : Scope V)

omit [BEq V] in
/-- The value of an operand. -/
def operand : Token Nat → Option (Option V)
  | .identifier name => some (σ.row name)
  | .param n => σ.args[n - 1]?
  | _ => none

/-- What a predicate comes to; of other predicates than these two nothing is said. -/
def test : List (Token Nat) → Option Truth
  | [x, .symbol .eq, y] => do return Truth.equal (← σ.operand x) (← σ.operand y)
  | [x, .keyword .IS, .keyword .NULL] => do return Truth.isNull (← σ.operand x)
  | _ => none

end Scope

namespace Formula

variable {π : Type} (test : List (Token π) → Option Truth)

/-- What a formula comes to, if each of its predicates comes to something. -/
def value : Formula π → Option Truth
  | predicate ts => test ts
  | combine j left right => do return j.apply (← left.value) (← right.value)

theorem value_combine {j : Junction} {left right : Formula π} {t u : Truth}
    (hleft : left.value test = some t) (hright : right.value test = some u) :
    (combine j left right).value test = some (j.apply t u) := by
  rw [value, hleft, hright]
  rfl

/-- Formulas that are joined come to what they come to, joined. -/
theorem value_joined {j : Junction} {f : Formula π} {fs : List (Formula π)} {ts : List Truth}
    (h : List.Forall₂ (fun g t => g.value test = some t) (f :: fs) ts) :
    (joined j f fs).value test = some (j.join ts) := by
  induction fs generalizing f ts with
  | nil =>
    obtain ⟨t, _, ht, hnil, rfl⟩ := List.forall₂_cons_left_iff.1 h
    cases hnil
    rw [Junction.join_cons, Junction.join_nil, Junction.apply_neutral]
    exact ht
  | cons g fs ih =>
    obtain ⟨t, _, ht, hrest, rfl⟩ := List.forall₂_cons_left_iff.1 h
    obtain ⟨u, us, hu, hus, rfl⟩ := List.forall₂_cons_left_iff.1 hrest
    have hgrouped := ih (f := .combine j f g) (.cons (value_combine test ht hu) hus)
    rw [Junction.join_cons, Junction.apply_assoc] at hgrouped
    exact hgrouped

end Formula

/-! ## The condition of a query -/

section

variable {π : Type} [DecidableEq π]

/-- What stands behind a word that is in no parentheses, of which `depth` are open. -/
def behindWord (k : Keyword) : (depth : Nat) → List (Token π) → Option (List (Token π))
  | _, [] => none
  | depth, t :: ts =>
    if t.opens then behindWord k (depth + 1) ts
    else if t.closes then behindWord k (depth - 1) ts
    else if depth = 0 ∧ t = .keyword k then some ts
    else behindWord k depth ts

theorem behindWord_eq_none {k : Keyword} {ts : List (Token π)} (h : .keyword k ∉ ts)
    (depth : Nat) : behindWord k depth ts = none := by
  induction ts generalizing depth with
  | nil => rfl
  | cons t ts ih =>
    rw [List.mem_cons, not_or] at h
    have hne : ¬(depth = 0 ∧ t = .keyword k) := fun hk => h.1 hk.2.symm
    unfold behindWord
    rw [if_neg hne]
    split
    · exact ih h.2 _
    · split <;> exact ih h.2 _

theorem behindWord_cons {k : Keyword} {t : Token π} (ho : t.opens = false) (hc : t.closes = false)
    (hk : t ≠ .keyword k) (depth : Nat) (ts : List (Token π)) :
    behindWord k depth (t :: ts) = behindWord k depth ts := by
  simp [behindWord, ho, hc, hk]

/-- A balanced part without the word is passed over, whatever is open around it. -/
theorem Balanced.behindWord_append {k : Keyword} {ts : List (Token π)} (h : Balanced ts)
    (hk : .keyword k ∉ ts) (depth : Nat) (us : List (Token π)) :
    behindWord k depth (ts ++ us) = behindWord k depth us := by
  induction h generalizing depth us with
  | nil => rfl
  | single ho hc =>
    exact behindWord_cons ho hc (fun ht => hk (List.mem_singleton.2 ht.symm)) depth us
  | append _ _ iht ihu =>
    rw [List.mem_append, not_or] at hk
    rw [List.append_assoc, iht hk.1, ihu hk.2]
  | @bracket t ts ho _ ih =>
    have hts : .keyword k ∉ ts := fun hm => hk (by simp [hm])
    have hopen : behindWord k depth (t :: (ts ++ ([Token.symbol .closeParen] ++ us))) =
        behindWord k (depth + 1) (ts ++ ([Token.symbol .closeParen] ++ us)) := by
      simp [behindWord, ho]
    rw [List.append_assoc, List.cons_append, hopen, ih hts]
    simp [behindWord, Token.opens, Token.closes]

theorem behindWord_keyword (k : Keyword) (ts : List (Token π)) :
    behindWord k 0 (.keyword k :: ts) = some ts := by
  simp [behindWord, Token.opens, Token.closes]

end

/-- What the condition of a query comes to for a row; without one it holds. -/
def Scope.selects (σ : Scope V) (sql : String) : Option Truth := do
  let ts ← scan sql
  match behindWord .WHERE 0 ts with
  | none => return .yes
  | some text => do
    let (f, _) ← Formula.ofTokens text
    f.value σ.test

end Sql

end CheckedSql
