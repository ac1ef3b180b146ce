/-
Why a statement is refused: the first of its demands that is not met. Demands that are listed one
after the other are refused for the first list that has one, and a statement is sent exactly when
there is none. Conditions ask for no feature but those of their operators.
-/
import CheckedSql.Proofs.Numbering
import Mathlib.Data.List.Find

namespace CheckedSql

namespace Renderer

/-- The error that the first unmet demand of a list makes, if there is one. -/
def refusal? (r : Renderer) (ds : List Demand) : Option QueryError :=
  (ds.find? (!r.meets ·)).map r.refusal

variable {r : Renderer}

theorem refusal?_eq_none {ds : List Demand} :
    r.refusal? ds = none ↔ ∀ d ∈ ds, r.meets d = true := by
  rw [refusal?, Option.map_eq_none_iff, List.find?_eq_none]
  simp

@[simp]
theorem refusal?_append (ds es : List Demand) :
    r.refusal? (ds ++ es) = (r.refusal? ds).or (r.refusal? es) := by
  rw [refusal?, List.find?_append]
  unfold refusal?
  cases ds.find? (!r.meets ·) <;> rfl

/-- Renderers of one dialect that agree on which demands of a list are met. -/
theorem refusal?_congr {r' : Renderer} (hdialect : r'.dialect = r.dialect) {ds : List Demand}
    (h : ∀ d ∈ ds, r'.meets d = r.meets d) : r'.refusal? ds = r.refusal? ds := by
  have hrefusal : r'.refusal = r.refusal := by
    funext d
    cases d with
    | feature f => rw [refusal, refusal, hdialect]
    | flaw f => rfl
  have hfind : ds.find? (!r'.meets ·) = ds.find? (!r.meets ·) :=
    List.find?_congr fun d hd => congrArg (!·) (h d hd)
  rw [refusal?, refusal?, hfind, hrefusal]

/-- A statement is sent as its tokens are written, unless it is refused. -/
theorem render_eq (s : Statement) :
    r.render s =
      match r.refusal? s.demands with
      | some e => .error e
      | none => .ok (Rendered.ofTokens s.tokens) := by
  unfold render refusal?
  cases s.demands.find? (!r.meets ·) <;> rfl

theorem render_eq_ok {s : Statement} {o : Rendered} :
    r.render s = .ok o ↔ r.refusal? s.demands = none ∧ o = Rendered.ofTokens s.tokens := by
  rw [render_eq]
  cases r.refusal? s.demands with
  | none =>
    show Except.ok (Rendered.ofTokens s.tokens) = Except.ok o ↔ _
    rw [Except.ok.injEq, eq_comm]
    simp
  | some e => simp

theorem render_eq_error {s : Statement} {e : QueryError} :
    r.render s = .error e ↔ r.refusal? s.demands = some e := by
  rw [render_eq]
  cases r.refusal? s.demands <;> simp

end Renderer

/-! ## What conditions demand -/

/-- A demand that a condition may make: a feature of an operator, or that there is no flaw. -/
def Demand.OfCondition : Demand → Prop
  | .flaw _ | .feature (.vectorOperator _) | .feature (.arrayParam _) => True
  | .feature _ => False

theorem Operator.demands_ofCondition (op : Operator) : ∀ d ∈ op.demands, d.OfCondition := by
  refine List.forall_mem_append.2 ⟨?_, ?_⟩ <;> split <;> simp [Demand.OfCondition]

theorem AggregateFn.demands_ofCondition (fn : AggregateFn) :
    ∀ d ∈ fn.bareDemands, d.OfCondition := by
  unfold bareDemands
  split <;> simp [Demand.OfCondition]

mutual

theorem Cond.demands_ofCondition : ∀ c : Cond, ∀ d ∈ c.demands, d.OfCondition
  | .compare _ op _ => op.demands_ofCondition
  | .compareColumns _ op _ => by
    rw [Cond.demands]
    split
    · simp [Demand.OfCondition]
    · exact op.demands_ofCondition
  | .null _ _ | .nullSafeEq _ _ | .between _ _ _ _ => by simp [Cond.demands]
  | .aggregate fn column op _ => by
    rw [Cond.demands]
    refine List.forall_mem_append.2 ⟨?_, op.demands_ofCondition⟩
    split
    · exact List.forall_mem_nil _
    · exact fn.demands_ofCondition
  | .group _ members => by
    rw [Cond.demands]
    split
    · simp [Demand.OfCondition]
    · exact Cond.demandsAll_ofCondition members

theorem Cond.demandsAll_ofCondition : ∀ cs : List Cond, ∀ d ∈ Cond.demandsAll cs, d.OfCondition
  | [] => List.forall_mem_nil _
  | c :: cs => List.forall_mem_append.2 ⟨c.demands_ofCondition, Cond.demandsAll_ofCondition cs⟩

end

end CheckedSql
