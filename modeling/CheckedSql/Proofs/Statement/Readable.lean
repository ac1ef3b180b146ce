/-
Which statements can be read back: those without a flaw whose groups of conditions have at least two
members each. A group of one is written like its member in parentheses, and nothing in the text of
COUNT( * ) tells whether distinct rows are counted.
-/
import CheckedSql.Proofs.Statement.Parts

namespace CheckedSql

/-! ## Groups -/

mutual

/-- The numbers of members of the groups in a condition. -/
def Cond.groupSizes : Cond → List Nat
  | .group _ members => members.length :: Cond.groupSizesAll members
  | _ => []

/-- The numbers of members of the groups in a list of conditions. -/
def Cond.groupSizesAll : List Cond → List Nat
  | [] => []
  | c :: cs => c.groupSizes ++ Cond.groupSizesAll cs

end

mutual

/-- The numbers of members of the groups in an expression. -/
def Expr.groupSizes : Expr → List Nat
  | .column _ | .param _ => []
  | .call _ args => Expr.groupSizesAll args
  | .cast e _ => e.groupSizes
  | .binary left _ right => left.groupSizes ++ right.groupSizes
  | .aggregate _ arg filter window =>
    Expr.groupSizes? arg ++ (filter.map Cond.groupSizes).getD [] ++ Window.groupSizes? window
  | .case branches otherwise => Expr.branchGroupSizes branches ++ Expr.groupSizes? otherwise
  | .ranking _ window => window.groupSizes

/-- The numbers of members of the groups in a list of expressions. -/
def Expr.groupSizesAll : List Expr → List Nat
  | [] => []
  | e :: es => e.groupSizes ++ Expr.groupSizesAll es

/-- The numbers of members of the groups in an expression that may be absent. -/
def Expr.groupSizes? : Option Expr → List Nat
  | none => []
  | some e => e.groupSizes

/-- The numbers of members of the groups in the branches of a CASE. -/
def Expr.branchGroupSizes : List (Cond × Expr) → List Nat
  | [] => []
  | (c, e) :: rest => c.groupSizes ++ e.groupSizes ++ Expr.branchGroupSizes rest

/-- The numbers of members of the groups in a window. -/
def Window.groupSizes : Window → List Nat
  | .mk _ orderBy => OrderItem.groupSizesAll orderBy

/-- The numbers of members of the groups in a window that may be absent. -/
def Window.groupSizes? : Option Window → List Nat
  | none => []
  | some w => w.groupSizes

/-- The numbers of members of the groups in a key of an ordering. -/
def OrderItem.groupSizes : OrderItem → List Nat
  | .mk expr _ _ => expr.groupSizes

/-- The numbers of members of the groups in an ordering. -/
def OrderItem.groupSizesAll : List OrderItem → List Nat
  | [] => []
  | o :: os => o.groupSizes ++ OrderItem.groupSizesAll os

end

/-- The numbers of members of the groups in a SELECT. -/
def SelectStatement.groupSizes (s : SelectStatement) : List Nat :=
  s.items.flatMap (·.expr.groupSizes) ++ Cond.groupSizesAll s.conditions
    ++ Cond.groupSizesAll s.having ++ OrderItem.groupSizesAll s.orderBy

/-- The numbers of members of the groups in a statement. -/
def Statement.groupSizes : Statement → List Nat
  | .select s => s.groupSizes
  | .insert _ => []
  | .update s => Cond.groupSizesAll s.conditions
  | .delete s => Cond.groupSizesAll s.conditions
  | .compound s => s.operands.flatMap (·.groupSizes) ++ OrderItem.groupSizesAll s.orderBy

theorem Cond.groupSizesAll_eq_flatMap (cs : List Cond) :
    Cond.groupSizesAll cs = cs.flatMap Cond.groupSizes :=
  eq_flatMap_of_cons rfl (fun _ _ => rfl) cs

theorem Expr.groupSizesAll_eq_flatMap (es : List Expr) :
    Expr.groupSizesAll es = es.flatMap Expr.groupSizes :=
  eq_flatMap_of_cons rfl (fun _ _ => rfl) es

theorem OrderItem.groupSizesAll_eq_flatMap (os : List OrderItem) :
    OrderItem.groupSizesAll os = os.flatMap OrderItem.groupSizes :=
  eq_flatMap_of_cons rfl (fun _ _ => rfl) os

/-! ## Parts that can be read back -/

/-- Groups of at least two members each, and no flaw. -/
structure Sound (groupSizes : List Nat) (demands : List Demand) : Prop where
  wide : ∀ n ∈ groupSizes, 2 ≤ n
  flawless : ∀ f, .flaw f ∉ demands

namespace Sound

variable {m n : List Nat} {d e : List Demand}

theorem left (h : Sound (m ++ n) (d ++ e)) : Sound m d :=
  ⟨fun k hk => h.wide k (List.mem_append_left _ hk),
    fun f hf => h.flawless f (List.mem_append_left _ hf)⟩

theorem right (h : Sound (m ++ n) (d ++ e)) : Sound n e :=
  ⟨fun k hk => h.wide k (List.mem_append_right _ hk),
    fun f hf => h.flawless f (List.mem_append_right _ hf)⟩

theorem demands_left (h : Sound m (d ++ e)) : Sound m d :=
  ⟨h.wide, fun f hf => h.flawless f (List.mem_append_left _ hf)⟩

theorem demands_right (h : Sound m (d ++ e)) : Sound m e :=
  ⟨h.wide, fun f hf => h.flawless f (List.mem_append_right _ hf)⟩

/-- What is demanded on top of the rest does not matter. -/
theorem tail {x : Demand} (h : Sound m (x :: d)) : Sound m d :=
  h.demands_right (d := [x])

/-- What is sound as a whole is sound in each of its parts. -/
theorem each {α : Type} {sizes : α → List Nat} {demands : α → List Demand} {xs : List α}
    (h : Sound (xs.flatMap sizes) (xs.flatMap demands)) {x : α} (hx : x ∈ xs) :
    Sound (sizes x) (demands x) :=
  ⟨fun k hk => h.wide k (List.mem_flatMap.2 ⟨x, hx, hk⟩),
    fun f hf => h.flawless f (List.mem_flatMap.2 ⟨x, hx, hf⟩)⟩

theorem not_flaw {f : Flaw} (h : Sound m (.flaw f :: d)) : False :=
  h.flawless f List.mem_cons_self

end Sound

def Cond.Readable (c : Cond) : Prop :=
  Sound c.groupSizes c.demands

def Expr.Readable (e : Expr) : Prop :=
  Sound e.groupSizes e.demands

def Window.Readable (w : Window) : Prop :=
  Sound w.groupSizes w.demands

def OrderItem.Readable (o : OrderItem) : Prop :=
  Sound o.groupSizes o.demands

theorem Cond.readable_each {cs : List Cond}
    (h : Sound (Cond.groupSizesAll cs) (Cond.demandsAll cs)) : ∀ c ∈ cs, c.Readable := by
  rw [groupSizesAll_eq_flatMap, demandsAll_eq_flatMap] at h
  exact fun c hc => h.each hc

theorem Expr.readable_each {es : List Expr}
    (h : Sound (Expr.groupSizesAll es) (Expr.demandsAll es)) : ∀ e ∈ es, e.Readable := by
  rw [groupSizesAll_eq_flatMap, demandsAll_eq_flatMap] at h
  exact fun e he => h.each he

theorem OrderItem.readable_each {os : List OrderItem}
    (h : Sound (OrderItem.groupSizesAll os) (OrderItem.demandsAll os)) : ∀ o ∈ os, o.Readable := by
  rw [groupSizesAll_eq_flatMap, demandsAll_eq_flatMap] at h
  exact fun o ho => h.each ho

/-! ## From a part to its own parts -/

theorem AggregateFn.ne_countDistinct {fn : AggregateFn} {m : List Nat}
    (h : Sound m fn.bareDemands) : fn ≠ .countDistinct := by
  rintro rfl
  exact h.not_flaw

theorem Cond.readable_group {junction : Junction} {members : List Cond}
    (h : (Cond.group junction members).Readable) :
    2 ≤ members.length ∧ ∀ c ∈ members, c.Readable := by
  obtain ⟨hw, hf⟩ := h
  have hlength : 2 ≤ members.length := hw _ List.mem_cons_self
  refine ⟨hlength, Cond.readable_each ⟨fun n hn => hw n (.tail _ hn), fun f hm => hf f ?_⟩⟩
  cases members with
  | nil => simp at hlength
  | cons c cs => exact hm

theorem Cond.readable_aggregate {fn : AggregateFn} {column : Option Column} {op : Operator}
    {p : Param} (h : (Cond.aggregate fn column op p).Readable) (hc : column = none) :
    fn ≠ .countDistinct := by
  subst hc
  exact AggregateFn.ne_countDistinct (Sound.demands_left h)

theorem Expr.readable_binary {left right : Expr} {op : Operator}
    (h : (Expr.binary left op right).Readable) : left.Readable ∧ right.Readable := by
  unfold Expr.Readable Expr.groupSizes Expr.demands at h
  by_cases hop : op.isMembership
  · rw [if_pos hop] at h
    exact h.not_flaw.elim
  · rw [if_neg hop, List.append_assoc] at h
    have hsides := h.demands_right
    exact ⟨hsides.left, hsides.right⟩

theorem Expr.readable_aggregate {fn : AggregateFn} {arg : Option Expr} {filter : Option Cond}
    {window : Option Window} (h : (Expr.aggregate fn arg filter window).Readable) :
    (∀ e ∈ arg, e.Readable) ∧ (arg = none → fn ≠ .countDistinct) ∧ (∀ c ∈ filter, c.Readable) ∧
      ∀ w ∈ window, w.Readable := by
  have hdemands : (Expr.aggregate fn arg filter window).demands =
      (arg.map Expr.demands).getD fn.bareDemands
        ++ (filter.map fun c => .feature .aggregateFilter :: c.demands).getD []
        ++ Window.demands? window := by
    cases arg <;> cases filter <;> simp only [Expr.demands] <;> rfl
  unfold Expr.Readable Expr.groupSizes at h
  rw [hdemands] at h
  have harg := h.left.left
  have hfilter := h.left.right
  refine ⟨?_, ?_, ?_, ?_⟩
  · rintro e ⟨⟩; exact harg
  · rintro rfl; exact AggregateFn.ne_countDistinct harg
  · rintro c ⟨⟩; exact hfilter.tail
  · rintro w ⟨⟩; exact h.right

theorem Expr.readable_branches {branches : List (Cond × Expr)}
    (h : Sound (Expr.branchGroupSizes branches) (Expr.branchDemands branches)) :
    ∀ b ∈ branches, b.1.Readable ∧ b.2.Readable := by
  induction branches with
  | nil => rintro b ⟨⟩
  | cons d branches ih =>
    obtain ⟨c, e⟩ := d
    intro b hb
    rcases List.mem_cons.1 hb with rfl | hb
    · exact ⟨h.left.left, h.left.right⟩
    · exact ih h.right b hb

theorem Expr.readable_case {branches : List (Cond × Expr)} {otherwise : Option Expr}
    (h : (Expr.case branches otherwise).Readable) :
    (∀ b ∈ branches, b.1.Readable ∧ b.2.Readable) ∧ ∀ e ∈ otherwise, e.Readable := by
  unfold Expr.Readable Expr.groupSizes Expr.demands at h
  by_cases hb : branches.isEmpty
  · rw [if_pos hb] at h
    exact h.not_flaw.elim
  · rw [if_neg hb] at h
    refine ⟨Expr.readable_branches h.left, ?_⟩
    rintro e ⟨⟩
    exact h.right

theorem Window.readable_mk {partitionBy : List Column} {orderBy : List OrderItem}
    (h : (Window.mk partitionBy orderBy).Readable) : ∀ o ∈ orderBy, o.Readable :=
  OrderItem.readable_each (Sound.tail h)

theorem OrderItem.readable_mk {e : Expr} {direction : Direction} {nulls : Option NullsOrder}
    (h : (OrderItem.mk e direction nulls).Readable) : e.Readable :=
  Sound.demands_left h

theorem SelectStatement.readable {s : SelectStatement} (h : Sound s.groupSizes s.demands) :
    (∀ i ∈ s.items, i.expr.Readable) ∧ (∀ c ∈ s.conditions, c.Readable) ∧
      (∀ c ∈ s.having, c.Readable) ∧ ∀ o ∈ s.orderBy, o.Readable := by
  have hclauses := h.demands_left
  exact ⟨fun i hi => hclauses.left.left.left.each hi, Cond.readable_each hclauses.left.left.right,
    Cond.readable_each hclauses.left.right, OrderItem.readable_each hclauses.right⟩

end CheckedSql
