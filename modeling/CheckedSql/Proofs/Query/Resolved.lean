/-
What resolves can be written. A renderer without missing features refuses a part of a statement only
for a flaw of its own, and resolution makes no such part: no group without members, no CASE without
branches, no membership test where only a value will do; nor an aggregate without the argument it
needs, unless it is given one.
-/
import CheckedSql.Proofs.Query.NormalForm
import CheckedSql.Proofs.Statement.Acceptance

namespace CheckedSql

variable {s : Schema} {r : Renderer}

/-! ## Renderers without missing features -/

/-- The renderer has every capability. -/
def Renderer.Full (r : Renderer) : Prop :=
  r.capabilities = {}

namespace Renderer

theorem Full.provides (hr : r.Full) (f : Feature) : r.capabilities.provides f = true := by
  rw [hr]
  cases f <;> rfl

end Renderer

theorem Node.supported_of_full (hr : r.Full) (n : Node) : n.Supported r.capabilities := by
  have hoperator (op : Operator) : op.Supported r.capabilities := by
    rw [hr]
    exact ⟨fun _ => rfl, fun _ => rfl⟩
  cases n with
  | cond c =>
    cases c with
    | compare column op param => exact hoperator op
    | compareColumns left op right => exact hoperator op
    | aggregate fn column op param => exact hoperator op
    | _ => trivial
  | expr e =>
    cases e with
    | binary left op right => exact hoperator op
    | aggregate fn arg filter window => exact fun _ => hr.provides .aggregateFilter
    | _ => trivial
  | window w => exact hr.provides .windowFunctions
  | key o =>
    obtain ⟨e, direction, nulls⟩ := o
    exact fun _ => hr.provides .nullsOrdering

theorem Node.meetsAll_iff_of_full (hr : r.Full) {n : Node} :
    r.MeetsAll n.demands ↔ n.WellFormed ∧ AllMet r n.parts := by
  rw [n.meetsAll_demands, and_iff_left (n.supported_of_full hr)]

/-- The demands of a node are met if it is well formed and those of each node right below it are. -/
theorem Node.meetsAll_of_full (hr : r.Full) {n : Node} (hn : n.WellFormed)
    (hparts : AllMet r n.parts) : r.MeetsAll n.demands :=
  (meetsAll_iff_of_full hr).2 ⟨hn, hparts⟩

/-! ## Conditions -/

theorem Cond.Normal.meetsAll (hr : r.Full) {c : Cond} (h : c.Normal s) :
    r.MeetsAll (Node.cond c).demands := by
  induction h with
  | group junction members hlength _ ih =>
    refine Node.meetsAll_of_full hr ?_ (List.forall_mem_map.2 ih)
    rintro rfl
    simp at hlength
  | compareColumns _ _ hop _ => exact Node.meetsAll_of_full hr hop (List.forall_mem_nil _)
  | _ => exact Node.meetsAll_of_full hr trivial (List.forall_mem_nil _)

theorem Condition.meetsAll_of_resolve (hr : r.Full) {c : Condition} {x : Option Cond}
    (h : c.resolve s = .ok x) : ∀ y ∈ x, r.MeetsAll (Node.cond y).demands := by
  rintro y rfl
  exact (Condition.resolve_some h).1.meetsAll hr

theorem Condition.meetsAll_of_resolve? (hr : r.Full) {c : Option Condition} {x : Option Cond}
    (h : Condition.resolve? s c = .ok x) : ∀ y ∈ x, r.MeetsAll (Node.cond y).demands := by
  cases c with
  | none =>
    cases h
    rintro y ⟨⟩
  | some c => exact Condition.meetsAll_of_resolve hr h

theorem meetsAll_of_attach (hr : r.Full) {c : Condition} {cs next : List Cond}
    (hcs : ∀ x ∈ cs, r.MeetsAll (Node.cond x).demands) (h : attach s c cs = .ok next) :
    ∀ x ∈ next, r.MeetsAll (Node.cond x).demands := by
  obtain ⟨x, hx, h⟩ := bind_ok h
  cases h
  refine List.forall_mem_append.2 ⟨hcs, fun y hy => ?_⟩
  exact Condition.meetsAll_of_resolve hr hx y (Option.mem_toList.1 hy)

/-- The conjunction of conditions is no group without members. -/
theorem Cond.meetsAll_all (hr : r.Full) {cs : List Cond}
    (h : ∀ c ∈ cs, r.MeetsAll (Node.cond c).demands) :
    ∀ c ∈ Cond.all cs, r.MeetsAll (Node.cond c).demands := by
  intro c hc
  match cs, hc with
  | [c], rfl => exact h c List.mem_cons_self
  | c :: d :: cs, rfl =>
    exact Node.meetsAll_of_full hr (List.cons_ne_nil _ _) (List.forall_mem_map.2 h)

/-! ## Orderings and windows -/

theorem OrderItem.meetsAll_of_column (hr : r.Full) (c : Column) (direction : Direction)
    (nulls : Option NullsOrder) :
    r.MeetsAll (Node.key (.mk (.column c) direction nulls)).demands := by
  refine Node.meetsAll_of_full hr trivial (List.forall_mem_singleton.2 ?_)
  exact Node.meetsAll_of_full hr trivial (List.forall_mem_nil _)

theorem OrderItem.meetsAll_of_resolve (hr : r.Full) {column direction : String}
    {nulls : Option String} {o : OrderItem}
    (h : OrderItem.resolve s column direction nulls = .ok o) :
    r.MeetsAll (Node.key o).demands := by
  obtain ⟨c, -, h⟩ := bind_ok h
  obtain ⟨d, -, h⟩ := bind_ok h
  cases nulls with
  | none =>
    cases h
    exact meetsAll_of_column hr _ _ _
  | some n =>
    obtain ⟨n, -, h⟩ := bind_ok h
    cases h
    exact meetsAll_of_column hr _ _ _

namespace WindowSpec

theorem meetsAll_of_resolveOrder (hr : r.Full) {keys : List (String × String)}
    {os : List OrderItem} (h : resolveOrder s keys = .ok os) :
    ∀ o ∈ os, r.MeetsAll (Node.key o).demands := by
  induction keys generalizing os with
  | nil =>
    cases h
    exact List.forall_mem_nil _
  | cons key keys ih =>
    obtain ⟨o, ho, h⟩ := bind_ok h
    obtain ⟨more, hmore, h⟩ := bind_ok h
    cases h
    exact List.forall_mem_cons.2 ⟨OrderItem.meetsAll_of_resolve hr ho, ih hmore⟩

theorem meetsAll_of_resolve (hr : r.Full) {w : WindowSpec} {x : Window}
    (h : w.resolve s = .ok x) : r.MeetsAll (Node.window x).demands := by
  obtain ⟨partitionBy, -, h⟩ := bind_ok h
  obtain ⟨orderBy, horder, h⟩ := bind_ok h
  cases h
  exact Node.meetsAll_of_full hr trivial
    (List.forall_mem_map.2 (meetsAll_of_resolveOrder hr horder))

theorem meetsAll_of_resolve? (hr : r.Full) {w : Option WindowSpec} {x : Option Window}
    (h : resolve? s w = .ok x) : ∀ y ∈ x, r.MeetsAll (Node.window y).demands := by
  cases w with
  | none =>
    cases h
    rintro y ⟨⟩
  | some w =>
    obtain ⟨x, hx, h⟩ := bind_ok h
    cases h
    rintro y ⟨⟩
    exact meetsAll_of_resolve hr hx

end WindowSpec

/-! ## Derived columns -/

namespace Projection

/-- A derived column as callers can make one: an aggregate without an argument is the number of
rows. -/
inductive Made : Projection → Prop
  | column (name : String) : Made (.column name)
  | param (name : String) : Made (.param name)
  | call (fn : ScalarFn) {args : List Projection} : (∀ p ∈ args, Made p) → Made (.call fn args)
  | cast {p : Projection} (type : String) : Made p → Made (.cast p type)
  | binary {left right : Projection} (op : String) : Made left → Made right →
      Made (.binary left op right)
  | aggregate {fn : AggregateFn} {arg : Option Projection} (filter : Option Condition)
      (window : Option WindowSpec) : (arg = none → fn = .count) → (∀ p ∈ arg, Made p) →
      Made (.aggregate fn arg filter window)
  | case {branches : List (Condition × Projection)} {otherwise : Option Projection} :
      (∀ b ∈ branches, Made b.2) → (∀ p ∈ otherwise, Made p) → Made (.case branches otherwise)
  | ranking (fn : WindowFn) (window : WindowSpec) : Made (.ranking fn window)

theorem forall_of_resolveAll {P : Expr → Prop} {ps : List Projection} {es : List Expr}
    (h : resolveAll s ps = .ok es) (hp : ∀ p ∈ ps, ∀ e, p.resolve s = .ok e → P e) :
    ∀ e ∈ es, P e := by
  induction ps generalizing es with
  | nil =>
    cases h
    exact List.forall_mem_nil _
  | cons p ps ih =>
    obtain ⟨hhead, htail⟩ := List.forall_mem_cons.1 hp
    unfold resolveAll at h
    obtain ⟨e, he, h⟩ := bind_ok h
    obtain ⟨more, hmore, h⟩ := bind_ok h
    cases h
    exact List.forall_mem_cons.2 ⟨hhead e he, ih hmore htail⟩

theorem forall_of_resolve? {P : Expr → Prop} {p : Option Projection} {x : Option Expr}
    (h : resolve? s p = .ok x) (hp : ∀ q ∈ p, ∀ e, q.resolve s = .ok e → P e) :
    (x = none → p = none) ∧ ∀ e ∈ x, P e := by
  cases p with
  | none =>
    cases h
    exact ⟨fun _ => rfl, by rintro e ⟨⟩⟩
  | some p =>
    unfold resolve? at h
    obtain ⟨e, he, h⟩ := bind_ok h
    cases h
    refine ⟨by rintro ⟨⟩, ?_⟩
    rintro _ ⟨⟩
    exact hp p rfl e he

theorem forall_of_resolveBranches (hr : r.Full) {P : Expr → Prop}
    {branches : List (Condition × Projection)} {bs : List (Cond × Expr)}
    (h : resolveBranches s branches = .ok bs)
    (hp : ∀ b ∈ branches, ∀ e, b.2.resolve s = .ok e → P e) :
    ∀ b ∈ bs, r.MeetsAll (Node.cond b.1).demands ∧ P b.2 := by
  induction branches generalizing bs with
  | nil =>
    cases h
    exact List.forall_mem_nil _
  | cons branch branches ih =>
    obtain ⟨hhead, htail⟩ := List.forall_mem_cons.1 hp
    unfold resolveBranches at h
    obtain ⟨c, hc, h⟩ := bind_ok h
    cases c with
    | none => cases h
    | some c =>
      obtain ⟨e, he, h⟩ := bind_ok h
      obtain ⟨more, hmore, h⟩ := bind_ok h
      cases h
      refine List.forall_mem_cons.2 ⟨⟨?_, hhead e he⟩, ih hmore htail⟩
      exact Condition.meetsAll_of_resolve hr hc c rfl

theorem meetsAll_toList {α : Type} {x : Option α} {node : α → Node}
    (h : ∀ y ∈ x, r.MeetsAll (node y).demands) : Node.AllMet r (x.map node).toList := by
  intro n hn
  obtain ⟨y, hy, rfl⟩ := Option.map_eq_some_iff.1 (Option.mem_toList.1 hn)
  exact h y hy

/-- A renderer without missing features writes whatever a derived column resolves to. -/
theorem Made.meetsAll (hr : r.Full) {p : Projection} (hp : p.Made) :
    ∀ e, p.resolve s = .ok e → r.MeetsAll (Node.expr e).demands := by
  -- on how the column is made: only an aggregate needs more of it than that it resolves
  induction hp with
  | column name =>
    intro e h
    unfold resolve at h
    obtain ⟨c, -, h⟩ := bind_ok h
    cases h
    exact Node.meetsAll_of_full hr trivial (List.forall_mem_nil _)
  | param name =>
    intro e h
    unfold resolve at h
    obtain ⟨x, -, h⟩ := bind_ok h
    cases h
    exact Node.meetsAll_of_full hr trivial (List.forall_mem_nil _)
  | call fn _ ih =>
    intro e h
    unfold resolve at h
    obtain ⟨es, hes, h⟩ := bind_ok h
    cases h
    exact Node.meetsAll_of_full hr trivial (List.forall_mem_map.2 (forall_of_resolveAll hes ih))
  | cast type _ ih =>
    intro e h
    unfold resolve at h
    obtain ⟨x, hx, h⟩ := bind_ok h
    obtain ⟨t, -, h⟩ := bind_ok h
    cases h
    exact Node.meetsAll_of_full hr trivial (List.forall_mem_singleton.2 (ih x hx))
  | binary op _ _ ihl ihr =>
    intro e h
    unfold resolve at h
    obtain ⟨l, hl, h⟩ := bind_ok h
    obtain ⟨o, -, h⟩ := bind_ok h
    split at h
    · cases h
    · rename_i hmembership
      obtain ⟨x, hx, h⟩ := bind_ok h
      cases h
      have hscalar : o.isMembership = false := by simpa using hmembership
      refine Node.meetsAll_of_full hr hscalar ?_
      exact List.forall_mem_cons.2 ⟨ihl l hl, List.forall_mem_singleton.2 (ihr x hx)⟩
  | aggregate filter window hcount _ ih =>
    intro e h
    unfold resolve at h
    obtain ⟨c, hc, h⟩ := bind_ok h
    obtain ⟨a, ha, h⟩ := bind_ok h
    obtain ⟨w, hw, h⟩ := bind_ok h
    cases h
    obtain ⟨hnone, harg⟩ := forall_of_resolve? ha ih
    refine Node.meetsAll_of_full hr (fun ha => hcount (hnone ha)) ?_
    refine List.forall_mem_append.2 ⟨List.forall_mem_append.2 ⟨meetsAll_toList harg, ?_⟩, ?_⟩
    · exact meetsAll_toList (Condition.meetsAll_of_resolve? hr hc)
    · exact meetsAll_toList (WindowSpec.meetsAll_of_resolve? hr hw)
  | case _ _ ihb iho =>
    intro e h
    unfold resolve at h
    obtain ⟨bs, hbs, h⟩ := bind_ok h
    split at h
    · cases h
    · rename_i hne
      obtain ⟨o, ho, h⟩ := bind_ok h
      cases h
      refine Node.meetsAll_of_full hr (fun hnil => hne (List.isEmpty_iff.2 hnil)) ?_
      refine List.forall_mem_append.2 ⟨?_, meetsAll_toList (forall_of_resolve? ho iho).2⟩
      refine Node.allMet_flatMap.2 fun b hb => ?_
      obtain ⟨hcond, hexpr⟩ := forall_of_resolveBranches hr hbs ihb b hb
      exact List.forall_mem_cons.2 ⟨hcond, List.forall_mem_singleton.2 hexpr⟩
  | ranking fn window =>
    intro e h
    unfold resolve at h
    obtain ⟨w, hw, h⟩ := bind_ok h
    cases h
    exact Node.meetsAll_of_full hr trivial
      (List.forall_mem_singleton.2 (WindowSpec.meetsAll_of_resolve hr hw))

end Projection

end CheckedSql
