/-
Which statements are sent. What a statement consists of is a tree: conditions, expressions, windows
and keys of orderings, each with parts of its own. A renderer sends a statement if and only if the
statement and each node of its tree, at whatever depth, is sound and uses no feature that is not
there; what is sent does not depend on the renderer.
-/
import CheckedSql.Proofs.Refusal
import CheckedSql.Proofs.Statement.Parts
import Mathlib.Logic.Relation

namespace CheckedSql

/-! ## Nodes -/

/-- A node of a statement's tree. -/
inductive Node
  | cond (c : Cond)
  | expr (e : Expr)
  | window (w : Window)
  | key (o : OrderItem)

namespace Node

/-- The nodes right below a node. -/
def parts : Node → List Node
  | cond (.group _ members) => members.map cond
  | expr (.call _ args) => args.map expr
  | expr (.cast e _) => [expr e]
  | expr (.binary left _ right) => [expr left, expr right]
  | expr (.aggregate _ arg filter w) =>
    (arg.map expr).toList ++ (filter.map cond).toList ++ (w.map window).toList
  | expr (.case branches otherwise) =>
    branches.flatMap (fun b => [cond b.1, expr b.2]) ++ (otherwise.map expr).toList
  | expr (.ranking _ w) => [window w]
  | window (.mk _ orderBy) => orderBy.map key
  | key (.mk e _ _) => [expr e]
  | _ => []

/-- The second node is right below the first. -/
def IsPart (n m : Node) : Prop :=
  m ∈ n.parts

/-- The second node is the first, or below it at some depth. -/
def Within : Node → Node → Prop :=
  Relation.ReflTransGen IsPart

/-- What no dialect makes good is not there: a group without members, a CASE without branches, a
membership test of a column or between expressions, an aggregate of whole rows other than their
number. -/
def WellFormed : Node → Prop
  | cond (.compareColumns _ op _) => op.isMembership = false
  | cond (.aggregate fn column _ _) => column = none → fn = .count
  | cond (.group _ members) => members ≠ []
  | expr (.binary _ op _) => op.isMembership = false
  | expr (.aggregate fn arg _ _) => arg = none → fn = .count
  | expr (.case branches _) => branches ≠ []
  | _ => True

end Node

/-- The features that an operator uses are there. -/
def Operator.Supported (caps : Capabilities) (op : Operator) : Prop :=
  (op.isMembership = true → caps.arrayParams = true) ∧ (op.isVector = true → caps.vectorOps = true)

/-- The features that a node itself uses are there. -/
def Node.Supported (caps : Capabilities) : Node → Prop
  | cond (.compare _ op _) | cond (.compareColumns _ op _) | cond (.aggregate _ _ op _) =>
    op.Supported caps
  | expr (.binary _ op _) => op.Supported caps
  | expr (.aggregate _ _ filter _) => filter.isSome = true → caps.aggregateFilter = true
  | window _ => caps.windowFunctions = true
  | key (.mk _ _ nulls) => nulls.isSome = true → caps.nullsOrdering = true
  | _ => True

/-! ## Statements -/

/-- The nodes at the top of a SELECT. -/
def SelectStatement.nodes (s : SelectStatement) : List Node :=
  s.items.map (.expr ·.expr) ++ s.conditions.map .cond ++ s.having.map .cond ++ s.orderBy.map .key

namespace Statement

/-- The nodes at the top of a statement. -/
def nodes : Statement → List Node
  | select s => s.nodes
  | insert _ => []
  | update s => s.conditions.map .cond
  | delete s => s.conditions.map .cond
  | compound s => s.operands.flatMap (·.nodes) ++ s.orderBy.map .key

/-- A node that a statement holds at some depth. -/
def Holds (s : Statement) (n : Node) : Prop :=
  ∃ top ∈ s.nodes, top.Within n

/-- The clauses of a statement fit together. -/
def ClausesWellFormed : Statement → Prop
  | select _ | delete _ => True
  | insert s =>
    s.rows ≠ [] ∧ (∀ row ∈ s.rows, row.length = s.columns.length) ∧
      ∀ target columns, s.conflict = some (.overwrite target columns) → target ≠ [] ∧ columns ≠ []
  | update s => s.assignments ≠ []
  | compound s => ∀ q ∈ s.operands, q.lock = none

/-- The features that the clauses of a statement use are there. -/
def ClausesSupported (caps : Capabilities) : Statement → Prop
  | select s => s.lock.isSome = true → caps.rowLocking = true
  | insert s =>
    (s.conflict.isSome = true → caps.upsert = true) ∧
      (s.returning ≠ [] → caps.returningOnInsert = true)
  | update s => s.returning ≠ [] → caps.returningOnUpdate = true
  | delete _ => True
  | compound s => ∀ q ∈ s.operands, q.lock.isSome = true → caps.rowLocking = true

/-- A statement that makes sense in some dialect. -/
def WellFormed (s : Statement) : Prop :=
  s.ClausesWellFormed ∧ ∀ n, s.Holds n → n.WellFormed

/-- A statement that uses no feature that is not there. -/
def Supported (caps : Capabilities) (s : Statement) : Prop :=
  s.ClausesSupported caps ∧ ∀ n, s.Holds n → n.Supported caps

end Statement

/-! ## Demands that are met -/

namespace Renderer

/-- All of a list of demands are met. -/
def MeetsAll (r : Renderer) (ds : List Demand) : Prop :=
  ∀ d ∈ ds, r.meets d = true

variable {r : Renderer}

@[simp]
theorem meetsAll_nil : r.MeetsAll [] :=
  fun _ hd => absurd hd List.not_mem_nil

@[simp]
theorem meetsAll_append {ds es : List Demand} :
    r.MeetsAll (ds ++ es) ↔ r.MeetsAll ds ∧ r.MeetsAll es :=
  List.forall_mem_append

@[simp]
theorem meetsAll_feature {f : Feature} {ds : List Demand} :
    r.MeetsAll (.feature f :: ds) ↔ r.capabilities.provides f = true ∧ r.MeetsAll ds :=
  List.forall_mem_cons

@[simp]
theorem meetsAll_flaw {f : Flaw} {ds : List Demand} : ¬r.MeetsAll (.flaw f :: ds) :=
  fun h => Bool.false_ne_true (h _ List.mem_cons_self)

theorem meetsAll_flatMap {α : Type} {demands : α → List Demand} {xs : List α} :
    r.MeetsAll (xs.flatMap demands) ↔ ∀ x ∈ xs, r.MeetsAll (demands x) := by
  unfold MeetsAll
  simp only [List.mem_flatMap, forall_exists_index, and_imp]
  exact ⟨fun h x hx d hd => h d x hx hd, fun h d x hx hd => h x hx d hd⟩

/-- A feature that is demanded under a condition. -/
theorem meetsAll_feature_if {p : Prop} [Decidable p] {f : Feature} :
    r.MeetsAll (if p then [.feature f] else []) ↔ (p → r.capabilities.provides f = true) := by
  split <;> simp [*]

theorem meetsAll_feature_unless {p : Prop} [Decidable p] {f : Feature} :
    r.MeetsAll (if p then [] else [.feature f]) ↔ (¬p → r.capabilities.provides f = true) := by
  split <;> simp [*]

/-- A flaw unless a condition holds. -/
theorem meetsAll_flaw_unless {p : Prop} [Decidable p] {f : Flaw} :
    r.MeetsAll (if p then [] else [.flaw f]) ↔ p := by
  split <;> simp [*]

theorem meetsAll_flaw_if {p : Prop} [Decidable p] {f : Flaw} {ds : List Demand} :
    r.MeetsAll (if p then [.flaw f] else ds) ↔ ¬p ∧ r.MeetsAll ds := by
  split <;> simp [*]

theorem meetsAll_operator {op : Operator} :
    r.MeetsAll op.demands ↔ op.Supported r.capabilities := by
  rw [Operator.demands, meetsAll_append, meetsAll_feature_if, meetsAll_feature_if, and_comm]
  rfl

theorem meetsAll_bare {fn : AggregateFn} : r.MeetsAll fn.bareDemands ↔ fn = .count :=
  meetsAll_flaw_unless

end Renderer

namespace Node

/-- The demands of a node and all below it. -/
def demands : Node → List Demand
  | cond c => c.demands
  | expr e => e.demands
  | window w => w.demands
  | key o => o.demands

open Renderer

variable (r : Renderer)

/-- The demands of each of a list of nodes are met. -/
def AllMet (ns : List Node) : Prop :=
  ∀ n ∈ ns, r.MeetsAll n.demands

@[simp]
theorem allMet_nil : AllMet r [] :=
  fun _ hn => absurd hn List.not_mem_nil

@[simp]
theorem allMet_cons {n : Node} {ns : List Node} :
    AllMet r (n :: ns) ↔ r.MeetsAll n.demands ∧ AllMet r ns :=
  List.forall_mem_cons

@[simp]
theorem allMet_append {ns ms : List Node} : AllMet r (ns ++ ms) ↔ AllMet r ns ∧ AllMet r ms :=
  List.forall_mem_append

@[simp]
theorem allMet_conds (cs : List Cond) :
    AllMet r (cs.map cond) ↔ r.MeetsAll (Cond.demandsAll cs) := by
  rw [Cond.demandsAll_eq_flatMap, meetsAll_flatMap]
  exact List.forall_mem_map

@[simp]
theorem allMet_exprs (es : List Expr) :
    AllMet r (es.map expr) ↔ r.MeetsAll (Expr.demandsAll es) := by
  rw [Expr.demandsAll_eq_flatMap, meetsAll_flatMap]
  exact List.forall_mem_map

@[simp]
theorem allMet_keys (os : List OrderItem) :
    AllMet r (os.map key) ↔ r.MeetsAll (OrderItem.demandsAll os) := by
  rw [OrderItem.demandsAll_eq_flatMap, meetsAll_flatMap]
  exact List.forall_mem_map

@[simp]
theorem allMet_branches (bs : List (Cond × Expr)) :
    AllMet r (bs.flatMap fun b => [cond b.1, expr b.2]) ↔ r.MeetsAll (Expr.branchDemands bs) := by
  induction bs with
  | nil => simp [Expr.branchDemands]
  | cons b bs ih =>
    obtain ⟨c, e⟩ := b
    simp [Expr.branchDemands, demands, ih]

variable {r}

theorem meetsAll_cond (c : Cond) :
    r.MeetsAll c.demands ↔
      ((cond c).WellFormed ∧ (cond c).Supported r.capabilities) ∧ AllMet r (cond c).parts := by
  cases c with
  | compare column op param => simp [Cond.demands, WellFormed, Supported, parts, meetsAll_operator]
  | compareColumns left op right =>
    simp [Cond.demands, WellFormed, Supported, parts, meetsAll_operator, meetsAll_flaw_if]
  | null column negated => simp [Cond.demands, WellFormed, Supported, parts]
  | nullSafeEq column param => simp [Cond.demands, WellFormed, Supported, parts]
  | between column low high negated => simp [Cond.demands, WellFormed, Supported, parts]
  | aggregate fn column op param =>
    cases column with
    | none => simp [Cond.demands, WellFormed, Supported, parts, meetsAll_operator, meetsAll_bare]
    | some c => simp [Cond.demands, WellFormed, Supported, parts, meetsAll_operator]
  | group junction members => simp [Cond.demands, WellFormed, Supported, parts, meetsAll_flaw_if]

theorem meetsAll_expr (e : Expr) :
    r.MeetsAll e.demands ↔
      ((expr e).WellFormed ∧ (expr e).Supported r.capabilities) ∧ AllMet r (expr e).parts := by
  cases e with
  | column c => simp [Expr.demands, WellFormed, Supported, parts]
  | param p => simp [Expr.demands, WellFormed, Supported, parts]
  | call fn args => simp [Expr.demands, WellFormed, Supported, parts]
  | cast e type => simp [Expr.demands, WellFormed, Supported, parts, demands]
  | binary left op right =>
    simp [Expr.demands, WellFormed, Supported, parts, demands, meetsAll_flaw_if, meetsAll_operator,
      and_assoc]
  | aggregate fn arg filter w =>
    cases arg <;> cases filter <;> cases w <;>
      simp [Expr.demands, WellFormed, Supported, parts, demands, meetsAll_bare, Window.demands?,
        Capabilities.provides, and_assoc, and_left_comm]
  | case branches otherwise =>
    have helse : r.MeetsAll (Expr.demands? otherwise) ↔ AllMet r (otherwise.map expr).toList := by
      cases otherwise <;> simp [Expr.demands?, demands]
    simp [Expr.demands, WellFormed, Supported, parts, meetsAll_flaw_if, helse]
  | ranking fn w => simp [Expr.demands, WellFormed, Supported, parts, demands]

theorem meetsAll_window (w : Window) :
    r.MeetsAll w.demands ↔
      ((window w).WellFormed ∧ (window w).Supported r.capabilities) ∧
        AllMet r (window w).parts := by
  obtain ⟨partitionBy, orderBy⟩ := w
  simp [Window.demands, WellFormed, Supported, parts, Capabilities.provides]

theorem meetsAll_key (o : OrderItem) :
    r.MeetsAll o.demands ↔
      ((key o).WellFormed ∧ (key o).Supported r.capabilities) ∧ AllMet r (key o).parts := by
  obtain ⟨e, direction, nulls⟩ := o
  simp [OrderItem.demands, WellFormed, Supported, parts, demands, meetsAll_feature_if,
    Capabilities.provides, and_comm]

/-- The demands of a node are met if and only if the node itself is in order and those of each node
right below it are met. -/
theorem meetsAll_demands (n : Node) :
    r.MeetsAll n.demands ↔ (n.WellFormed ∧ n.Supported r.capabilities) ∧ AllMet r n.parts := by
  cases n with
  | cond c => exact meetsAll_cond c
  | expr e => exact meetsAll_expr e
  | window w => exact meetsAll_window w
  | key o => exact meetsAll_key o

/-! ## Depth -/

/-- The size of a node's tree. -/
noncomputable def size : Node → Nat
  | cond c => sizeOf c
  | expr e => sizeOf e
  | window w => sizeOf w
  | key o => sizeOf o

theorem size_lt_of_isPart {n m : Node} (h : n.IsPart m) : m.size < n.size := by
  unfold IsPart at h
  cases n with
  | cond c =>
    cases c with
    | group junction members =>
      obtain ⟨c, hc, rfl⟩ := List.mem_map.1 h
      have hlt := List.sizeOf_lt_of_mem hc
      simp only [size, Cond.group.sizeOf_spec]
      omega
    | _ => cases h
  | expr e =>
    cases e with
    | column c => cases h
    | param p => cases h
    | call fn args =>
      obtain ⟨e, he, rfl⟩ := List.mem_map.1 h
      have hlt := List.sizeOf_lt_of_mem he
      simp only [size, Expr.call.sizeOf_spec]
      omega
    | cast e type =>
      cases List.mem_singleton.1 h
      simp only [size, Expr.cast.sizeOf_spec]
      omega
    | binary left op right =>
      simp only [parts, List.mem_cons, List.not_mem_nil, or_false] at h
      rcases h with rfl | rfl <;> simp only [size, Expr.binary.sizeOf_spec] <;> omega
    | aggregate fn arg filter w =>
      simp only [parts, List.mem_append, Option.mem_toList, Option.map_eq_some_iff] at h
      rcases h with (⟨x, rfl, rfl⟩ | ⟨x, rfl, rfl⟩) | ⟨x, rfl, rfl⟩ <;>
        simp only [size, Expr.aggregate.sizeOf_spec, Option.some.sizeOf_spec] <;> omega
    -- a branch is a pair in the list, and either half of it is a part
    | case branches otherwise =>
      simp only [parts, List.mem_append, List.mem_flatMap, Option.mem_toList,
        Option.map_eq_some_iff] at h
      rcases h with ⟨⟨c, e⟩, hb, h⟩ | ⟨x, rfl, rfl⟩
      · have hlt := List.sizeOf_lt_of_mem hb
        simp only [List.mem_cons, List.not_mem_nil, or_false] at h
        rcases h with rfl | rfl <;>
          simp only [size, Expr.case.sizeOf_spec, Prod.mk.sizeOf_spec] at hlt ⊢ <;> omega
      · simp only [size, Expr.case.sizeOf_spec, Option.some.sizeOf_spec]
        omega
    | ranking fn w =>
      cases List.mem_singleton.1 h
      simp only [size, Expr.ranking.sizeOf_spec]
      omega
  | window w =>
    obtain ⟨partitionBy, orderBy⟩ := w
    obtain ⟨o, ho, rfl⟩ := List.mem_map.1 h
    have hlt := List.sizeOf_lt_of_mem ho
    simp only [size, Window.mk.sizeOf_spec]
    omega
  | key o =>
    obtain ⟨e, direction, nulls⟩ := o
    cases List.mem_singleton.1 h
    simp only [size, OrderItem.mk.sizeOf_spec]
    omega

/-- The demands of a node are met if and only if it and all below it are in order, at whatever
depth. -/
theorem meetsAll_iff_within (n : Node) :
    r.MeetsAll n.demands ↔ ∀ m, n.Within m → m.WellFormed ∧ m.Supported r.capabilities := by
  constructor
  · intro h m hm
    have hdemands : r.MeetsAll m.demands := by
      induction hm with
      | refl => exact h
      | tail _ hpart ih => exact ((meetsAll_demands _).1 ih).2 _ hpart
    exact ((meetsAll_demands m).1 hdemands).1
  · intro h
    refine (meetsAll_demands n).2 ⟨h n .refl, fun m hm => ?_⟩
    exact (meetsAll_iff_within m).2 fun k hk => h k (.head hm hk)
termination_by n.size
decreasing_by exact size_lt_of_isPart hm

theorem allMet_iff_within {ns : List Node} :
    AllMet r ns ↔
      ∀ m, (∃ top ∈ ns, top.Within m) → m.WellFormed ∧ m.Supported r.capabilities := by
  unfold AllMet
  simp only [meetsAll_iff_within]
  exact ⟨fun h m ⟨top, htop, hm⟩ => h top htop m hm, fun h top htop m hm => h m ⟨top, htop, hm⟩⟩

end Node

/-! ## Whole statements -/

section

open Renderer

variable {r : Renderer}

theorem Node.allMet_flatMap {α : Type} {nodes : α → List Node} {xs : List α} :
    AllMet r (xs.flatMap nodes) ↔ ∀ x ∈ xs, AllMet r (nodes x) := by
  unfold AllMet
  simp only [List.mem_flatMap, forall_exists_index, and_imp]
  exact ⟨fun h x hx n hn => h n x hx hn, fun h n x hx hn => h x hx n hn⟩

theorem SelectStatement.meetsAll_demands (s : SelectStatement) :
    r.MeetsAll s.demands ↔
      (s.lock.isSome = true → r.capabilities.rowLocking = true) ∧ Node.AllMet r s.nodes := by
  have hitems : r.MeetsAll (s.items.flatMap (·.expr.demands)) ↔
      Node.AllMet r (s.items.map (.expr ·.expr)) := by
    rw [meetsAll_flatMap, Node.AllMet, List.forall_mem_map]
    rfl
  simp only [demands, nodes, meetsAll_append, Node.allMet_append, Node.allMet_conds,
    Node.allMet_keys, hitems, meetsAll_feature_if, Capabilities.provides]
  exact and_comm

theorem meetsAll_rows {columns index : Nat} {rows : List (List Param)} :
    r.MeetsAll (rowDemands columns index rows) ↔ ∀ row ∈ rows, row.length = columns := by
  induction rows generalizing index with
  | nil => simp [rowDemands]
  | cons row rows ih => simp [rowDemands, meetsAll_flaw_unless, ih]

theorem InsertStatement.meetsAll_demands (s : InsertStatement) :
    r.MeetsAll s.demands ↔
      (Statement.insert s).ClausesWellFormed ∧
        (Statement.insert s).ClausesSupported r.capabilities := by
  obtain ⟨table, columns, rows, conflict, returning⟩ := s
  rcases conflict with _ | target | ⟨target, overwritten⟩ <;>
    simp [demands, Conflict.demands, Statement.ClausesWellFormed, Statement.ClausesSupported,
      Capabilities.provides, meetsAll_flaw_if, meetsAll_rows, meetsAll_feature_unless, and_assoc,
      and_left_comm]

theorem SelectStatement.meetsAll_operandDemands (s : SelectStatement) :
    r.MeetsAll s.operandDemands ↔ s.lock = none ∧ r.MeetsAll s.demands := by
  rw [operandDemands, meetsAll_append, meetsAll_flaw_if]
  cases s.lock <;> simp

/-- The demands of a statement are met if and only if its clauses are in order and the demands of
each node at its top are met. -/
theorem Statement.meetsAll_demands (s : Statement) :
    r.MeetsAll s.demands ↔
      (s.ClausesWellFormed ∧ s.ClausesSupported r.capabilities) ∧ Node.AllMet r s.nodes := by
  cases s with
  | select s => simp [demands, ClausesWellFormed, ClausesSupported, nodes, s.meetsAll_demands]
  | insert s => simp [demands, nodes, s.meetsAll_demands]
  | update s =>
    simp only [demands, UpdateStatement.demands, ClausesWellFormed, ClausesSupported, nodes,
      meetsAll_append, meetsAll_flaw_if, meetsAll_nil, meetsAll_feature_unless,
      Capabilities.provides, List.isEmpty_iff, Node.allMet_conds, and_true]
    exact and_right_comm
  | delete s => simp [demands, DeleteStatement.demands, ClausesWellFormed, ClausesSupported, nodes]
  | compound s =>
    simp only [demands, CompoundStatement.demands, ClausesWellFormed, ClausesSupported, nodes,
      meetsAll_append, meetsAll_flatMap, Node.allMet_append, Node.allMet_flatMap,
      Node.allMet_keys, SelectStatement.meetsAll_operandDemands, SelectStatement.meetsAll_demands,
      forall_and, and_assoc]

end

/-- A renderer sends a statement if and only if the statement is sound and uses no feature that is
not there, at whatever depth; and any other renderer that sends it sends the same. -/
theorem Renderer.render_ok_iff (r : Renderer) (s : Statement) :
    ((∃ o, r.render s = .ok o) ↔ s.WellFormed ∧ s.Supported r.capabilities) ∧
      ∀ (r' : Renderer) (o o' : Rendered),
        r.render s = .ok o → r'.render s = .ok o' → o = o' := by
  constructor
  · have hsent : (∃ o, r.render s = .ok o) ↔ r.MeetsAll s.demands := by
      simp only [render_eq_ok, refusal?_eq_none, exists_and_left, exists_eq, and_true]
      rfl
    rw [hsent, s.meetsAll_demands, Node.allMet_iff_within]
    simp only [Statement.WellFormed, Statement.Supported, Statement.Holds, forall_and]
    exact and_and_and_comm
  · intro r' o o' ho ho'
    rw [(render_eq_ok.1 ho).2, (render_eq_ok.1 ho').2]

/-- A distance from a vector inside a CASE, in the filter of a sum, by which a window of an operand
is ordered. -/
theorem Renderer.render_ok_iff_nested :
    let near : Cond := .compare ⟨"embedding"⟩ .l2Distance ⟨"origin"⟩
    let nearSum : Expr := .aggregate .sum (some (.column ⟨"age"⟩))
      (some (.group .or [near, .null ⟨"age"⟩ false])) none
    let chosen : Expr := .case [(near, nearSum)] none
    let ranked : SelectStatement :=
      { table := "users"
        items := [⟨.ranking .rank (.mk [] [.mk chosen .asc none]), some "place"⟩] }
    let s : Statement := .compound { first := ranked, rest := [(.union, ranked)] }
    (s.WellFormed ∧ s.Supported (Dialect.postgres).capabilities) ∧
      ¬s.Supported (Dialect.redshift).capabilities ∧
      ∀ o o', (Renderer.ofDialect .postgres).render s = .ok o →
        (⟨.redshift, {}⟩ : Renderer).render s = .ok o' → o = o' := by
  intro near nearSum chosen ranked s
  have hmet : ((Renderer.ofDialect .postgres).refusal? s.demands).isNone = true := by
    decide +kernel
  have hrefused : ((Renderer.ofDialect .redshift).refusal? s.demands).isSome = true := by
    decide +kernel
  obtain ⟨hiff, hsame⟩ := render_ok_iff (.ofDialect .postgres) s
  obtain ⟨hsound, hsupported⟩ :=
    hiff.1 ⟨_, render_eq_ok.2 ⟨Option.isNone_iff_eq_none.1 hmet, rfl⟩⟩
  refine ⟨⟨hsound, hsupported⟩, fun hredshift => ?_, hsame _⟩
  obtain ⟨o, ho⟩ := (render_ok_iff (.ofDialect .redshift) s).1.2 ⟨hsound, hredshift⟩
  rw [(render_eq_ok.1 ho).1] at hrefused
  cases hrefused

end CheckedSql
