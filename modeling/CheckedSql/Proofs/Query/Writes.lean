/-
Which clause each call of a chain writes to. A call leaves every clause but its own as it is, and
what it makes of that one depends on no other; so what a chain makes of a clause is what its calls
for this clause make of it, whatever stands between them. A clause that holds one value has that of
the last call for it.
-/
import CheckedSql.Proofs.Query.Faults

namespace CheckedSql

open Check (firstFault)

variable {s : Schema}

/-- One step before two others. -/
theorem bind_ok_both {ε α β : Type} {x : Except ε α} {f f' : α → Except ε β} {b b' : β}
    (h : (x >>= f) = .ok b) (h' : (x >>= f') = .ok b') : ∃ a, f a = .ok b ∧ f' a = .ok b' := by
  obtain ⟨a, ha, h⟩ := bind_ok h
  obtain ⟨a', ha', h'⟩ := bind_ok h'
  cases ha.symm.trans ha'
  exact ⟨a, h, h'⟩

/-- A condition added to the same list twice. -/
theorem attach_eq {c : Condition} {cs cs' next next' : List Cond} (hcs : cs = cs')
    (h : attach s c cs = .ok next) (h' : attach s c cs' = .ok next') : next = next' := by
  subst hcs
  exact Except.ok.inj (h.symm.trans h')

/-! ## Chains -/

namespace Chain

section

variable {α κ : Type} [DecidableEq κ] (clause : α → κ) (single : κ → Bool)

/-- The calls that count for a clause: all that write to it, in order, or the last of them if it
holds one value. -/
def written (calls : List α) (k : κ) : List α :=
  let own := calls.filter (clause · = k)
  if single k then own.getLast?.toList else own

/-- Calls that are a rearrangement of others: none that is not among them, and the same that count
for every clause. -/
structure Rearranged (calls others : List α) : Prop where
  subset : others ⊆ calls
  written : ∀ k, written clause single others k = written clause single calls k

variable {clause single}

/-- Calls in another order, in which those that write to the same clause keep theirs. -/
theorem Rearranged.of_filter {calls others : List α}
    (h : ∀ k, others.filter (clause · = k) = calls.filter (clause · = k)) :
    Rearranged clause single calls others where
  subset x hx := by
    have hown : x ∈ others.filter (clause · = clause x) := by simpa using hx
    rw [h] at hown
    exact List.mem_of_mem_filter hown
  written k := by
    unfold Chain.written
    rw [h]

theorem written_map {β : Type} (f : β → α) (calls : List β) (k : κ) :
    written clause single (calls.map f) k = (written (clause ∘ f) single calls k).map f := by
  simp only [written, List.filter_map, List.getLast?_map]
  cases single k with
  | false => rfl
  | true => exact Option.toList_map

/-- Calls that are rearranged stay so when each is seen as another. -/
theorem Rearranged.map {β : Type} {f : β → α} {calls others : List β}
    (h : Rearranged (clause ∘ f) single calls others) :
    Rearranged clause single (calls.map f) (others.map f) where
  subset := List.map_subset f h.subset
  written k := by rw [written_map, written_map, h.written]

end

variable {α γ κ : Type} {V : κ → Type}

/-- How the steps of a chain write to its clauses. -/
structure Writes (step : α → γ → Except BuildError γ) (fault : α → Option BuildError)
    (clause : α → κ) (single : κ → Bool) (get : (k : κ) → γ → V k) : Prop where
  /-- Whether a step fails does not depend on the clauses. -/
  faultOf : ∀ x g, faultOf (step x g) = fault x
  /-- The other clauses stay as they are. -/
  other : ∀ {x g next}, step x g = .ok next → ∀ k, k ≠ clause x → get k next = get k g
  /-- What a step makes of its own clause depends on what this has been; on nothing if it holds one
  value. -/
  own : ∀ {x g g' next next'}, (single (clause x) = false → get (clause x) g = get (clause x) g') →
    step x g = .ok next → step x g' = .ok next' → get (clause x) next = get (clause x) next'
  /-- There are no other clauses. -/
  ext : ∀ {g g'}, (∀ k, get k g = get k g') → g = g'

/-- The clauses that steps make of others. -/
def make (step : α → γ → Except BuildError γ) (xs : List α) (g : γ) : γ :=
  (xs.foldl (fun (c : Chain γ) x => c.call (step x)) { clauses := g }).clauses

theorem make_cons {step : α → γ → Except BuildError γ} {x : α} {g next : γ}
    (h : step x g = .ok next) (xs : List α) : make step (x :: xs) g = make step xs next := by
  rw [make, List.foldl_cons, call, h]
  rfl

namespace Writes

variable {step : α → γ → Except BuildError γ} {fault : α → Option BuildError} {clause : α → κ}
  {single : κ → Bool} {get : (k : κ) → γ → V k}

theorem step_ok (w : Writes step fault clause single get) {x : α} (hx : fault x = none) (g : γ) :
    ∃ next, step x g = .ok next := by
  rw [← faultOf_eq_none, w.faultOf, hx]

/-- For a clause only the steps that write to it matter. -/
theorem get_make_filter [DecidableEq κ] (w : Writes step fault clause single get) {k : κ}
    {xs : List α} (hxs : ∀ x ∈ xs, fault x = none) {g g' : γ} (h : get k g = get k g') :
    get k (make step xs g) = get k (make step (xs.filter (clause · = k)) g') := by
  induction xs generalizing g g' with
  | nil => exact h
  | cons x xs ih =>
    obtain ⟨hx, hxs⟩ := List.forall_mem_cons.1 hxs
    obtain ⟨next, hnext⟩ := w.step_ok hx g
    rw [make_cons hnext]
    by_cases hk : clause x = k
    · obtain ⟨next', hnext'⟩ := w.step_ok hx g'
      rw [List.filter_cons_of_pos (by simpa using hk), make_cons hnext']
      subst hk
      exact ih hxs (w.own (fun _ => h) hnext hnext')
    · rw [List.filter_cons_of_neg (by simpa using hk)]
      exact ih hxs ((w.other hnext k (Ne.symm hk)).trans h)

/-- What steps make of a clause that holds one value, the last of them makes of anything. -/
theorem get_make_last (w : Writes step fault clause single get) {k : κ} (hk : single k = true)
    {xs : List α} (hxs : ∀ x ∈ xs, fault x = none ∧ clause x = k) (g : γ) :
    get k (make step xs g) = get k (make step xs.getLast?.toList g) := by
  induction xs generalizing g with
  | nil => rfl
  | cons x xs ih =>
    obtain ⟨⟨hx, -⟩, hxs⟩ := List.forall_mem_cons.1 hxs
    obtain ⟨next, hnext⟩ := w.step_ok hx g
    cases hlast : xs.getLast? with
    | none =>
      rw [List.getLast?_eq_none_iff.1 hlast]
      rfl
    | some y =>
      obtain ⟨hy, rfl⟩ := hxs y (List.mem_of_getLast? hlast)
      obtain ⟨a, ha⟩ := w.step_ok hy next
      obtain ⟨b, hb⟩ := w.step_ok hy g
      rw [make_cons hnext, ih hxs, List.getLast?_cons, hlast, Option.getD_some, Option.toList_some,
        make_cons ha, make_cons hb]
      exact w.own (fun h => absurd (h.symm.trans hk) Bool.false_ne_true) ha hb

theorem get_make_written [DecidableEq κ] (w : Writes step fault clause single get) (k : κ)
    {xs : List α} (hxs : ∀ x ∈ xs, fault x = none) (g : γ) :
    get k (make step xs g) = get k (make step (written clause single xs k) g) := by
  rw [w.get_make_filter hxs rfl, written]
  cases hk : single k with
  | false => rfl
  | true =>
    refine w.get_make_last hk (fun x hx => ?_) g
    obtain ⟨hx, hclause⟩ := List.mem_filter.1 hx
    exact ⟨hxs x hx, by simpa using hclause⟩

/-- A chain none of whose calls fails. -/
theorem foldl_eq_make (w : Writes step fault clause single get) {xs : List α}
    (hxs : ∀ x ∈ xs, fault x = none) {c : Chain γ} (hc : c.fault = none) :
    xs.foldl (fun c x => c.call (step x)) c = { clauses := make step xs c.clauses } := by
  obtain ⟨g, fault?⟩ := c
  cases hc
  have hfault := fault_foldl w.faultOf xs { clauses := g }
  rw [List.findSome?_eq_none_iff.2 hxs] at hfault
  exact congrArg (Chain.mk (make step xs g)) hfault

/-- A rearrangement of calls none of which fails makes the same chain, and none fails either. -/
theorem foldl_rearranged [DecidableEq κ] (w : Writes step fault clause single get) {xs ys : List α}
    (h : Rearranged clause single xs ys) {c : Chain γ} (hc : c.fault = none)
    (hxs : ∀ x ∈ xs, fault x = none) :
    ys.foldl (fun c x => c.call (step x)) c = xs.foldl (fun c x => c.call (step x)) c := by
  have hys : ∀ y ∈ ys, fault y = none := fun y hy => hxs y (h.subset hy)
  have hmake : make step ys c.clauses = make step xs c.clauses :=
    w.ext fun k => by rw [w.get_make_written k hys, w.get_make_written k hxs, h.written]
  rw [w.foldl_eq_make hys hc, w.foldl_eq_make hxs hc, hmake]

end Writes

end Chain

/-! ## Rows read -/

namespace SelectQuery

/-- The clauses of a query that reads rows. -/
inductive Clause
  | columns
  | exprs
  | distinct
  | exprsOnly
  | conditions
  | groupBy
  | having
  | orderBy
  | limit
  | offset
  | lock
  deriving DecidableEq

namespace Clause

/-- Whether a clause holds one value. -/
def single : Clause → Bool
  | distinct | exprsOnly | limit | offset | lock => true
  | columns | exprs | conditions | groupBy | having | orderBy => false

/-- What a clause holds. -/
def Value : Clause → Type
  | columns | groupBy => List Column
  | exprs => List SelectItem
  | distinct | exprsOnly => Bool
  | conditions | having => List Cond
  | orderBy => List OrderItem
  | limit | offset => Option Bound
  | lock => Option RowLock

/-- What a clause holds among others. -/
def get : (k : Clause) → Clauses → k.Value
  | columns, c => c.columns
  | exprs, c => c.exprs
  | distinct, c => c.distinct
  | exprsOnly, c => c.exprsOnly
  | conditions, c => c.conditions
  | groupBy, c => c.groupBy
  | having, c => c.having
  | orderBy, c => c.orderBy
  | limit, c => c.limit
  | offset, c => c.offset
  | lock, c => c.lock

end Clause

/-- The clause that a call writes to. -/
def Call.clause : Call → Clause
  | whereCond _ => .conditions
  | columns _ => .columns
  | distinct => .distinct
  | expr _ _ => .exprs
  | exprsOnly => .exprsOnly
  | orderBy _ _ | orderByNulls _ _ _ | orderByExpr _ _ => .orderBy
  | limit _ | limitParam _ => .limit
  | offset _ | offsetParam _ => .offset
  | groupBy _ => .groupBy
  | having _ | havingAggregate _ _ _ _ => .having
  | lock _ => .lock

theorem Clauses.apply_other {c next : Clauses} {call : Call} (h : c.apply s call = .ok next)
    (k : Clause) (hk : k ≠ call.clause) : k.get next = k.get c := by
  cases call with
  | havingAggregate fn column op param =>
    obtain ⟨fn, -, h⟩ := bind_ok h
    obtain ⟨column, -, h⟩ := bind_ok h
    obtain ⟨op, -, h⟩ := bind_ok h
    obtain ⟨param, -, h⟩ := bind_ok h
    cases h
    cases k <;> first | rfl | exact absurd rfl hk
  | expr p name | orderByExpr p direction =>
    obtain ⟨e, -, h⟩ := bind_ok h
    obtain ⟨x, -, h⟩ := bind_ok h
    cases h
    cases k <;> first | rfl | exact absurd rfl hk
  | whereCond cond | columns names | groupBy names | orderBy column direction
  | orderByNulls column direction nulls | limitParam name | offsetParam name | having cond =>
    obtain ⟨x, -, h⟩ := bind_ok h
    cases h
    cases k <;> first | rfl | exact absurd rfl hk
  | distinct | exprsOnly | limit n | offset n | lock l =>
    cases h
    cases k <;> first | rfl | exact absurd rfl hk

theorem Clauses.apply_own {c c' next next' : Clauses} {call : Call}
    (hsame : call.clause.single = false → call.clause.get c = call.clause.get c')
    (h : c.apply s call = .ok next) (h' : c'.apply s call = .ok next') :
    call.clause.get next = call.clause.get next' := by
  cases call with
  | whereCond cond | having cond =>
    obtain ⟨x, hx, h⟩ := bind_ok h
    obtain ⟨x', hx', h'⟩ := bind_ok h'
    cases h
    cases h'
    exact attach_eq (hsame rfl) hx hx'
  | columns names | groupBy names =>
    obtain ⟨x, h, h'⟩ := bind_ok_both h h'
    cases h
    cases h'
    exact congrArg (· ++ x) (hsame rfl)
  | expr p name | orderByExpr p direction =>
    obtain ⟨e, h, h'⟩ := bind_ok_both h h'
    obtain ⟨x, h, h'⟩ := bind_ok_both h h'
    cases h
    cases h'
    exact congrArg (· ++ [_]) (hsame rfl)
  | orderBy column direction | orderByNulls column direction nulls =>
    obtain ⟨item, h, h'⟩ := bind_ok_both h h'
    cases h
    cases h'
    exact congrArg (· ++ [item]) (hsame rfl)
  | havingAggregate fn column op param =>
    obtain ⟨f, h, h'⟩ := bind_ok_both h h'
    obtain ⟨c, h, h'⟩ := bind_ok_both h h'
    obtain ⟨o, h, h'⟩ := bind_ok_both h h'
    obtain ⟨p, h, h'⟩ := bind_ok_both h h'
    cases h
    cases h'
    exact congrArg (· ++ [.aggregate f c o p]) (hsame rfl)
  | limitParam name | offsetParam name =>
    obtain ⟨p, h, h'⟩ := bind_ok_both h h'
    cases h
    cases h'
    rfl
  -- the last call counts, whatever was there before
  | distinct | exprsOnly | limit n | offset n | lock l =>
    cases h
    cases h'
    rfl

theorem writes (s : Schema) :
    Chain.Writes (fun (call : Call) g => Clauses.apply s g call)
      (fun call => firstFault s call.checks) Call.clause Clause.single Clause.get where
  faultOf call c := c.faultOf_apply call
  other h := Clauses.apply_other h
  own hsame h h' := Clauses.apply_own hsame h h'
  ext {c c'} h := by
    obtain ⟨distinct, columns, exprs, exprsOnly, conditions, groupBy, having, orderBy, limit,
      offset, lock⟩ := c
    cases h .distinct
    cases h .columns
    cases h .exprs
    cases h .exprsOnly
    cases h .conditions
    cases h .groupBy
    cases h .having
    cases h .orderBy
    cases h .limit
    cases h .offset
    cases h .lock
    rfl

end SelectQuery

/-! ## Rows added, changed and removed -/

/-- A step that replaces what there was, whatever that is. -/
theorem InsertQuery.writes (s : Schema) :
    Chain.Writes
      (fun (call : Call) _ => (do return some (← call.conflict s) : Except _ (Option Conflict)))
      (fun call => firstFault s call.checks) (fun _ => ()) (fun _ => true)
      (fun _ conflict => conflict) where
  faultOf call _ := (faultOf_bind_ok fun _ => rfl).trans call.faultOf_conflict
  other _ _ hk := absurd rfl hk
  own _ h h' := Except.ok.inj (h.symm.trans h')
  ext h := h ()

namespace UpdateQuery

/-- The clauses of a query that changes rows. -/
inductive Clause
  | assignments
  | conditions
  deriving DecidableEq

namespace Clause

/-- What a clause holds. -/
def Value : Clause → Type
  | assignments => List (Column × Param)
  | conditions => List Cond

/-- What a clause holds among others. -/
def get : (k : Clause) → Clauses → k.Value
  | assignments, c => c.assignments
  | conditions, c => c.conditions

end Clause

/-- The clause that a call writes to. -/
def Call.clause : Call → Clause
  | whereCond _ => .conditions
  | assign _ _ => .assignments

theorem writes (s : Schema) :
    Chain.Writes (fun (call : Call) g => Clauses.apply s g call)
      (fun call => firstFault s call.checks) Call.clause (fun _ => false) Clause.get where
  faultOf call c := c.faultOf_apply call
  other {call c next} h k hk := by
    cases call with
    | whereCond cond =>
      obtain ⟨cs, -, h⟩ := bind_ok h
      cases h
      cases k <;> first | rfl | exact absurd rfl hk
    | assign column param =>
      obtain ⟨x, -, h⟩ := bind_ok h
      obtain ⟨p, -, h⟩ := bind_ok h
      cases h
      cases k <;> first | rfl | exact absurd rfl hk
  own {call c c' next next'} hsame h h' := by
    cases call with
    | whereCond cond =>
      obtain ⟨x, hx, h⟩ := bind_ok h
      obtain ⟨x', hx', h'⟩ := bind_ok h'
      cases h
      cases h'
      exact attach_eq (hsame rfl) hx hx'
    | assign column param =>
      obtain ⟨x, h, h'⟩ := bind_ok_both h h'
      obtain ⟨p, h, h'⟩ := bind_ok_both h h'
      cases h
      cases h'
      exact congrArg (· ++ [(x, p)]) (hsame rfl)
  ext {c c'} h := by
    obtain ⟨assignments, conditions⟩ := c
    cases h .assignments
    cases h .conditions
    rfl

end UpdateQuery

theorem DeleteQuery.writes (s : Schema) :
    Chain.Writes (fun (call : Call) => attach s call.condition)
      (fun call => firstFault s call.checks) (fun _ => ()) (fun _ => false) (fun _ cs => cs) where
  faultOf call cs := call.condition.faultOf_attach cs
  other _ _ hk := absurd rfl hk
  own hsame h h' := attach_eq (hsame rfl) h h'
  ext h := h ()

/-! ## One number -/

namespace AggregateQuery

/-- The clauses of a query for one number. No call writes to the target. -/
inductive Clause
  | target
  | filter
  | conditions
  deriving DecidableEq

namespace Clause

/-- What a clause holds. -/
def Value : Clause → Type
  | target => AggregateFn × Option Column
  | filter | conditions => List Cond

/-- What a clause holds among others. -/
def get : (k : Clause) → Clauses → k.Value
  | target, c => (c.fn, c.column)
  | filter, c => c.filter
  | conditions, c => c.conditions

end Clause

/-- The clause that a call writes to. -/
def Call.clause : Call → Clause
  | whereCond _ => .conditions
  | filter _ => .filter

theorem writes (s : Schema) :
    Chain.Writes (fun (call : Call) g => Clauses.apply s g call)
      (fun call => firstFault s call.checks) Call.clause (fun _ => false) Clause.get where
  faultOf call c := c.faultOf_apply call
  other {call c next} h k hk := by
    cases call with
    | whereCond cond | filter cond =>
      obtain ⟨cs, -, h⟩ := bind_ok h
      cases h
      cases k <;> first | rfl | exact absurd rfl hk
  own {call c c' next next'} hsame h h' := by
    cases call with
    | whereCond cond | filter cond =>
      obtain ⟨x, hx, h⟩ := bind_ok h
      obtain ⟨x', hx', h'⟩ := bind_ok h'
      cases h
      cases h'
      exact attach_eq (hsame rfl) hx hx'
  ext {c c'} h := by
    obtain ⟨fn, column, filter, conditions⟩ := c
    cases h .target
    cases h .filter
    cases h .conditions
    rfl

end AggregateQuery

/-! ## Queries joined -/

namespace CompoundQuery

/-- The clauses of joined queries. -/
inductive Clause
  | rest
  | orderBy
  | limit
  | offset
  deriving DecidableEq

namespace Clause

/-- Whether a clause holds one value. -/
def single : Clause → Bool
  | limit | offset => true
  | rest | orderBy => false

/-- What a clause holds. -/
def Value : Clause → Type
  | rest => List (SetOp × SelectStatement)
  | orderBy => List OrderItem
  | limit | offset => Option Bound

/-- What a clause holds among others. -/
def get : (k : Clause) → Clauses → k.Value
  | rest, c => c.rest
  | orderBy, c => c.orderBy
  | limit, c => c.limit
  | offset, c => c.offset

end Clause

/-- The clause that a call writes to. -/
def Call.clause : Call → Clause
  | combine _ _ => .rest
  | orderBy _ _ | orderByNulls _ _ _ => .orderBy
  | limit _ | limitParam _ => .limit
  | offset _ | offsetParam _ => .offset

theorem writes (s : Schema) :
    Chain.Writes (fun (call : Call) g => Clauses.apply s g call) (Call.fault s) Call.clause
      Clause.single Clause.get where
  faultOf call c := c.faultOf_apply call
  other {call c next} h k hk := by
    cases call with
    | combine op operand | orderBy column direction | orderByNulls column direction nulls
    | limitParam name | offsetParam name =>
      obtain ⟨x, -, h⟩ := bind_ok h
      cases h
      cases k <;> first | rfl | exact absurd rfl hk
    | limit n | offset n =>
      cases h
      cases k <;> first | rfl | exact absurd rfl hk
  own {call c c' next next'} hsame h h' := by
    cases call with
    | combine op operand =>
      obtain ⟨st, h, h'⟩ := bind_ok_both h h'
      cases h
      cases h'
      exact congrArg (· ++ [(op, st)]) (hsame rfl)
    | orderBy column direction | orderByNulls column direction nulls =>
      obtain ⟨item, h, h'⟩ := bind_ok_both h h'
      cases h
      cases h'
      exact congrArg (· ++ [item]) (hsame rfl)
    | limitParam name | offsetParam name =>
      obtain ⟨p, h, h'⟩ := bind_ok_both h h'
      cases h
      cases h'
      rfl
    | limit n | offset n =>
      cases h
      cases h'
      rfl
  ext {c c'} h := by
    obtain ⟨rest, orderBy, limit, offset⟩ := c
    cases h .rest
    cases h .orderBy
    cases h .limit
    cases h .offset
    rfl

end CompoundQuery

end CheckedSql
