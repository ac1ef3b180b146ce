/-
What calls check of the strings they are given, one check after the other. A call fails with the
fault of the first check that has one, whatever the calls before it have made; and a name that is
not found is reported as it was given.
-/
import CheckedSql.Proofs.Query.Clauses
import CheckedSql.Proofs.Query.NormalForm

namespace CheckedSql

/-! ## Checks -/

/-- The fault of a word that stands for nothing in a vocabulary, or for something with a flaw. -/
def Vocabulary.fault {α : Type} (v : Vocabulary α) (token : String)
    (flaw : α → Option BuildError) : Option BuildError :=
  match v.entries.find? (·.1 == (Text.words token).map Text.upper) with
  | none => some (.unresolved v.kind token)
  | some e => flaw e.2

/-- A check of something that a caller gives. -/
inductive Check
  | column (name : String)
  | param (name : String)
  | outputName (name : String)
  | direction (token : String)
  | nullsOrder (token : String)
  | aggregate (token : String)
  | castType (token : String)
  /-- An operator that must yield a truth value. -/
  | predicate (token : String)
  /-- An operator that must yield a truth value, and not from a list. -/
  | columnPredicate (token : String)
  /-- An operator that must not be a membership test. -/
  | scalar (token : String)
  /-- A condition that must say something. -/
  | nonempty (c : Condition)
  /-- A CASE that must have a branch. -/
  | branches (bs : List (Condition × Projection))
  /-- A conflict clause that must have a target and columns to take over. -/
  | overwrite (target columns : List String)

namespace Check

/-- The flaw of an operator that yields no truth value. -/
def predicateFlaw (token : String) (op : Operator) : Option BuildError :=
  if op.isPredicate then none
  else some (.invalidCondition ("operator '" ++ Text.trim token ++ "' is not a predicate"))

/-- The flaw of an operator that tests membership in a list. -/
def membershipFlaw (detail : String) (op : Operator) : Option BuildError :=
  if op.isMembership then some (.invalidCondition detail) else none

/-- The error of a check that fails. -/
def fault (s : Schema) : Check → Option BuildError
  | column name => if (s.find? name).isSome then none else some (.unresolved .field name)
  | param name => if Ident.isPlain name then none else some (.unresolved .param name)
  | outputName name => if Ident.isPlain name then none else some (.unresolved .outputName name)
  | direction token => Vocabulary.directions.fault token fun _ => none
  | nullsOrder token => Vocabulary.nullsOrders.fault token fun _ => none
  | aggregate token => Vocabulary.aggregates.fault token fun _ => none
  | castType token => Vocabulary.castTypes.fault token fun _ => none
  | predicate token => Vocabulary.operators.fault token (predicateFlaw token)
  | columnPredicate token =>
    Vocabulary.operators.fault token fun op =>
      (predicateFlaw token op).or
        (membershipFlaw ("'" ++ op.text ++ "' needs a parameter on the right-hand side") op)
  | scalar token =>
    Vocabulary.operators.fault token
      (membershipFlaw ("operator '" ++ Text.trim token ++ "' cannot be used in an expression"))
  | nonempty c =>
    if c.leaves.isEmpty then some (.invalidCondition "CASE branch with an empty condition")
    else none
  | branches bs =>
    if bs.isEmpty then some (.invalidCondition "CASE needs at least one WHEN branch") else none
  | overwrite target columns =>
    if target.isEmpty || columns.isEmpty then
      some (.invalidCondition "ON CONFLICT DO UPDATE needs a target and columns to update")
    else none

/-- The name or word that a check looks up, and what it is meant to name. -/
def subject? : Check → Option (NameKind × String)
  | column name => some (.field, name)
  | param name => some (.param, name)
  | outputName name => some (.outputName, name)
  | direction token => some (.direction, token)
  | nullsOrder token => some (.nullsOrdering, token)
  | aggregate token => some (.aggregate, token)
  | castType token => some (.castType, token)
  | predicate token | columnPredicate token | scalar token => some (.operator, token)
  | nonempty _ | branches _ | overwrite _ _ => none

/-- The error of the first of a list of checks that fails. -/
def firstFault (s : Schema) (cs : List Check) : Option BuildError :=
  cs.findSome? (·.fault s)

variable {s : Schema}

@[simp]
theorem firstFault_nil : firstFault s [] = none :=
  rfl

@[simp]
theorem firstFault_cons (c : Check) (cs : List Check) :
    firstFault s (c :: cs) = (c.fault s).or (firstFault s cs) := by
  rw [firstFault, List.findSome?_cons]
  cases c.fault s <;> rfl

@[simp]
theorem firstFault_append (cs ds : List Check) :
    firstFault s (cs ++ ds) = (firstFault s cs).or (firstFault s ds) :=
  List.findSome?_append

theorem vocabulary_unresolved {α : Type} {v : Vocabulary α} {token : String}
    {flaw : α → Option BuildError} (hflaw : ∀ a k n, flaw a ≠ some (.unresolved k n))
    {k : NameKind} {n : String} (h : v.fault token flaw = some (.unresolved k n)) :
    v.kind = k ∧ token = n := by
  unfold Vocabulary.fault at h
  split at h
  · cases h
    exact ⟨rfl, rfl⟩
  · exact absurd h (hflaw _ k n)

theorem predicateFlaw_ne (token : String) (op : Operator) (k : NameKind) (n : String) :
    predicateFlaw token op ≠ some (.unresolved k n) := by
  unfold predicateFlaw
  split <;> simp

theorem membershipFlaw_ne (detail : String) (op : Operator) (k : NameKind) (n : String) :
    membershipFlaw detail op ≠ some (.unresolved k n) := by
  unfold membershipFlaw
  split <;> simp

/-- What is reported as not found is what was looked up, as it was given. -/
theorem fault_unresolved {c : Check} {k : NameKind} {n : String}
    (h : c.fault s = some (.unresolved k n)) : c.subject? = some (k, n) := by
  -- only a look-up reports a name; the flaws that a found word has do not
  have hnone {α : Type} (a : α) (k : NameKind) (n : String) :
      (fun _ : α => (none : Option BuildError)) a ≠ some (.unresolved k n) := by rintro ⟨⟩
  cases c with
  | column name | param name | outputName name =>
    rw [fault] at h
    split at h
    · cases h
    · cases h
      rfl
  | direction token | nullsOrder token | aggregate token | castType token =>
    obtain ⟨rfl, rfl⟩ := vocabulary_unresolved hnone h
    rfl
  | predicate token =>
    obtain ⟨rfl, rfl⟩ := vocabulary_unresolved (predicateFlaw_ne token) h
    rfl
  | columnPredicate token =>
    rw [fault] at h
    have hflaw (op : Operator) (k : NameKind) (n : String) : (predicateFlaw token op).or
        (membershipFlaw ("'" ++ op.text ++ "' needs a parameter on the right-hand side") op) ≠
          some (.unresolved k n) := by
      intro hor
      rcases Option.or_eq_some_iff.1 hor with hpredicate | ⟨-, hmembership⟩
      · exact predicateFlaw_ne token op k n hpredicate
      · exact membershipFlaw_ne _ op k n hmembership
    obtain ⟨rfl, rfl⟩ := vocabulary_unresolved hflaw h
    rfl
  | scalar token =>
    obtain ⟨rfl, rfl⟩ := vocabulary_unresolved (membershipFlaw_ne _) h
    rfl
  | nonempty c | branches bs | overwrite target columns =>
    rw [fault] at h
    split at h <;> cases h

theorem firstFault_unresolved {cs : List Check} {k : NameKind} {n : String}
    (h : firstFault s cs = some (.unresolved k n)) : (k, n) ∈ cs.filterMap subject? := by
  obtain ⟨c, hc, hfault⟩ := List.exists_of_findSome?_eq_some h
  exact List.mem_filterMap.2 ⟨c, hc, fault_unresolved hfault⟩

end Check

open Check (firstFault)

/-! ## Names and words -/

variable {s : Schema}

theorem Schema.faultOf_resolveColumn (name : String) :
    faultOf (s.resolveColumn name) = (Check.column name).fault s := by
  rw [resolveColumn, Check.fault]
  cases s.find? name <;> rfl

theorem Schema.faultOf_resolveParam (name : String) :
    faultOf (s.resolveParam name) = (Check.param name).fault s := by
  rw [resolveParam, Check.fault]
  split <;> rfl

theorem Schema.faultOf_resolveOutputName (name : String) :
    faultOf (s.resolveOutputName name) = (Check.outputName name).fault s := by
  rw [resolveOutputName, Check.fault]
  split <;> rfl

theorem Schema.faultOf_resolveColumns (names : List String) :
    faultOf (s.resolveColumns names) = firstFault s (names.map .column) := by
  induction names with
  | nil => rfl
  | cons name names ih =>
    rw [resolveColumns, faultOf_bind fun _ _ => faultOf_bind_ok fun _ => rfl, ih,
      faultOf_resolveColumn, List.map_cons, Check.firstFault_cons]

/-- Looking up a word and going on with its meaning. -/
theorem Vocabulary.faultOf_resolve_bind {α β : Type} (v : Vocabulary α) (token : String)
    (f : α → Except BuildError β) :
    faultOf (v.resolve token >>= f) = v.fault token fun a => faultOf (f a) := by
  simp only [resolve, fault]
  cases v.entries.find? (·.1 == (Text.words token).map Text.upper) <;> rfl

theorem Vocabulary.faultOf_resolve {α : Type} (v : Vocabulary α) (token : String) :
    faultOf (v.resolve token) = v.fault token fun _ => none := by
  rw [← bind_pure (v.resolve token), faultOf_resolve_bind]
  rfl

theorem Vocabulary.fault_or {α : Type} (v : Vocabulary α) (token : String)
    (flaw : α → Option BuildError) (more : Option BuildError) :
    (v.fault token flaw).or more = v.fault token fun a => (flaw a).or more := by
  unfold fault
  cases v.entries.find? (·.1 == (Text.words token).map Text.upper) <;> rfl

/-- Looking up an operator that yields a truth value, and going on with it. -/
theorem Vocabulary.faultOf_resolvePredicate_bind {β : Type} (token : String)
    (f : Operator → Except BuildError β) :
    faultOf (resolvePredicate token >>= f) =
      operators.fault token fun op => (Check.predicateFlaw token op).or (faultOf (f op)) := by
  rw [resolvePredicate, bind_assoc, faultOf_resolve_bind]
  congr 1
  funext op
  rw [Check.predicateFlaw]
  cases op.isPredicate <;> rfl

theorem Vocabulary.faultOf_resolvePredicate (s : Schema) (token : String) :
    faultOf (resolvePredicate token) = (Check.predicate token).fault s := by
  rw [← bind_pure (resolvePredicate token), faultOf_resolvePredicate_bind, Check.fault]
  congr 1
  funext op
  exact Option.or_none

/-- Looking up an operator between columns, and going on where it is none of membership. -/
theorem Vocabulary.faultOf_columnPredicate {β : Type} (s : Schema) (token : String)
    {f : Operator → Except BuildError β} {fault : Option BuildError}
    (hf : ∀ op, faultOf (f op) = (Check.membershipFlaw
      ("'" ++ op.text ++ "' needs a parameter on the right-hand side") op).or fault) :
    faultOf (resolvePredicate token >>= f) = ((Check.columnPredicate token).fault s).or fault := by
  rw [faultOf_resolvePredicate_bind, Check.fault, fault_or]
  congr 1
  funext op
  rw [hf, Option.or_assoc]

/-- Looking up an operator of expressions, and going on where it is none of membership. -/
theorem Vocabulary.faultOf_scalar {β : Type} (s : Schema) (token : String)
    {f : Operator → Except BuildError β} {fault : Option BuildError}
    (hf : ∀ op, faultOf (f op) = (Check.membershipFlaw
      ("operator '" ++ Text.trim token ++ "' cannot be used in an expression") op).or fault) :
    faultOf (operators.resolve token >>= f) = ((Check.scalar token).fault s).or fault := by
  rw [faultOf_resolve_bind, Check.fault, fault_or]
  congr 1
  funext op
  exact hf op

/-! ## Conditions -/

namespace Condition

/-- The checks of a part that is no group: the column, the operator, the parameter or second
column. -/
def leafChecks : Condition → List Check
  | compare column op param => [.column column, .predicate op, .param param]
  | compareColumns left op right => [.column left, .columnPredicate op, .column right]
  | null column _ => [.column column]
  | between column low high _ => [.column column, .param low, .param high]
  | group _ _ => []

/-- The checks of a condition: those of its leaves, from left to right. -/
def checks (c : Condition) : List Check :=
  c.leaves.flatMap leafChecks

/-- The checks of a condition that may be absent. -/
def checks? (c : Option Condition) : List Check :=
  c.toList.flatMap checks

theorem faultOf_resolve_leaf {l : Condition} (h : ¬l.IsGroup) :
    faultOf (l.resolve s) = firstFault s l.leafChecks := by
  cases l with
  | compare column op param =>
    rw [resolve, faultOf_bind fun _ _ => faultOf_bind fun _ _ => faultOf_bind_ok fun _ => rfl,
      Schema.faultOf_resolveColumn, Vocabulary.faultOf_resolvePredicate s,
      Schema.faultOf_resolveParam]
    simp [leafChecks]
  | compareColumns left op right =>
    -- the operator is refused as such or for its membership, in one check, before the right side
    refine Eq.trans (b := ((Check.column left).fault s).or
      (((Check.columnPredicate op).fault s).or ((Check.column right).fault s))) ?_ ?_
    · rw [resolve, ← Schema.faultOf_resolveColumn]
      refine faultOf_bind fun _ _ => Vocabulary.faultOf_columnPredicate s op fun op => ?_
      rw [Check.membershipFlaw, ← Schema.faultOf_resolveColumn]
      cases op.isMembership with
      | true => rfl
      | false => exact faultOf_bind_ok fun _ => rfl
    · simp [leafChecks]
  | null column negated =>
    rw [resolve, faultOf_bind_ok fun _ => rfl, Schema.faultOf_resolveColumn]
    simp [leafChecks]
  | between column low high negated =>
    rw [resolve, faultOf_bind fun _ _ => faultOf_bind fun _ _ => faultOf_bind_ok fun _ => rfl,
      Schema.faultOf_resolveColumn, Schema.faultOf_resolveParam, Schema.faultOf_resolveParam]
    simp [leafChecks]
  | group junction members => exact absurd trivial h

theorem findSome?_leaves {ls : List Condition} (h : ∀ l ∈ ls, ¬l.IsGroup) :
    ls.findSome? (fun l => faultOf (l.resolve s)) = firstFault s (ls.flatMap leafChecks) := by
  induction ls with
  | nil => rfl
  | cons l ls ih =>
    obtain ⟨hl, hls⟩ := List.forall_mem_cons.1 h
    rw [List.findSome?_cons, faultOf_resolve_leaf hl, ih hls, List.flatMap_cons,
      Check.firstFault_append]
    cases firstFault s l.leafChecks <;> rfl

/-- A condition fails with the first of its checks that does. -/
theorem faultOf_resolve_checks (c : Condition) : faultOf (c.resolve s) = firstFault s c.checks := by
  rw [faultOf_resolve, findSome?_leaves c.leaves_not_group, checks]

theorem faultOf_resolve?_checks (c : Option Condition) :
    faultOf (Condition.resolve? s c) = firstFault s (checks? c) := by
  cases c with
  | none => rfl
  | some c =>
    rw [resolve?, faultOf_resolve_checks, checks?, Option.toList_some, List.flatMap_singleton]

theorem faultOf_attach (c : Condition) (cs : List Cond) :
    faultOf (attach s c cs) = firstFault s c.checks := by
  rw [attach, faultOf_bind_ok fun _ => rfl, faultOf_resolve_checks]

end Condition

/-! ## Derived columns -/

/-- The checks of an ordering by a column. -/
def OrderItem.checks (column direction : String) (nulls : Option String) : List Check :=
  .column column :: .direction direction :: nulls.toList.map .nullsOrder

theorem OrderItem.faultOf_resolve (column direction : String) (nulls : Option String) :
    faultOf (OrderItem.resolve s column direction nulls) =
      firstFault s (checks column direction nulls) := by
  rw [checks, Check.firstFault_cons, Check.firstFault_cons, ← Schema.faultOf_resolveColumn,
    Check.fault, ← Vocabulary.faultOf_resolve, resolve]
  refine faultOf_bind fun c _ => faultOf_bind fun d _ => ?_
  cases nulls with
  | none => rfl
  | some n =>
    refine (faultOf_bind_ok fun _ => rfl).trans ?_
    rw [Vocabulary.faultOf_resolve]
    simp [Check.fault]

namespace WindowSpec

/-- The checks of a window. -/
def checks (w : WindowSpec) : List Check :=
  w.partitionBy.map .column ++ w.orderBy.flatMap fun o => OrderItem.checks o.1 o.2 none

/-- The checks of a window that may be absent. -/
def checks? (w : Option WindowSpec) : List Check :=
  w.toList.flatMap checks

theorem faultOf_resolveOrder (keys : List (String × String)) :
    faultOf (resolveOrder s keys) =
      firstFault s (keys.flatMap fun o => OrderItem.checks o.1 o.2 none) := by
  induction keys with
  | nil => rfl
  | cons key keys ih =>
    rw [resolveOrder, faultOf_bind fun _ _ => faultOf_bind_ok fun _ => rfl, ih,
      OrderItem.faultOf_resolve, List.flatMap_cons, Check.firstFault_append]

theorem faultOf_resolve (w : WindowSpec) : faultOf (w.resolve s) = firstFault s w.checks := by
  rw [resolve, faultOf_bind fun _ _ => faultOf_bind_ok fun _ => rfl, faultOf_resolveOrder,
    Schema.faultOf_resolveColumns, checks, Check.firstFault_append]

theorem faultOf_resolve? (w : Option WindowSpec) :
    faultOf (resolve? s w) = firstFault s (checks? w) := by
  cases w with
  | none => rfl
  | some w =>
    rw [resolve?, faultOf_bind_ok fun _ => rfl, faultOf_resolve, checks?, Option.toList_some,
      List.flatMap_singleton]

end WindowSpec

namespace Projection

mutual

/-- The checks of a derived column. -/
def checks : Projection → List Check
  | column name => [.column name]
  | param name => [.param name]
  | call _ args => checksAll args
  | cast p type => p.checks ++ [.castType type]
  | binary left op right => left.checks ++ .scalar op :: right.checks
  | aggregate _ arg filter window =>
    Condition.checks? filter ++ checks? arg ++ WindowSpec.checks? window
  | case branches otherwise => branchChecks branches ++ .branches branches :: checks? otherwise
  | ranking _ window => window.checks

/-- The checks of a list of derived columns. -/
def checksAll : List Projection → List Check
  | [] => []
  | p :: ps => p.checks ++ checksAll ps

/-- The checks of a derived column that may be absent. -/
def checks? : Option Projection → List Check
  | none => []
  | some p => p.checks

/-- The checks of the branches of a CASE: the condition first, which must say something. -/
def branchChecks : List (Condition × Projection) → List Check
  | [] => []
  | (c, p) :: rest => c.checks ++ .nonempty c :: p.checks ++ branchChecks rest

end

/-- The branches of a CASE are as many as they are given. -/
theorem length_resolveBranches {branches : List (Condition × Projection)}
    {bs : List (Cond × Expr)} (h : resolveBranches s branches = .ok bs) :
    bs.length = branches.length := by
  induction branches generalizing bs with
  | nil =>
    cases h
    rfl
  | cons branch branches ih =>
    rw [resolveBranches] at h
    obtain ⟨c, -, h⟩ := bind_ok h
    cases c with
    | none => cases h
    | some c =>
      obtain ⟨e, -, h⟩ := bind_ok h
      obtain ⟨rest, hrest, h⟩ := bind_ok h
      cases h
      rw [List.length_cons, List.length_cons, ih hrest]

/-- What comes after the condition of a branch: nothing, if that says nothing. -/
theorem faultOf_branch {α : Type} {c : Condition} {rest : Cond → Except BuildError α}
    {fault : Option BuildError} (hrest : ∀ r, faultOf (rest r) = fault) :
    faultOf (c.resolve s >>= fun r =>
      match r with
      | none => throw (.invalidCondition "CASE branch with an empty condition")
      | some r => rest r) =
        (firstFault s c.checks).or (((Check.nonempty c).fault s).or fault) := by
  rw [← c.faultOf_resolve_checks]
  -- a condition that resolves to nothing is one without leaves
  refine faultOf_bind fun r hr => ?_
  rw [Check.fault]
  cases r with
  | none =>
    rw [Condition.resolve_none hr]
    rfl
  | some r =>
    rw [List.isEmpty_eq_false_iff.2 (Condition.resolve_some hr).2.2.1]
    exact hrest r

mutual

/-- A derived column fails with the first of its checks that does. -/
theorem faultOf_resolve : ∀ p : Projection, faultOf (p.resolve s) = firstFault s p.checks
  | .column name => by
    rw [resolve, faultOf_bind_ok fun _ => rfl, Schema.faultOf_resolveColumn]
    simp [checks]
  | .param name => by
    rw [resolve, faultOf_bind_ok fun _ => rfl, Schema.faultOf_resolveParam]
    simp [checks]
  | .call fn args => by
    rw [resolve, faultOf_bind_ok fun _ => rfl, faultOf_resolveAll args, checks]
  | .cast p type => by
    rw [resolve, faultOf_bind fun _ _ => faultOf_bind_ok fun _ => rfl, faultOf_resolve p,
      Vocabulary.faultOf_resolve]
    simp [checks, Check.fault]
  | .binary left op right => by
    rw [checks, Check.firstFault_append, Check.firstFault_cons, ← faultOf_resolve left,
      ← faultOf_resolve right, resolve]
    refine faultOf_bind fun _ _ => Vocabulary.faultOf_scalar s op fun o => ?_
    rw [Check.membershipFlaw]
    cases o.isMembership with
    | true => rfl
    | false => exact faultOf_bind_ok fun _ => rfl
  | .aggregate fn arg filter window => by
    rw [resolve, faultOf_bind fun _ _ => faultOf_bind fun _ _ => faultOf_bind_ok fun _ => rfl,
      Condition.faultOf_resolve?_checks, faultOf_resolve? arg, WindowSpec.faultOf_resolve?]
    simp [checks]
  | .case branches otherwise => by
    rw [checks, Check.firstFault_append, Check.firstFault_cons, ← faultOf_resolveBranches branches,
      ← faultOf_resolve? otherwise, resolve]
    refine faultOf_bind fun bs hbs => ?_
    rw [Check.fault]
    -- the branches that are left are as many as were given
    cases branches with
    | nil =>
      cases hbs
      rfl
    | cons branch branches =>
      cases bs with
      | nil => cases length_resolveBranches hbs
      | cons b bs => exact faultOf_bind_ok fun _ => rfl
  | .ranking fn window => by
    rw [resolve, faultOf_bind_ok fun _ => rfl, window.faultOf_resolve, checks]

theorem faultOf_resolveAll : ∀ ps : List Projection,
    faultOf (resolveAll s ps) = firstFault s (checksAll ps)
  | [] => rfl
  | p :: ps => by
    rw [resolveAll, faultOf_bind fun _ _ => faultOf_bind_ok fun _ => rfl, faultOf_resolve p,
      faultOf_resolveAll ps, checksAll, Check.firstFault_append]

theorem faultOf_resolve? : ∀ p : Option Projection,
    faultOf (resolve? s p) = firstFault s (checks? p)
  | none => rfl
  | some p => by
    rw [resolve?, faultOf_bind_ok fun _ => rfl, faultOf_resolve p, checks?]

theorem faultOf_resolveBranches : ∀ branches : List (Condition × Projection),
    faultOf (resolveBranches s branches) = firstFault s (branchChecks branches)
  | [] => rfl
  | (c, p) :: rest => by
    have hafter (r : Cond) : faultOf (p.resolve s >>= fun e => resolveBranches s rest >>= fun bs =>
        (pure ((r, e) :: bs) : Except BuildError _)) =
          (firstFault s p.checks).or (firstFault s (branchChecks rest)) := by
      rw [faultOf_bind fun _ _ => faultOf_bind_ok fun _ => rfl, faultOf_resolve p,
        faultOf_resolveBranches rest]
    rw [branchChecks, resolveBranches]
    refine (faultOf_branch hafter).trans ?_
    simp

end

end Projection

end CheckedSql
