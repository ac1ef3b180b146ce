/-
What resolves against a schema keeps to it: the identifiers of a resolved condition or expression
are columns of the schema, and its parameters have plain names, however deep it is nested.
-/
import CheckedSql.Proofs.Statement.Sources
import CheckedSql.Query.Chain
import CheckedSql.Query.Select

namespace CheckedSql

/-! ## Success -/

theorem bind_ok {ε α β : Type} {x : Except ε α} {f : α → Except ε β} {b : β}
    (h : (x >>= f) = .ok b) : ∃ a, x = .ok a ∧ f a = .ok b := by
  cases x with
  | error e => cases h
  | ok a => exact ⟨a, rfl, h⟩

theorem liftBuild_ok {α : Type} {x : Except BuildError α} {a : α} (h : liftBuild x = .ok a) :
    x = .ok a := by
  cases x with
  | error e => cases h
  | ok b => cases h; rfl

/-! ## Columns and parameters -/

/-- The names that a schema brings into a statement. -/
def Schema.names (s : Schema) : List String :=
  s.table :: s.columns.map (·.name)

namespace Sources

variable {v : Sources} {s : Schema}

/-- Sources that have the names of a schema. -/
def Covers (v : Sources) (s : Schema) : Prop :=
  s.names ⊆ v.names

theorem Covers.table (hs : v.Covers s) : v.Allows (.identifier s.table) :=
  ⟨s.table_plain, hs List.mem_cons_self⟩

theorem Covers.column (hs : v.Covers s) {c : ColumnInfo} (hc : c ∈ s.columns) :
    v.Allows c.column.token :=
  ⟨s.columns_plain c hc, hs (.tail _ (List.mem_map.2 ⟨c, hc, rfl⟩))⟩

theorem Covers.allColumns (hs : v.Covers s) : ∀ c ∈ s.allColumns, v.Allows c.token :=
  List.forall_mem_map.2 fun _ hc => hs.column hc

theorem Covers.nonPrimary (hs : v.Covers s) : ∀ c ∈ s.nonPrimary, v.Allows c.token :=
  List.forall_mem_map.2 fun _ hc => hs.column (List.mem_filter.1 hc).1

theorem Covers.resolveColumn (hs : v.Covers s) {name : String} {c : Column}
    (h : s.resolveColumn name = .ok c) : v.Allows c.token := by
  unfold Schema.resolveColumn at h
  split at h
  · rename_i info hfind
    cases h
    exact hs.column (List.mem_of_find?_eq_some hfind)
  · cases h

theorem Covers.resolveColumns (hs : v.Covers s) {names : List String} {cs : List Column}
    (h : s.resolveColumns names = .ok cs) : ∀ c ∈ cs, v.Allows c.token := by
  induction names generalizing cs with
  | nil => cases h; exact List.forall_mem_nil _
  | cons name names ih =>
    obtain ⟨c, hc, h⟩ := bind_ok h
    obtain ⟨cs, hcs, h⟩ := bind_ok h
    cases h
    exact List.forall_mem_cons.2 ⟨hs.resolveColumn hc, ih hcs⟩

theorem resolveParam_allows {name : String} {p : Param} (h : s.resolveParam name = .ok p) :
    v.Allows p.token := by
  unfold Schema.resolveParam at h
  split at h
  · rename_i hplain
    cases h
    exact hplain
  · cases h

theorem resolveOutputName_allows {name out : String} (hname : name ∈ v.names)
    (h : s.resolveOutputName name = .ok out) : v.Allows (.identifier out) := by
  unfold Schema.resolveOutputName at h
  split at h
  · rename_i hplain
    cases h
    exact ⟨hplain, hname⟩
  · cases h

/-! ## Conditions -/

mutual

theorem Covers.condition (hs : v.Covers s) : ∀ {c : Condition} {r : Option Cond},
    c.resolve s = .ok r → ∀ x ∈ r, v.Within x.tokens
  | .compare column op param, r, h => by
    unfold Condition.resolve at h
    obtain ⟨column, hcolumn, h⟩ := bind_ok h
    obtain ⟨op, -, h⟩ := bind_ok h
    obtain ⟨param, hparam, h⟩ := bind_ok h
    rintro x hx
    cases h
    cases hx
    rw [Cond.tokens, within_cons]
    exact ⟨hs.resolveColumn hcolumn, .comparison op (resolveParam_allows hparam)⟩
  | .compareColumns left op right, r, h => by
    unfold Condition.resolve at h
    obtain ⟨left, hleft, h⟩ := bind_ok h
    obtain ⟨op, -, h⟩ := bind_ok h
    split at h
    · cases h
    · obtain ⟨right, hright, h⟩ := bind_ok h
      rintro x hx
      cases h
      cases hx
      rw [Cond.tokens]
      simp [hs.resolveColumn hleft, hs.resolveColumn hright]
  | .null column negated, r, h => by
    unfold Condition.resolve at h
    obtain ⟨column, hcolumn, h⟩ := bind_ok h
    rintro x hx
    cases h
    cases hx
    rw [Cond.tokens, within_cons]
    exact ⟨hs.resolveColumn hcolumn, within_keywords _⟩
  | .between column low high negated, r, h => by
    unfold Condition.resolve at h
    obtain ⟨column, hcolumn, h⟩ := bind_ok h
    obtain ⟨low, hlow, h⟩ := bind_ok h
    obtain ⟨high, hhigh, h⟩ := bind_ok h
    rintro x hx
    cases h
    cases hx
    rw [Cond.tokens]
    simp [hs.resolveColumn hcolumn, resolveParam_allows hlow, resolveParam_allows hhigh]
  -- a group that resolves to nothing, or to its one member, is in `ofMembers`
  | .group junction members, r, h => by
    unfold Condition.resolve at h
    obtain ⟨cs, hcs, h⟩ := bind_ok h
    cases h
    exact .ofMembers (hs.conditions hcs)

theorem Covers.conditions (hs : v.Covers s) : ∀ {cs : List Condition} {rs : List Cond},
    Condition.resolveAll s cs = .ok rs → ∀ x ∈ rs, v.Within x.tokens
  | [], rs, h => by
    cases h
    exact List.forall_mem_nil _
  | c :: cs, rs, h => by
    unfold Condition.resolveAll at h
    obtain ⟨r, hr, h⟩ := bind_ok h
    obtain ⟨more, hmore, h⟩ := bind_ok h
    cases h
    refine List.forall_mem_append.2 ⟨fun x hx => ?_, hs.conditions hmore⟩
    exact hs.condition hr x (Option.mem_toList.1 hx)

end

theorem Covers.condition? (hs : v.Covers s) {c : Option Condition} {r : Option Cond}
    (h : Condition.resolve? s c = .ok r) : ∀ x ∈ r, v.Within x.tokens := by
  cases c with
  | none => cases h; exact fun x hx => by cases hx
  | some c => exact hs.condition h

theorem Covers.attach (hs : v.Covers s) {c : Condition} {cs rs : List Cond}
    (hcs : ∀ x ∈ cs, v.Within x.tokens) (h : attach s c cs = .ok rs) :
    ∀ x ∈ rs, v.Within x.tokens := by
  obtain ⟨r, hr, h⟩ := bind_ok h
  cases h
  exact List.forall_mem_append.2 ⟨hcs, fun x hx => hs.condition hr x (Option.mem_toList.1 hx)⟩

/-! ## Orderings and windows -/

theorem Covers.orderItem (hs : v.Covers s) {column direction : String} {nulls : Option String}
    {o : OrderItem} (h : OrderItem.resolve s column direction nulls = .ok o) :
    v.Within o.tokens := by
  obtain ⟨column, hcolumn, h⟩ := bind_ok h
  obtain ⟨direction, -, h⟩ := bind_ok h
  have hallows := hs.resolveColumn hcolumn
  cases nulls with
  | none =>
    cases h
    simp [OrderItem.tokens, Expr.tokens, hallows]
  | some n =>
    obtain ⟨nulls, -, h⟩ := bind_ok h
    cases h
    simp [OrderItem.tokens, Expr.tokens, hallows]

theorem Covers.order (hs : v.Covers s) {keys : List (String × String)} {os : List OrderItem}
    (h : WindowSpec.resolveOrder s keys = .ok os) : ∀ o ∈ os, v.Within o.tokens := by
  induction keys generalizing os with
  | nil => cases h; exact List.forall_mem_nil _
  | cons key keys ih =>
    obtain ⟨o, ho, h⟩ := bind_ok h
    obtain ⟨more, hmore, h⟩ := bind_ok h
    cases h
    exact List.forall_mem_cons.2 ⟨hs.orderItem ho, ih hmore⟩

theorem Covers.window (hs : v.Covers s) {w : WindowSpec} {r : Window}
    (h : w.resolve s = .ok r) : v.Within r.tokens := by
  obtain ⟨partitionBy, hpartition, h⟩ := bind_ok h
  obtain ⟨orderBy, horder, h⟩ := bind_ok h
  cases h
  exact .window (hs.resolveColumns hpartition) (hs.order horder)

theorem Covers.window? (hs : v.Covers s) {w : Option WindowSpec} {r : Option Window}
    (h : WindowSpec.resolve? s w = .ok r) : v.Within (Window.tokens? r) := by
  cases w with
  | none => cases h; exact within_nil
  | some w =>
    obtain ⟨r, hr, h⟩ := bind_ok h
    cases h
    exact hs.window hr

/-! ## Expressions -/

mutual

theorem Covers.projection (hs : v.Covers s) : ∀ {p : Projection} {e : Expr},
    p.resolve s = .ok e → v.Within e.tokens
  | .column name, e, h => by
    unfold Projection.resolve at h
    obtain ⟨c, hc, h⟩ := bind_ok h
    cases h
    simpa [Expr.tokens] using hs.resolveColumn hc
  | .param name, e, h => by
    unfold Projection.resolve at h
    obtain ⟨p, hp, h⟩ := bind_ok h
    cases h
    simpa [Expr.tokens] using resolveParam_allows hp
  | .call fn args, e, h => by
    unfold Projection.resolve at h
    obtain ⟨es, hes, h⟩ := bind_ok h
    cases h
    have hargs : v.Within (Sql.commaSeparated (es.map Expr.tokens)) :=
      .commaSeparated (hs.projections hes)
    simpa [Expr.tokens, Expr.tokensEach_eq_map] using hargs
  | .cast p type, e, h => by
    unfold Projection.resolve at h
    obtain ⟨inner, hinner, h⟩ := bind_ok h
    obtain ⟨type, -, h⟩ := bind_ok h
    cases h
    simpa [Expr.tokens] using hs.projection hinner
  | .binary left op right, e, h => by
    unfold Projection.resolve at h
    obtain ⟨l, hl, h⟩ := bind_ok h
    obtain ⟨o, -, h⟩ := bind_ok h
    split at h
    · cases h
    · obtain ⟨r, hr, h⟩ := bind_ok h
      cases h
      simpa [Expr.tokens] using And.intro (hs.projection hl) (hs.projection hr)
  | .aggregate fn arg filter window, e, h => by
    unfold Projection.resolve at h
    obtain ⟨filter, hfilter, h⟩ := bind_ok h
    obtain ⟨arg, harg, h⟩ := bind_ok h
    obtain ⟨window, hwindow, h⟩ := bind_ok h
    cases h
    exact .aggregateExpr fn (hs.projection? harg) (hs.condition? hfilter) (hs.window? hwindow)
  -- the ELSE part is the one that may be missing
  | .case branches otherwise, e, h => by
    unfold Projection.resolve at h
    obtain ⟨bs, hbs, h⟩ := bind_ok h
    split at h
    · cases h
    · obtain ⟨otherwise, hotherwise, h⟩ := bind_ok h
      cases h
      have hbranches := hs.branches hbs
      have helse := hs.projection? hotherwise
      cases otherwise with
      | none => simpa [Expr.tokens, Expr.tokens?] using hbranches
      | some x => simpa [Expr.tokens, Expr.tokens?] using And.intro hbranches (helse x rfl)
  | .ranking fn window, e, h => by
    unfold Projection.resolve at h
    obtain ⟨w, hw, h⟩ := bind_ok h
    cases h
    simpa [Expr.tokens] using hs.window hw

theorem Covers.projections (hs : v.Covers s) : ∀ {ps : List Projection} {es : List Expr},
    Projection.resolveAll s ps = .ok es → ∀ e ∈ es, v.Within e.tokens
  | [], es, h => by
    cases h
    exact List.forall_mem_nil _
  | p :: ps, es, h => by
    unfold Projection.resolveAll at h
    obtain ⟨e, he, h⟩ := bind_ok h
    obtain ⟨more, hmore, h⟩ := bind_ok h
    cases h
    exact List.forall_mem_cons.2 ⟨hs.projection he, hs.projections hmore⟩

theorem Covers.projection? (hs : v.Covers s) : ∀ {p : Option Projection} {e : Option Expr},
    Projection.resolve? s p = .ok e → ∀ x ∈ e, v.Within x.tokens
  | none, e, h => by
    cases h
    exact fun x hx => by cases hx
  | some p, e, h => by
    unfold Projection.resolve? at h
    obtain ⟨x, hx, h⟩ := bind_ok h
    cases h
    exact fun y hy => by cases hy; exact hs.projection hx

theorem Covers.branches (hs : v.Covers s) : ∀ {bs : List (Condition × Projection)}
    {rs : List (Cond × Expr)}, Projection.resolveBranches s bs = .ok rs →
      v.Within (Expr.branchTokens rs)
  | [], rs, h => by
    cases h
    exact within_nil
  | (c, p) :: bs, rs, h => by
    unfold Projection.resolveBranches at h
    obtain ⟨r, hr, h⟩ := bind_ok h
    cases r with
    | none => cases h
    | some c =>
      obtain ⟨e, he, h⟩ := bind_ok h
      obtain ⟨more, hmore, h⟩ := bind_ok h
      cases h
      have hc := hs.condition hr c rfl
      simpa [Expr.branchTokens] using And.intro hc (And.intro (hs.projection he) (hs.branches hmore))

end

end Sources

end CheckedSql
