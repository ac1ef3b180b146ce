/-
What resolution makes of a condition. Groups that say nothing disappear and groups of one give way
to their member, at every depth; what is left has the leaves of the condition, in order, and means
what the condition means. So conditions that differ only in such groups are the same.
-/
import CheckedSql.Proofs.Query.Leaves
import CheckedSql.Proofs.Query.Resolve
import CheckedSql.Proofs.Schema
import CheckedSql.Proofs.Statement.Meaning

namespace CheckedSql

/-! ## Conditions by names -/

namespace Condition

mutual

/-- The value of a condition whose first leaf is number `i`, under an assignment of values to the
leaves: a group is the AND or the OR of those of its members that contain a leaf. -/
def truth (v : Nat → Truth) (i : Nat) : Condition → Truth
  | group junction members => junction.join (truths v i members)
  | _ => v i

/-- The values of those of a list of conditions that contain a leaf. -/
def truths (v : Nat → Truth) (i : Nat) : List Condition → List Truth
  | [] => []
  | c :: cs =>
    if c.leaves.isEmpty then truths v i cs
    else c.truth v i :: truths v (i + c.leaves.length) cs

end

/-- The second condition is the first with a group of one around a part of it, or with a member
more, somewhere, that contains no leaf. -/
inductive Pads : Condition → Condition → Prop
  | wrap (junction : Junction) (c : Condition) : Pads c (.group junction [c])
  | insert {empty : Condition} (junction : Junction) (before after : List Condition) :
      empty.leaves = [] →
      Pads (.group junction (before ++ after)) (.group junction (before ++ empty :: after))
  | within {c d : Condition} (junction : Junction) (before after : List Condition) : Pads c d →
      Pads (.group junction (before ++ c :: after)) (.group junction (before ++ d :: after))

end Condition

/-! ## Resolved conditions -/

mutual

/-- The parts of a condition that are no groups, from left to right. -/
def Cond.leaves : Cond → List Cond
  | .group _ members => Cond.leavesAll members
  | c => [c]

/-- The leaves of a list of conditions. -/
def Cond.leavesAll : List Cond → List Cond
  | [] => []
  | c :: cs => c.leaves ++ Cond.leavesAll cs

end

/-- What resolution against a schema yields: tests of columns of the schema with plain parameters,
by predicates, and by membership in parameters only; and groups of at least two. -/
inductive Cond.Normal (s : Schema) : Cond → Prop
  | compare {column : Column} {op : Operator} {param : Param} : column ∈ s.allColumns →
      op.isPredicate = true → Ident.isPlain param.name = true → Normal s (.compare column op param)
  | compareColumns {left right : Column} {op : Operator} : left ∈ s.allColumns →
      op.isPredicate = true → op.isMembership = false → right ∈ s.allColumns →
      Normal s (.compareColumns left op right)
  | null {column : Column} (negated : Bool) : column ∈ s.allColumns → Normal s (.null column negated)
  | between {column : Column} {low high : Param} (negated : Bool) : column ∈ s.allColumns →
      Ident.isPlain low.name = true → Ident.isPlain high.name = true →
      Normal s (.between column low high negated)
  | group (junction : Junction) (members : List Cond) : 2 ≤ members.length →
      (∀ c ∈ members, Normal s c) → Normal s (.group junction members)

namespace Cond

variable {s : Schema}

theorem Normal.leaves_ne_nil {c : Cond} (h : c.Normal s) : c.leaves ≠ [] := by
  induction h with
  | group junction members hlength _ ih =>
    cases members with
    | nil => simp at hlength
    | cons c cs =>
      rw [leaves, leavesAll]
      exact List.append_ne_nil_of_left_ne_nil (ih c List.mem_cons_self) _
  | _ => exact List.cons_ne_nil _ _

theorem length_predicatesEach {cs : List Cond}
    (h : ∀ c ∈ cs, c.predicates.length = c.leaves.length) :
    (predicatesEach cs).length = (leavesAll cs).length := by
  induction cs with
  | nil => rfl
  | cons c cs ih =>
    obtain ⟨hc, hcs⟩ := List.forall_mem_cons.1 h
    rw [predicatesEach, leavesAll, List.length_append, List.length_append, hc, ih hcs]

/-- Each leaf is one predicate: the comparison that is more does not come from resolution. -/
theorem Normal.length_predicates {c : Cond} (h : c.Normal s) :
    c.predicates.length = c.leaves.length := by
  induction h with
  | group junction members _ _ ih =>
    rw [predicates, leaves]
    exact length_predicatesEach ih
  | _ => rfl

theorem truths_append (v : Nat → Truth) (i : Nat) (cs ds : List Cond) :
    truths v i (cs ++ ds) = truths v i cs ++ truths v (i + (predicatesEach cs).length) ds := by
  induction cs generalizing i with
  | nil => rfl
  | cons c cs ih =>
    rw [List.cons_append, truths, ih, truths, predicatesEach, List.length_append, Nat.add_assoc]
    rfl

theorem leavesAll_append (cs ds : List Cond) : leavesAll (cs ++ ds) = leavesAll cs ++ leavesAll ds := by
  induction cs with
  | nil => rfl
  | cons c cs ih => rw [List.cons_append, leavesAll, ih, leavesAll, List.append_assoc]

end Cond

/-! ## What resolution keeps -/

section

variable {s : Schema}

theorem Schema.resolveColumn_mem {name : String} {c : Column} (h : s.resolveColumn name = .ok c) :
    c ∈ s.allColumns := by
  unfold resolveColumn at h
  split at h
  · rename_i info hfind
    cases h
    exact List.mem_map_of_mem (List.mem_of_find?_eq_some hfind)
  · cases h

theorem Schema.name_resolveColumn {name : String} {c : Column} (h : s.resolveColumn name = .ok c) :
    c.name = name := by
  unfold resolveColumn at h
  split at h
  · rename_i info hfind
    cases h
    exact name_find? hfind
  · cases h

/-- Columns that are found are the schema's own, under the names that were looked for. -/
theorem Schema.resolveColumns_ok {names : List String} {cs : List Column}
    (h : s.resolveColumns names = .ok cs) :
    cs.map (·.name) = names ∧ ∀ c ∈ cs, c ∈ s.allColumns := by
  induction names generalizing cs with
  | nil =>
    cases h
    exact ⟨rfl, List.forall_mem_nil _⟩
  | cons name names ih =>
    obtain ⟨c, hc, h⟩ := bind_ok h
    obtain ⟨rest, hrest, h⟩ := bind_ok h
    cases h
    obtain ⟨hnames, hmem⟩ := ih hrest
    refine ⟨?_, List.forall_mem_cons.2 ⟨resolveColumn_mem hc, hmem⟩⟩
    rw [List.map_cons, hnames, name_resolveColumn hc]

theorem Schema.resolveParam_plain {name : String} {p : Param} (h : s.resolveParam name = .ok p) :
    Ident.isPlain p.name = true := by
  unfold resolveParam at h
  split at h
  · rename_i hplain
    cases h
    exact hplain
  · cases h

theorem Vocabulary.resolvePredicate_isPredicate {token : String} {op : Operator}
    (h : resolvePredicate token = .ok op) : op.isPredicate = true := by
  obtain ⟨found, -, h⟩ := bind_ok h
  split at h
  · rename_i hpredicate
    cases h
    exact hpredicate
  · cases h

namespace Condition

/-- What resolution leaves of a list of conditions: conditions in normal form, with the leaves of
the list resolved one by one, that mean what those of the list mean that contain a leaf. -/
structure Remains (s : Schema) (cs : List Condition) (rs : List Cond) : Prop where
  normal : ∀ r ∈ rs, r.Normal s
  leaves : List.Forall₂ (fun l x => l.resolve s = .ok (some x)) (leavesAll cs) (Cond.leavesAll rs)
  truths : ∀ v i, Cond.truths v i rs = truths v i cs

namespace Remains

theorem nil : Remains s [] [] :=
  ⟨List.forall_mem_nil _, .nil, fun _ _ => rfl⟩

theorem length {cs : List Condition} {rs : List Cond} (h : Remains s cs rs) :
    (Cond.predicatesEach rs).length = (leavesAll cs).length := by
  rw [Cond.length_predicatesEach fun r hr => (h.normal r hr).length_predicates, h.leaves.length_eq]

theorem cons {c : Condition} {cs : List Condition} {rs more : List Cond} (hc : Remains s [c] rs)
    (hcs : Remains s cs more) : Remains s (c :: cs) (rs ++ more) := by
  have hleaves : c.leaves = leavesAll [c] := (List.append_nil _).symm
  refine ⟨List.forall_mem_append.2 ⟨hc.normal, hcs.normal⟩, ?_, fun v i => ?_⟩
  · rw [Cond.leavesAll_append, leavesAll, hleaves]
    exact List.rel_append hc.leaves hcs.leaves
  · rw [Cond.truths_append, hc.truths, hc.length, hcs.truths, ← hleaves]
    cases hempty : c.leaves with
    | nil => simp [Condition.truths, hempty]
    | cons l ls => simp [Condition.truths, hempty]

/-- A part that is no group. -/
theorem leaf {c : Condition} {r : Cond} (hc : c.leaves = [c]) (hr : r.leaves = [r])
    (h : c.resolve s = .ok (some r)) (hnormal : r.Normal s)
    (htruth : ∀ v i, r.truth v i = c.truth v i) : Remains s [c] [r] := by
  refine ⟨List.forall_mem_singleton.2 hnormal, ?_, fun v i => ?_⟩
  · rw [leavesAll, Cond.leavesAll, hc, hr]
    exact .cons h .nil
  · simp [Cond.truths, Condition.truths, hc, htruth v i]

/-- A group is none without members, and its member if there is only one. -/
theorem group {members : List Condition} {rs : List Cond} (junction : Junction)
    (h : Remains s members rs) :
    Remains s [.group junction members] (Cond.ofMembers junction rs).toList := by
  have hleaves : leavesAll [.group junction members] = leavesAll members := List.append_nil _
  cases rs with
  -- no member remains: nothing was a leaf, and the group vanishes
  | nil =>
    have hnone : leavesAll members = [] := List.forall₂_nil_right_iff.1 h.leaves
    refine ⟨List.forall_mem_nil _, hleaves ▸ h.leaves, fun v i => ?_⟩
    simp [Cond.truths, Condition.truths, Condition.leaves, hnone, Cond.ofMembers]
  | cons r rs =>
    -- a member remains, so there are leaves and the group has the joined value of what remains
    have hne : leavesAll members ≠ [] := by
      intro hnone
      have hnil := h.leaves
      rw [hnone, List.forall₂_nil_left_iff, Cond.leavesAll] at hnil
      exact (h.normal r List.mem_cons_self).leaves_ne_nil (List.append_eq_nil_iff.1 hnil).1
    have htruths (v : Nat → Truth) (i : Nat) : Condition.truths v i [.group junction members] =
        [junction.join (Cond.truths v i (r :: rs))] := by
      rw [h.truths]
      simp [Condition.truths, Condition.leaves, hne, Condition.truth]
    cases rs with
    | nil =>
      refine ⟨h.normal, hleaves ▸ h.leaves, fun v i => ?_⟩
      rw [htruths]
      simp [Cond.truths, Cond.ofMembers]
    -- one remaining member stands for the group itself; of two the group is kept
    | cons x rs =>
      have hgroup : Cond.Normal s (.group junction (r :: x :: rs)) :=
        .group junction _ (by simp) h.normal
      refine ⟨List.forall_mem_singleton.2 hgroup, ?_, fun v i => ?_⟩
      · rw [hleaves]
        show List.Forall₂ _ _ (Cond.leavesAll (r :: x :: rs) ++ [])
        rw [List.append_nil]
        exact h.leaves
      · rw [htruths]
        rfl

end Remains

mutual

theorem resolve_remains : ∀ {c : Condition} {r : Option Cond}, c.resolve s = .ok r →
    Remains s [c] r.toList
  | .compare column op param, r, h => by
    have hresolved := h
    unfold resolve at h
    obtain ⟨column, hcolumn, h⟩ := bind_ok h
    obtain ⟨op, hop, h⟩ := bind_ok h
    obtain ⟨param, hparam, h⟩ := bind_ok h
    cases h
    exact .leaf rfl rfl hresolved (.compare (Schema.resolveColumn_mem hcolumn)
      (Vocabulary.resolvePredicate_isPredicate hop) (Schema.resolveParam_plain hparam))
      fun _ _ => rfl
  | .compareColumns left op right, r, h => by
    have hresolved := h
    unfold resolve at h
    obtain ⟨left, hleft, h⟩ := bind_ok h
    obtain ⟨op, hop, h⟩ := bind_ok h
    split at h
    · cases h
    · rename_i hmembership
      obtain ⟨right, hright, h⟩ := bind_ok h
      cases h
      exact .leaf rfl rfl hresolved (.compareColumns (Schema.resolveColumn_mem hleft)
        (Vocabulary.resolvePredicate_isPredicate hop) (by simpa using hmembership)
        (Schema.resolveColumn_mem hright)) fun _ _ => rfl
  -- a leaf resolves to one condition of its own shape, with what it names found in the schema
  | .null column negated, r, h => by
    have hresolved := h
    unfold resolve at h
    obtain ⟨column, hcolumn, h⟩ := bind_ok h
    cases h
    exact .leaf rfl rfl hresolved (.null negated (Schema.resolveColumn_mem hcolumn)) fun _ _ => rfl
  | .between column low high negated, r, h => by
    have hresolved := h
    unfold resolve at h
    obtain ⟨column, hcolumn, h⟩ := bind_ok h
    obtain ⟨low, hlow, h⟩ := bind_ok h
    obtain ⟨high, hhigh, h⟩ := bind_ok h
    cases h
    exact .leaf rfl rfl hresolved (.between negated (Schema.resolveColumn_mem hcolumn)
      (Schema.resolveParam_plain hlow) (Schema.resolveParam_plain hhigh)) fun _ _ => rfl
  -- a group keeps what remains of its members
  | .group junction members, r, h => by
    unfold resolve at h
    obtain ⟨cs, hcs, h⟩ := bind_ok h
    cases h
    exact .group junction (resolveAll_remains hcs)

theorem resolveAll_remains : ∀ {cs : List Condition} {rs : List Cond}, resolveAll s cs = .ok rs →
    Remains s cs rs
  | [], rs, h => by
    cases h
    exact .nil
  | c :: cs, rs, h => by
    unfold resolveAll at h
    obtain ⟨r, hr, h⟩ := bind_ok h
    obtain ⟨more, hmore, h⟩ := bind_ok h
    cases h
    exact .cons (resolve_remains hr) (resolveAll_remains hmore)

end

/-- The leaves that resolution leaves are those of the condition, and a condition is left only if
there are any. -/
theorem resolve_some {c : Condition} {r : Cond} (h : c.resolve s = .ok (some r)) :
    r.Normal s ∧ List.Forall₂ (fun l x => l.resolve s = .ok (some x)) c.leaves r.leaves ∧
      c.leaves ≠ [] ∧ ∀ v, r.truth v 0 = c.truth v 0 := by
  have hremains := resolve_remains h
  have hleaves := hremains.leaves
  rw [Option.toList_some, leavesAll, Cond.leavesAll, leavesAll, Cond.leavesAll, List.append_nil,
    List.append_nil] at hleaves
  have hnormal := hremains.normal r List.mem_cons_self
  have hne : c.leaves ≠ [] := by
    intro hnone
    rw [hnone, List.forall₂_nil_left_iff] at hleaves
    exact hnormal.leaves_ne_nil hleaves
  refine ⟨hnormal, hleaves, hne, fun v => ?_⟩
  have htruths := hremains.truths v 0
  rw [truths, List.isEmpty_eq_false_iff.2 hne] at htruths
  exact (List.cons.inj htruths).1

theorem resolve_none {c : Condition} (h : c.resolve s = .ok none) : c.leaves = [] := by
  have hleaves := (resolve_remains h).leaves
  rw [leavesAll, leavesAll, List.append_nil] at hleaves
  exact List.forall₂_nil_right_iff.1 hleaves

/-- A condition that has no leaf says nothing, whatever the schema. -/
theorem resolve_of_no_leaf {c : Condition} (h : c.leaves = []) : c.resolve s = .ok none := by
  have hall : ∀ l ∈ c.leaves, ∃ r, l.resolve s = .ok r := by
    rw [h]
    exact List.forall_mem_nil _
  obtain ⟨r, hr⟩ := resolve_ok hall
  cases r with
  | none => exact hr
  | some r => exact absurd h (resolve_some hr).2.2.1

/-! ## Groups that do not matter -/

/-- Lists that resolve to the same do so behind others. -/
theorem resolveAll_append_congr {cs ds : List Condition} (h : resolveAll s cs = resolveAll s ds)
    (before : List Condition) : resolveAll s (before ++ cs) = resolveAll s (before ++ ds) := by
  induction before with
  | nil => exact h
  | cons b before ih => rw [List.cons_append, List.cons_append, resolveAll, resolveAll, ih]

theorem resolveAll_cons_of_no_leaf {c : Condition} (h : c.leaves = []) (cs : List Condition) :
    resolveAll s (c :: cs) = resolveAll s cs := by
  rw [resolveAll, resolve_of_no_leaf h]
  cases resolveAll s cs <;> rfl

theorem Pads.resolve_eq {c d : Condition} (h : Pads c d) : d.resolve s = c.resolve s := by
  induction h with
  | wrap junction c =>
    rw [resolve, resolveAll, resolveAll]
    rcases c.resolve s with _ | _ | _ <;> rfl
  | insert junction before after hempty =>
    rw [resolve, resolve, resolveAll_append_congr (resolveAll_cons_of_no_leaf hempty after) before]
  | within junction before after _ ih =>
    rename_i c d _
    have hcons : resolveAll s (d :: after) = resolveAll s (c :: after) := by
      rw [resolveAll, resolveAll, ih]
    rw [resolve, resolve, resolveAll_append_congr hcons before]

/-- Resolution keeps what a condition means and normalizes its shape. A condition whose leaves
resolve is nothing if and only if it has none; else it resolves to a condition in normal form with
the resolved leaves in order, and with the value of the condition whatever the values of the
leaves are. Groups around a single condition, and members without a leaf, make no difference
wherever they are. -/
theorem resolve_normalizes {s : Schema} {c : Condition}
    (h : ∀ l ∈ c.leaves, ∃ r, l.resolve s = .ok r) :
    (c.resolve s = .ok none ↔ c.leaves = []) ∧
      (c.leaves ≠ [] → ∃ r, c.resolve s = .ok (some r) ∧ r.Normal s ∧
        List.Forall₂ (fun l x => l.resolve s = .ok (some x)) c.leaves r.leaves ∧
        ∀ v, r.truth v 0 = c.truth v 0) ∧
      ∀ d, Relation.ReflTransGen Pads c d → d.resolve s = c.resolve s := by
  refine ⟨⟨resolve_none, resolve_of_no_leaf⟩, fun hne => ?_, fun d hd => ?_⟩
  · obtain ⟨r, hr⟩ := resolve_ok h
    cases r with
    | none => exact absurd (resolve_none hr) hne
    | some r =>
      obtain ⟨hnormal, hleaves, -, htruth⟩ := resolve_some hr
      exact ⟨r, hr, hnormal, hleaves, htruth⟩
  · induction hd with
    | refl => rfl
    | tail _ hpads ih => rw [hpads.resolve_eq, ih]

/-- An OR of which one member is in groups of its own, one says nothing and one is an AND. -/
theorem resolve_normalizes_nested :
    let s : Schema :=
      ⟨"users", [⟨"id", true, false⟩, ⟨"age", false, true⟩], by decide, by decide, by decide,
        by decide⟩
    let c : Condition :=
      .group .or [.group .and [.group .or [.compare "id" " in " "ids"]], .group .and [.group .or []],
        .group .and [.null "age" true, .between "age" "low" "high" false]]
    let d : Condition := .group .and [.group .or [], c]
    ∃ r, c.resolve s = .ok (some r) ∧ r.Normal s ∧ r.leaves.length = 3 ∧
      d.resolve s = .ok (some r) ∧ r.truth (fun i => if i = 0 then .unknown else .yes) 0 = .yes := by
  intro s c d
  have hleaves : ∀ l ∈ c.leaves, ∃ r, l.resolve s = .ok r := by
    intro l hl
    rw [← faultOf_eq_none]
    revert l
    decide +kernel
  obtain ⟨-, hsome, hpads⟩ := resolve_normalizes hleaves
  obtain ⟨r, hr, hnormal, hforall, htruth⟩ := hsome (by decide)
  refine ⟨r, hr, hnormal, hforall.length_eq.symm, ?_, ?_⟩
  · rw [← hr]
    exact hpads d (.tail (.single (.wrap .and c)) (.insert .and [] [c] rfl))
  · rw [htruth]
    decide

end Condition

end

end CheckedSql
