/-
The row that an INSERT has added, found again. Where the database cannot return it, it is looked for
by the columns of the conflict target, or without one by every column that was written. Its condition
holds of the rows whose values in these columns are the parameters of their names, NULL included: a
column that may hold NULL is compared in the way that takes NULL for equal, and one that may not
needs no such comparison.
-/
import CheckedSql.Proofs.Execution.Plan
import CheckedSql.Proofs.Query.Faults
import CheckedSql.Proofs.Query.NormalForm
import CheckedSql.Proofs.Sql.Selection
import CheckedSql.Proofs.Statement.Meaning

namespace CheckedSql

open Sql (Token Keyword Balanced Formula Avoids Scope keywords commaSeparated)

/-! ## Rows under a WHERE clause -/

namespace Sql

/-- A query with conditions behind WHERE: for a row it comes to these, joined by AND. -/
theorem Scope.selects_where {V : Type} [BEq V] (σ : Scope V) (f : String → Nat) {before after : Tokens}
    (hbalanced : Balanced before) (hbefore : .keyword .WHERE ∉ before)
    (hafter : .keyword .WHERE ∉ after) (hends : Avoids (keywords [.OR, .AND]) after)
    {cs : List Cond} {r : Renderer} (hmeets : r.MeetsAll (Cond.demandsAll cs)) {ts : List Truth}
    (hvalue : List.Forall₂ (fun c t => (c.formula f).value σ.test = some t) cs ts) :
    σ.selects (textOf placeholder ((before ++ (whereTokens cs ++ after)).map (Token.map f))) =
      some (Junction.and.join ts) := by
  rw [Scope.selects, scan_textOf, List.map_append]
  simp only [Option.bind_eq_bind, Option.bind_some]
  rw [(hbalanced.map f).behindWord_append (not_mem_map_keyword hbefore f)]
  -- without conditions there is no WHERE anywhere, and every row is selected
  cases hvalue with
  | nil =>
    rw [show whereTokens [] = [] from rfl, List.nil_append,
      behindWord_eq_none (not_mem_map_keyword hafter f)]
    rfl
  | @cons c t cs ts hc hcs =>
    have hne : c :: cs ≠ [] := List.cons_ne_nil c cs
    have hread := Formula.ofTokens_conjunction hne hmeets hends f
    have hbehind : behindWord .WHERE 0 ((whereTokens (c :: cs) ++ after).map (Token.map f)) =
        some ((conjunctionTokens (c :: cs) ++ after).map (Token.map f)) := by
      rw [whereTokens_of_ne_nil hne]
      exact behindWord_keyword _ _
    rw [hbehind]
    simp only [hread, Option.bind_some]
    refine Formula.value_joined σ.test (.cons hc ?_)
    rwa [Cond.formulas_eq_map, List.forall₂_map_left_iff]

end Sql

/-! ## The columns by which a row is found -/

namespace Schema

variable {s : Schema}

/-- A column whose values may be NULL is declared so. -/
theorem isNullable_of_mem {V : Type} {row : String → Option V}
    (hrow : ∀ info ∈ s.columns, row info.name = none → info.nullable = true) {c : Column}
    (hc : c ∈ s.allColumns) (hnull : row c.name = none) : s.isNullable c.name = true := by
  obtain ⟨info, hinfo, rfl⟩ := List.mem_map.1 hc
  obtain ⟨found, hfound⟩ : ∃ found, s.find? info.name = some found :=
    Option.isSome_iff_exists.1 (List.find?_isSome.2 ⟨info, hinfo, BEq.rfl⟩)
  have hnullable := hrow found (List.mem_of_find?_eq_some hfound) (name_find? hfound ▸ hnull)
  rw [isNullable]
  show ((s.find? info.name).map (·.nullable)).getD false = true
  rw [hfound]
  exact hnullable

end Schema

namespace InsertQuery

/-- The names that a call gives for the columns of the conflict. -/
def Call.target : Call → List String
  | .onConflictSkip target | .onConflictOverwrite target _ => target

/-- The names of the columns of the conflict: those of the last call. -/
def targetNames (calls : List Call) : List String :=
  (calls.getLast?.map Call.target).getD []

/-- The names of the columns by which an added row is found again. -/
def keyNames (s : Schema) (calls : List Call) : List String :=
  if targetNames calls = [] then s.nonPrimary.map (·.name) else targetNames calls

/-- The columns of a conflict, if there is one. -/
def targetColumns (conflict : Option Conflict) : List Column :=
  (conflict.map Conflict.target).getD []

theorem Call.conflict_ok {s : Schema} {c : Call} {conflict : Conflict}
    (h : c.conflict s = .ok conflict) :
    conflict.target.map (·.name) = c.target ∧ ∀ column ∈ conflict.target, column ∈ s.allColumns := by
  cases c with
  | onConflictSkip target =>
    obtain ⟨ts, hts, h⟩ := bind_ok h
    cases h
    exact Schema.resolveColumns_ok hts
  | onConflictOverwrite target columns =>
    obtain ⟨ts, hts, h⟩ := bind_ok h
    obtain ⟨cs, -, h⟩ := bind_ok h
    dsimp only at h
    split at h
    · cases h
    · cases h
      exact Schema.resolveColumns_ok hts

/-- The columns of the conflict are those that the last call names. -/
theorem targetColumns_ofCalls {t : Table} {calls : List Call} {conflict : Option Conflict}
    (h : liftBuild (ofCalls t calls).chain.result = .ok conflict) :
    (targetColumns conflict).map (·.name) = targetNames calls ∧
      ∀ c ∈ targetColumns conflict, c ∈ t.schema.allColumns := by
  let P (done : List Call) (g : Option Conflict) : Prop :=
    (targetColumns g).map (·.name) = targetNames done ∧ ∀ c ∈ targetColumns g, c ∈ t.schema.allColumns
  have hstart : P [] none := ⟨rfl, List.forall_mem_nil _⟩
  rw [ofCalls_eq] at h
  refine Chain.result_foldl (P := P) ?_ calls (fun _ => hstart) (liftBuild_ok h)
  intro done g call next _ hnext
  obtain ⟨conflict, hconflict, hnext⟩ := bind_ok hnext
  cases hnext
  show (targetColumns (some conflict)).map (·.name) = targetNames (done ++ [call]) ∧ _
  rw [targetNames, List.getLast?_concat]
  exact Call.conflict_ok hconflict

theorem keys_eq (q : InsertQuery) (conflict : Option Conflict) :
    q.keys conflict =
      if targetColumns conflict = [] then q.columns else targetColumns conflict := by
  cases conflict with
  | none => rfl
  | some c =>
    show (if c.target.isEmpty then q.columns else c.target) = if c.target = [] then _ else c.target
    simp only [List.isEmpty_iff]

theorem names_keys {t : Table} {calls : List Call} {conflict : Option Conflict}
    (h : liftBuild (ofCalls t calls).chain.result = .ok conflict) :
    ((ofCalls t calls).keys conflict).map (·.name) = keyNames t.schema calls := by
  obtain ⟨hnames, -⟩ := targetColumns_ofCalls h
  rw [keys_eq, keyNames, ← hnames, columns, table_ofCalls]
  simp only [List.map_eq_nil_iff]
  split <;> rfl

theorem mem_of_mem_keys {t : Table} {calls : List Call} {conflict : Option Conflict}
    (h : liftBuild (ofCalls t calls).chain.result = .ok conflict) :
    ∀ c ∈ (ofCalls t calls).keys conflict, c ∈ t.schema.allColumns := by
  obtain ⟨-, htarget⟩ := targetColumns_ofCalls h
  rw [keys_eq, columns, table_ofCalls]
  split
  · exact fun c hc => Schema.mem_allColumns.2 (.inr hc)
  · exact htarget

/-! ## The statement that reads it -/

theorem uses_keyCond (q : InsertQuery) (c : Column) {name : String} :
    name ∈ (q.keyCond c).uses ↔ name = c.name := by
  unfold keyCond
  split <;> simp [Cond.uses, Column.param]

theorem usesAll_keyCond (q : InsertQuery) (cs : List Column) {name : String} :
    name ∈ Cond.usesAll (cs.map q.keyCond) ↔ name ∈ cs.map (·.name) := by
  simp [Cond.usesAll_eq_flatMap, uses_keyCond, eq_comm]

/-- The statement has the names of the columns that a row is found by, and no other. -/
theorem mem_params_readBack {q : InsertQuery} {conflict : Option Conflict} {name : String} :
    name ∈ (Rendered.ofTokens (q.readBack conflict).tokens).params ↔
      name ∈ (q.keys conflict).map (·.name) := by
  rw [Rendered.mem_params_ofTokens, SelectStatement.paramsOf_tokens, ← q.usesAll_keyCond]
  simp [SelectStatement.uses, readBack, Schema.allItems, SelectItem.ofColumn, Expr.uses,
    Cond.usesAll, OrderItem.usesAll_eq_flatMap, OrderItem.uses, Bound.uses]

/-- The statement from left to right. Its WHERE is the only one in it. -/
theorem tokens_readBack (q : InsertQuery) (conflict : Option Conflict) :
    ∃ before after, (q.readBack conflict).tokens =
        before ++ (whereTokens ((q.keys conflict).map q.keyCond) ++ after) ∧
      Balanced before ∧ .keyword .WHERE ∉ before ∧ .keyword .WHERE ∉ after ∧
      Avoids (keywords [.OR, .AND]) after := by
  let s := q.readBack conflict
  refine ⟨sourceTokens s.distinct s.items s.table, tailTokens s.orderBy s.limit s.offset, ?_,
    sourceTokens_balanced _ _ _, ?_, ?_, tailTokens_avoids (by decide) _ _ _⟩
  · rw [SelectStatement.tokens_eq]
    simp [s, readBack, groupByTokens, havingTokens, lockTokens]
  -- the items and the keys are columns, so no word of theirs is a WHERE
  · have hitems : ∀ ts ∈ s.items.map SelectItem.tokens, .keyword .WHERE ∉ ts := by
      intro ts hts
      obtain ⟨item, hitem, rfl⟩ := List.mem_map.1 hts
      obtain ⟨c, -, rfl⟩ := List.mem_map.1 hitem
      simp [SelectItem.tokens, SelectItem.ofColumn, Expr.tokens, Column.token]
    have hlist := Sql.not_mem_commaSeparated (by simp) hitems
    unfold sourceTokens
    split <;> split <;> simp [hlist]
  · have hkeys : ∀ ts ∈ OrderItem.tokensEach s.orderBy, .keyword .WHERE ∉ ts := by
      intro ts hts
      rw [OrderItem.tokensEach_eq_map] at hts
      obtain ⟨o, ho, rfl⟩ := List.mem_map.1 hts
      obtain ⟨c, -, rfl⟩ := List.mem_map.1 ho
      simp [OrderItem.tokens, Expr.tokens, Column.token, Direction.keyword]
    have hlist := Sql.not_mem_commaSeparated (by simp) hkeys
    have hlimit : .keyword .WHERE ∉ boundTokens .LIMIT s.limit := by
      simp only [s, readBack]
      split <;> simp [boundTokens, Bound.token]
    simp only [tailTokens, List.mem_append, not_or]
    refine ⟨⟨?_, hlimit⟩, List.not_mem_nil⟩
    unfold orderByTokens
    split <;> simp [hlist, keywords]

/-! ## The rows that it selects -/

section

variable {V : Type} [BEq V]

/-- What the condition of a column comes to for a value of the column and one of its parameter. -/
def keyTruth (nullable : Bool) (x y : Option V) : Truth :=
  if nullable then (Truth.equal x y).or ((Truth.isNull x).and (Truth.isNull y)) else Truth.equal x y

theorem keyTruth_eq_yes {nullable : Bool} {x y : Option V} (h : x = none → nullable = true) :
    keyTruth nullable x y = .yes ↔ Agree x y := by
  unfold keyTruth
  split
  · exact Truth.nullSafe_eq_yes
  · rename_i hnullable
    rw [Truth.equal_eq_yes]
    exact and_iff_left fun hx => hnullable (h hx)

theorem value_keyCond (q : InsertQuery) (c : Column) {σ : Scope V} {f : String → Nat} {v : Option V}
    (hv : σ.args[f c.name - 1]? = some v) :
    ((q.keyCond c).formula f).value σ.test =
      some (keyTruth (q.table.schema.isNullable c.name) (σ.row c.name) v) := by
  have hcolumn : σ.operand (c.token.map f) = some (σ.row c.name) := rfl
  have hparam : σ.operand (c.param.token.map f) = some v := hv
  have hequal : (Formula.predicate ([c.token, .symbol .eq, c.param.token].map (Token.map f))).value
      σ.test = some (Truth.equal (σ.row c.name) v) := by
    show (do return Truth.equal (← σ.operand (c.token.map f)) (← σ.operand (c.param.token.map f))) = _
    rw [hcolumn, hparam]
    rfl
  have hnull {x : Token String} {y : Option V} (hx : σ.operand (x.map f) = some y) :
      (Formula.predicate ((x :: keywords [.IS, .NULL]).map (Token.map f))).value σ.test =
        some (Truth.isNull y) := by
    show (do return Truth.isNull (← σ.operand (x.map f))) = _
    rw [hx]
    rfl
  unfold keyCond keyTruth
  split
  · exact Formula.value_combine σ.test hequal
      (Formula.value_combine σ.test (hnull hcolumn) (hnull hparam))
  · exact hequal

/-- What the statement comes to for a row: the conditions of its columns, joined by AND. -/
theorem selects_readBack (q : InsertQuery) (conflict : Option Conflict) {ps : Params (Option V)}
    {args : List (Option V)} (row : String → Option V)
    (hargs : ps.bind (Rendered.ofTokens (q.readBack conflict).tokens).params = .ok args) :
    (Scope.mk row args).selects (Rendered.ofTokens (q.readBack conflict).tokens).sql =
      some (Junction.and.join ((q.keys conflict).map fun c =>
        keyTruth (q.table.schema.isNullable c.name) (row c.name) ((ps.get? c.name).getD none))) := by
  let read := Rendered.ofTokens (q.readBack conflict).tokens
  obtain ⟨before, after, htokens, hbalanced, hbefore, hafter, hends⟩ := q.tokens_readBack conflict
  -- an accepted condition demands nothing, so any renderer will do
  have hmeets : (Renderer.ofDialect .postgres).MeetsAll
      (Cond.demandsAll ((q.keys conflict).map q.keyCond)) := by
    rw [demandsAll_keyCond]
    exact Renderer.meetsAll_nil
  have hnumbered : read.numbered (q.readBack conflict).tokens =
      (before ++ (whereTokens ((q.keys conflict).map q.keyCond) ++ after)).map
        (Token.map (Draft.rank read.params)) := congrArg (List.map _) htokens
  rw [(Rendered.ofTokens_eq _).2, hnumbered]
  refine Scope.selects_where _ _ hbalanced hbefore hafter hends hmeets ?_
  rw [List.forall₂_map_left_iff, List.forall₂_map_right_iff, List.forall₂_same]
  intro c hc
  have hname : c.name ∈ read.params := mem_params_readBack.2 (List.mem_map_of_mem hc)
  obtain ⟨v, hv⟩ := Params.contains_iff.1 (Params.contains_of_bind hargs hname)
  refine q.value_keyCond c ?_
  show args[Draft.rank read.params c.name - 1]? = _
  rw [Params.getElem?_bind hargs, Draft.getElem?_rank hname, hv]
  exact hv

/-- The condition is true of the rows that agree with the parameters in every column that a row is
found by. -/
theorem selects_iff_agree {t : Table} {calls : List Call} {conflict : Option Conflict}
    (hconflict : liftBuild (ofCalls t calls).chain.result = .ok conflict) {ps : Params (Option V)}
    {args : List (Option V)} {row : String → Option V}
    (hargs : ps.bind (Rendered.ofTokens ((ofCalls t calls).readBack conflict).tokens).params =
      .ok args)
    (hrow : ∀ c ∈ t.schema.columns, row c.name = none → c.nullable = true) :
    ∃ truth, (Scope.mk row args).selects
          (Rendered.ofTokens ((ofCalls t calls).readBack conflict).tokens).sql = some truth ∧
      (truth = .yes ↔
        ∀ name ∈ keyNames t.schema calls, ∃ v, ps.get? name = some v ∧ Agree (row name) v) := by
  have hnames := names_keys hconflict
  refine ⟨_, selects_readBack _ _ row hargs, ?_⟩
  rw [Junction.join_and_eq_yes, List.forall_mem_map, ← hnames, List.forall_mem_map]
  refine forall₂_congr fun c hc => ?_
  have hname := mem_params_readBack.2 (List.mem_map_of_mem hc)
  obtain ⟨v, hv⟩ := Params.contains_iff.1 (Params.contains_of_bind hargs hname)
  have hnullable := Schema.isNullable_of_mem hrow (mem_of_mem_keys hconflict c hc)
  rw [table_ofCalls, keyTruth_eq_yes hnullable, hv]
  simp

/-- What the statement that reads an added row back selects. Its condition is true of a row if and
only if the row agrees with the parameters in every column it is found by: both are NULL, or equal and
not NULL. So it is true of no row that differs in one of these, and, unless a column of the primary
key is among them, of every row that holds the parameters in the columns that were written. -/
theorem selects_of_render [ReflBEq V] {t : Table} {calls : List Call} {r : Rendered}
    (h : (ofCalls t calls).render = .ok r) :
    ∃ read, (ofCalls t calls).renderReadBack = .ok read ∧
      ∀ (ps : Params (Option V)) (args : List (Option V)) (row : String → Option V),
        ps.bind read.params = .ok args →
        (∀ c ∈ t.schema.columns, row c.name = none → c.nullable = true) →
        ∃ truth, (Scope.mk row args).selects read.sql = some truth ∧
          (truth = .yes ↔
            ∀ name ∈ keyNames t.schema calls, ∃ v, ps.get? name = some v ∧ Agree (row name) v) ∧
          (∀ name ∈ keyNames t.schema calls, ∀ v, ps.get? name = some v → ¬Agree (row name) v →
            truth ≠ .yes) ∧
          ((∀ c ∈ t.schema.primaryKey, c.name ∉ keyNames t.schema calls) →
            (∀ c ∈ t.schema.nonPrimary, ps.get? c.name = some (row c.name)) → truth = .yes) := by
  obtain ⟨conflict, hconflict, -⟩ := bind_ok h
  refine ⟨_, renderReadBack_eq hconflict, fun ps args row hargs hrow => ?_⟩
  obtain ⟨truth, htruth, hiff⟩ := selects_iff_agree hconflict hargs hrow
  refine ⟨truth, htruth, hiff, fun name hname v hv hdiffers hyes => ?_, fun hprimary hwritten => ?_⟩
  · obtain ⟨w, hw, hagree⟩ := hiff.1 hyes name hname
    rw [hv] at hw
    cases hw
    exact hdiffers hagree
  -- what was written is what the row has, so every key that is no primary key agrees with it
  · rw [hiff]
    intro name hname
    obtain ⟨c, hc, rfl⟩ := List.mem_map.1 (names_keys hconflict ▸ hname)
    have hnonPrimary : c ∈ t.schema.nonPrimary :=
      (Schema.mem_allColumns.1 (mem_of_mem_keys hconflict c hc)).resolve_left fun hkey =>
        hprimary c hkey hname
    exact ⟨_, hwritten c hnonPrimary, .refl _⟩

/-- A row whose age is NULL is found again by an age of NULL, and not by another one. -/
theorem selects_of_render_null :
    let schema : Schema :=
      ⟨"users", [⟨"id", true, false⟩, ⟨"email", false, false⟩, ⟨"age", false, true⟩], by decide,
        by decide, by decide, by decide⟩
    let t : Table := { schema, renderer := .ofDialect .redshift }
    let row (name : String) : Option Nat :=
      if name = "id" then some 1 else if name = "email" then some 2 else none
    let found (age : Option Nat) (read : Rendered) : Option Truth :=
      (Scope.mk row [some 2, age]).selects read.sql
    ∃ read, (ofCalls t []).renderReadBack = .ok read ∧ found none read = some .yes ∧
      found (some 30) read ≠ some .yes := by
  intro schema t row found
  let r : Rendered := ⟨"INSERT INTO \"users\" (\"email\", \"age\") VALUES ($1, $2)", ["email", "age"]⟩
  have hr : (ofCalls t []).render = .ok r := by decide +kernel
  have hrow : ∀ c ∈ t.schema.columns, row c.name = none → c.nullable = true := by decide
  obtain ⟨read, hread, hselects⟩ := selects_of_render (V := Nat) hr
  let ps (age : Option Nat) : Params (Option Nat) := .ofList [("email", some 2), ("age", age)]
  have hparams : read.params = ["email", "age"] := by
    have hfixed : (ofCalls t []).renderReadBack.map (·.params) = .ok ["email", "age"] := by
      decide +kernel
    rw [hread] at hfixed
    exact Except.ok.inj hfixed
  have hargs (age : Option Nat) : (ps age).bind read.params = .ok [some 2, age] := by
    rw [hparams]
    rfl
  refine ⟨read, hread, ?_, ?_⟩
  · obtain ⟨truth, htruth, -, -, hyes⟩ := hselects (ps none) _ row (hargs none) hrow
    rw [hyes (by decide) (by decide)] at htruth
    exact htruth
  · obtain ⟨truth, htruth, -, hno, -⟩ := hselects (ps (some 30)) _ row (hargs (some 30)) hrow
    have hdiffers : ¬Agree (row "age") (some 30) := by
      rintro (⟨-, h⟩ | ⟨a, b, h, -⟩) <;> cases h
    have hne := hno "age" (by decide) (some 30) rfl hdiffers
    intro h
    exact hne (Option.some.inj (htruth.symm.trans h))

end

end InsertQuery

end CheckedSql
