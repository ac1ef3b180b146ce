/-
Tables that have nothing but their key. An INSERT writes the columns outside of the key, and its row
is found again by these; neither the schema nor the renderer asks whether there are any. So of such a
table the INSERT is written with an empty list of columns and empty rows of values, and unless a
conflict target gives it columns, the statement that reads the row back takes any row for it. Of every
other table neither happens.
-/
import CheckedSql.Proofs.Execution.Cells
import CheckedSql.Proofs.Execution.InsertReadBack

namespace CheckedSql

open Sql (Scope)

/-! ## Columns to write and to look for -/

/-- Every column is of the primary key. -/
def Schema.KeyOnly (s : Schema) : Prop :=
  ∀ c ∈ s.columns, c.primaryKey = true

theorem Schema.nonPrimary_eq_nil {s : Schema} : s.nonPrimary = [] ↔ s.KeyOnly := by
  rw [nonPrimary, List.map_eq_nil_iff, List.filter_eq_nil_iff]
  exact forall₂_congr fun c _ => by simp

namespace InsertQuery

theorem columns_eq_nil (t : Table) (calls : List Call) :
    (ofCalls t calls).columns = [] ↔ t.schema.KeyOnly := by
  rw [columns, table_ofCalls, Schema.nonPrimary_eq_nil]

/-- There is nothing to find a row by if nothing was written and no conflict target is given. -/
theorem keyNames_eq_nil {s : Schema} {calls : List Call} :
    keyNames s calls = [] ↔ s.KeyOnly ∧ targetNames calls = [] := by
  rw [keyNames]
  split
  · rename_i htarget
    rw [List.map_eq_nil_iff, Schema.nonPrimary_eq_nil, and_iff_left htarget]
  · rename_i htarget
    exact iff_of_false htarget fun h => htarget h.2

/-! ## The statements -/

/-- A statement that adds a row, or several. -/
inductive Adds (q : InsertQuery) (r : Rendered) : Prop
  | one (h : q.render = .ok r)
  | several (count : Nat) (hcount : count ≠ 0) (h : q.renderBatch count = .ok r)

/-- Such a statement has rows, and in each a value for every column. -/
theorem Adds.exists_rows {q : InsertQuery} {r : Rendered} (h : q.Adds r) :
    ∃ conflict rows returning, liftBuild q.chain.result = .ok conflict ∧
      q.table.renderer.render (.insert (q.statement conflict rows returning)) = .ok r ∧
      rows ≠ [] ∧ ∀ values ∈ rows, values.length = q.columns.length := by
  cases h with
  | one h =>
    obtain ⟨conflict, hconflict, h⟩ := bind_ok h
    refine ⟨conflict, _, _, hconflict, h, List.cons_ne_nil _ _, fun values hvalues => ?_⟩
    rw [List.mem_singleton.1 hvalues, List.length_map]
  | several count hcount h =>
    obtain ⟨conflict, hconflict, h⟩ := bind_ok h
    refine ⟨conflict, _, _, hconflict, h, by simpa using hcount, fun values hvalues => ?_⟩
    obtain ⟨i, -, rfl⟩ := List.mem_map.1 hvalues
    rw [List.length_map]

/-- The statement that reads a row back has no groups. -/
theorem groupSizes_readBack (q : InsertQuery) (conflict : Option Conflict) :
    (q.readBack conflict).groupSizes = [] := by
  have hkey (c : Column) : (q.keyCond c).groupSizes = [] := by
    unfold keyCond
    split <;> rfl
  simp [SelectStatement.groupSizes, readBack, Schema.allItems, SelectItem.ofColumn, Expr.groupSizes,
    Cond.groupSizesAll_eq_flatMap, OrderItem.groupSizesAll_eq_flatMap, OrderItem.groupSizes, hkey]

theorem decode_readBack {q : InsertQuery} {conflict : Option Conflict} {read : Rendered}
    (hconflict : liftBuild q.chain.result = .ok conflict) (h : q.renderReadBack = .ok read) :
    read.decode = some (.select (q.readBack conflict)) := by
  rw [renderReadBack, hconflict] at h
  refine Renderer.decode_rendered h ?_
  rw [Statement.groupSizes, groupSizes_readBack]
  exact List.forall_mem_nil _

/-- An INSERT that adds at least one row, taken apart together with the statement that reads its row
back. Its list of columns and each of its rows of values are empty if and only if the table has
nothing but its key; and the statement that reads back has no condition if and only if besides no
conflict target is given. With a condition it selects only rows that agree with the parameters in the
columns a row is found by, of which there is at least one; without it selects every row. -/
theorem empty_iff_of_adds {t : Table} {calls : List Call} {r : Rendered}
    (h : (ofCalls t calls).Adds r) :
    ∃ insert read select, r.decode = some (.insert insert) ∧
      (ofCalls t calls).renderReadBack = .ok read ∧ read.decode = some (.select select) ∧
      insert.rows ≠ [] ∧
      (insert.columns = [] ↔ t.schema.KeyOnly) ∧
      (∀ values ∈ insert.rows, values = [] ↔ t.schema.KeyOnly) ∧
      (select.conditions = [] ↔ t.schema.KeyOnly ∧ targetNames calls = []) ∧
      ∀ {V : Type} [BEq V] (ps : Params (Option V)) (args : List (Option V))
        (row : String → Option V), ps.bind read.params = .ok args →
        (∀ c ∈ t.schema.columns, row c.name = none → c.nullable = true) →
        ∃ truth, (Scope.mk row args).selects read.sql = some truth ∧
          (select.conditions = [] → truth = .yes) ∧
          (select.conditions ≠ [] → truth = .yes →
            keyNames t.schema calls ≠ [] ∧
              ∀ name ∈ keyNames t.schema calls, ∃ v, ps.get? name = some v ∧ Agree (row name) v) := by
  obtain ⟨conflict, rows, returning, hconflict, hr, hrows, hlength⟩ := h.exists_rows
  have hread := renderReadBack_eq hconflict
  have hcolumns := columns_eq_nil t calls
  -- the read-back has a condition for each column of the conflict target, or for each inserted one
  have hconditions : ((ofCalls t calls).readBack conflict).conditions = [] ↔
      keyNames t.schema calls = [] := by
    rw [readBack, List.map_eq_nil_iff, ← names_keys hconflict, List.map_eq_nil_iff]
  refine ⟨_, _, _, Renderer.decode_rendered hr (List.forall_mem_nil _), hread,
    decode_readBack hconflict hread, hrows, hcolumns, fun values hvalues => ?_,
    hconditions.trans keyNames_eq_nil, fun ps args row hargs hrow => ?_⟩
  · rw [← hcolumns, ← List.length_eq_zero_iff, hlength values hvalues, List.length_eq_zero_iff]
  · obtain ⟨truth, htruth, hiff⟩ := selects_iff_agree hconflict hargs hrow
    refine ⟨truth, htruth, fun hnone => ?_, fun hsome hyes => ⟨?_, hiff.1 hyes⟩⟩
    · rw [hiff, hconditions.1 hnone]
      exact List.forall_mem_nil _
    · exact fun hnames => hsome (hconditions.2 hnames)

/-- One column outside the key is enough: every list of the INSERT of two rows has it, and a row that
differs in it is not read back. -/
theorem empty_iff_of_adds_valued :
    let schema : Schema :=
      ⟨"t", [⟨"id", true, false⟩, ⟨"a", false, false⟩], by decide, by decide, by decide, by decide⟩
    let t : Table := { schema, renderer := .ofDialect .redshift }
    let q := ofCalls t []
    let row (name : String) : Option Nat := if name = "id" then some 1 else some 2
    ∃ r read insert, q.renderBatch 2 = .ok r ∧ r.decode = some (.insert insert) ∧
      insert.columns ≠ [] ∧ (∀ values ∈ insert.rows, values ≠ []) ∧
      q.renderReadBack = .ok read ∧ (Scope.mk row [some 3]).selects read.sql ≠ some .yes := by
  intro schema t q row
  let r : Rendered := ⟨"INSERT INTO \"t\" (\"a\") VALUES ($1), ($2)", ["a_0", "a_1"]⟩
  have hr : q.renderBatch 2 = .ok r := by decide +kernel
  obtain ⟨insert, read, select, hinsert, hread, -, -, hcolumns, hrows, hconditions, hselects⟩ :=
    empty_iff_of_adds (.several 2 (by decide) hr)
  have hvalued : ¬schema.KeyOnly := fun h => absurd (h ⟨"a", false, false⟩ (by decide)) (by decide)
  have hparams : read.params = ["a"] := by
    have hfixed : q.renderReadBack.map (·.params) = .ok ["a"] := by decide +kernel
    rw [hread] at hfixed
    exact Except.ok.inj hfixed
  have hargs : (Params.ofList [("a", some 3)]).bind read.params = .ok [some 3] := by
    rw [hparams]
    rfl
  obtain ⟨truth, htruth, -, hagree⟩ := hselects _ _ row hargs (by decide)
  refine ⟨r, read, insert, hr, hinsert, mt hcolumns.1 hvalued,
    fun values hvalues => mt (hrows values hvalues).1 hvalued, hread, fun hyes => ?_⟩
  rw [htruth] at hyes
  -- were the row selected, its column would agree with the value that was looked for
  obtain ⟨-, hall⟩ := hagree (fun h => hvalued (hconditions.1 h).1) (Option.some.inj hyes)
  obtain ⟨v, hv, hsame⟩ := hall "a" (by decide)
  cases hv
  rcases hsame with ⟨hnone, -⟩ | ⟨a, b, ha, hb, heq⟩
  · cases hnone
  · cases ha
    cases hb
    cases heq

/-- A table of its key alone: the INSERT has no columns and a row of no values, and any row is read
back for the one it added. -/
theorem empty_of_key :
    let schema : Schema :=
      ⟨"t", [⟨"id", true, false⟩], by decide, by decide, by decide, by decide⟩
    let q (d : Dialect) := ofCalls { schema, renderer := .ofDialect d } []
    let r : Rendered := ⟨"INSERT INTO \"t\" () VALUES () RETURNING \"id\"", []⟩
    let read : Rendered := ⟨"SELECT \"id\" FROM \"t\" ORDER BY \"id\" DESC LIMIT 1", []⟩
    (q .postgres).render = .ok r ∧
      (∃ insert, r.decode = some (.insert insert) ∧ insert.columns = [] ∧ insert.rows = [[]]) ∧
      (q .redshift).renderReadBack = .ok read ∧
      (∃ select, read.decode = some (.select select) ∧ select.conditions = []) ∧
      ∀ row : String → Option Nat, (Scope.mk row []).selects read.sql = some .yes := by
  intro schema q r read
  have hconflict : liftBuild (q .redshift).chain.result = .ok none := rfl
  have hread : (q .redshift).renderReadBack = .ok read := by decide +kernel
  let insert : InsertStatement :=
    { table := "t", columns := [], rows := [[]], returning := [⟨"id"⟩] }
  have hwritten : (Renderer.ofDialect .postgres).render (.insert insert) = .ok r := by
    decide +kernel
  have hdecode := Renderer.decode_rendered hwritten (List.forall_mem_nil _)
  refine ⟨hwritten, ⟨insert, hdecode, rfl, rfl⟩, hread,
    ⟨_, decode_readBack hconflict hread, rfl⟩, fun row => ?_⟩
  -- the read-back in general, at the text that it has here
  have hsql := Except.ok.inj ((renderReadBack_eq hconflict).symm.trans hread)
  have hargs : (Params.empty : Params (Option Nat)).bind read.params = .ok [] := rfl
  rw [← hsql] at hargs ⊢
  exact selects_readBack (q .redshift) none row hargs

end InsertQuery

end CheckedSql
