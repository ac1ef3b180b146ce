/-
What joined queries are ordered by. A key of their ordering is a column of the table, whether or not
the first operand has it among its output columns; these are the columns that its calls list, or all
if they list none, unless they are left out, and the derived columns under the names they are given.
So the whole is ordered by output columns if and only if each column that is named is among them.
-/
import CheckedSql.Proofs.Query.Bounds
import CheckedSql.Proofs.Query.Text
import CheckedSql.Proofs.Query.Writes

namespace CheckedSql

variable {s : Schema}

/-! ## Output columns -/

/-- The name of an output column: the one it is given, or else that of the column it is. -/
def SelectItem.name? : SelectItem → Option String
  | ⟨_, some name⟩ => some name
  | ⟨.column c, none⟩ => some c.name
  | _ => none

/-- The names of the output columns. -/
def SelectStatement.outputNames (s : SelectStatement) : List String :=
  s.items.filterMap SelectItem.name?

namespace SelectQuery

/-- The columns that a call lists. -/
def Call.columnNames : Call → List String
  | .columns names => names
  | _ => []

/-- Whether a call leaves out the columns. -/
def Call.leavesOut : Call → Bool
  | .exprsOnly => true
  | _ => false

end SelectQuery

/-- The names of the output columns that the calls select. -/
def SelectCalls.outputNames (q : SelectCalls) : List String :=
  let listed := q.calls.flatMap (·.columnNames)
  let columns := if listed.isEmpty then q.table.schema.columns.map (·.name) else listed
  (if q.calls.any (·.leavesOut) then [] else columns) ++ q.calls.flatMap (·.outputNames)

namespace SelectQuery

theorem Clauses.columns_apply {c next : Clauses} {call : Call} (h : c.apply s call = .ok next) :
    next.columns.map (·.name) = c.columns.map (·.name) ++ call.columnNames := by
  cases call with
  | columns names =>
    obtain ⟨cs, hcs, h⟩ := bind_ok h
    cases h
    rw [List.map_append, (Schema.resolveColumns_ok hcs).1]
    rfl
  | _ =>
    have hsame : next.columns = c.columns := apply_other h .columns (by simp [Call.clause])
    rw [hsame]
    exact (List.append_nil _).symm

theorem resolveOutputName_ok {name out : String} (h : s.resolveOutputName name = .ok out) :
    out = name := by
  unfold Schema.resolveOutputName at h
  split at h <;> cases h
  rfl

theorem Clauses.exprs_apply {c next : Clauses} {call : Call} (h : c.apply s call = .ok next) :
    next.exprs.filterMap SelectItem.name? =
      c.exprs.filterMap SelectItem.name? ++ call.outputNames := by
  cases call with
  | expr p name =>
    obtain ⟨e, -, h⟩ := bind_ok h
    obtain ⟨out, hout, h⟩ := bind_ok h
    cases h
    cases resolveOutputName_ok hout
    exact List.filterMap_append
  | _ =>
    have hsame : next.exprs = c.exprs := apply_other h .exprs (by simp [Call.clause])
    rw [hsame]
    exact (List.append_nil _).symm

theorem Clauses.exprsOnly_apply {c next : Clauses} {call : Call} (h : c.apply s call = .ok next) :
    next.exprsOnly = (c.exprsOnly || call.leavesOut) := by
  cases call with
  | exprsOnly =>
    cases h
    exact (Bool.or_true _).symm
  | _ =>
    have hsame : next.exprsOnly = c.exprsOnly := apply_other h .exprsOnly (by simp [Call.clause])
    rw [hsame]
    exact (Bool.or_false _).symm

/-- Clauses whose columns are those that calls select. -/
structure Clauses.Selects (calls : List Call) (c : Clauses) : Prop where
  columns : c.columns.map (·.name) = calls.flatMap (·.columnNames)
  exprs : c.exprs.filterMap SelectItem.name? = calls.flatMap (·.outputNames)
  exprsOnly : c.exprsOnly = calls.any (·.leavesOut)

theorem Clauses.Selects.apply {calls : List Call} {c next : Clauses} {call : Call}
    (hc : c.Selects calls) (h : c.apply s call = .ok next) : next.Selects (calls ++ [call]) where
  columns := by rw [columns_apply h, hc.columns, List.flatMap_append, List.flatMap_singleton]
  exprs := by rw [exprs_apply h, hc.exprs, List.flatMap_append, List.flatMap_singleton]
  exprsOnly := by
    rw [exprsOnly_apply h, hc.exprsOnly, List.any_append, List.any_cons, List.any_nil,
      Bool.or_false]

/-- A column under its own name. -/
theorem filterMap_ofColumn (cs : List Column) :
    (cs.map SelectItem.ofColumn).filterMap SelectItem.name? = cs.map (·.name) := by
  rw [List.filterMap_map, ← List.filterMap_eq_map]
  rfl

end SelectQuery

/-- The statement of a chain has the output columns that its calls select. -/
theorem SelectCalls.outputNames_statement {q : SelectCalls} {st : SelectStatement}
    (h : q.query.statement = .ok st) : st.outputNames = q.outputNames := by
  rw [query, SelectQuery.ofCalls_eq] at h
  obtain ⟨c, hc, h⟩ := bind_ok h
  have hselects : c.Selects ([] ++ q.calls) :=
    Chain.result_foldl (fun _ _ _ _ hdone hstep => hdone.apply hstep) q.calls
      (fun _ => ⟨rfl, rfl, rfl⟩) hc
  rw [List.nil_append] at hselects
  unfold SelectQuery.Clauses.statement at h
  split at h
  · cases h
  · cases h
    have hempty : c.columns.isEmpty = (q.calls.flatMap (·.columnNames)).isEmpty := by
      rw [← hselects.columns, List.isEmpty_map]
    rw [SelectStatement.outputNames, outputNames, List.filterMap_append, hselects.exprs,
      hselects.exprsOnly, hempty]
    split
    · rfl
    · rw [SelectQuery.filterMap_ofColumn]
      split
      · rw [Schema.allColumns, List.map_map]
        rfl
      · rw [hselects.columns]

/-! ## The ordering of the whole -/

/-- The column that a key of an ordering is, by its name. -/
def OrderItem.column? : OrderItem → Option String
  | .mk (.column c) _ _ => some c.name
  | _ => none

/-- Whether every key of the ordering of the whole is an output column of the first operand. -/
def CompoundStatement.OrderedByOutput (c : CompoundStatement) : Prop :=
  ∀ key ∈ c.orderBy, ∃ name ∈ c.first.outputNames, key.column? = some name

theorem CompoundStatement.orderedByOutput_iff {c : CompoundStatement} {names : List String}
    (h : c.orderBy.map OrderItem.column? = names.map some) :
    c.OrderedByOutput ↔ ∀ name ∈ names, name ∈ c.first.outputNames := by
  calc c.OrderedByOutput
    _ ↔ ∀ key ∈ c.orderBy.map OrderItem.column?, ∃ out ∈ c.first.outputNames, key = some out := by
      rw [OrderedByOutput, List.forall_mem_map]
    _ ↔ ∀ name ∈ names, ∃ out ∈ c.first.outputNames, some name = some out := by
      rw [h, List.forall_mem_map]
    _ ↔ ∀ name ∈ names, name ∈ c.first.outputNames := by simp

/-- A key of an ordering by a column is this column, one of the table's. -/
theorem OrderItem.resolve_ok {column direction : String} {nulls : Option String} {item : OrderItem}
    (h : OrderItem.resolve s column direction nulls = .ok item) :
    item.column? = some column ∧ ⟨column⟩ ∈ s.allColumns := by
  obtain ⟨c, hc, h⟩ := bind_ok h
  obtain ⟨d, -, h⟩ := bind_ok h
  have hname := Schema.name_resolveColumn hc
  have hmem : ⟨column⟩ ∈ s.allColumns := hname ▸ Schema.resolveColumn_mem hc
  cases nulls with
  | none =>
    cases h
    exact ⟨congrArg some hname, hmem⟩
  | some token =>
    obtain ⟨n, -, h⟩ := bind_ok h
    cases h
    exact ⟨congrArg some hname, hmem⟩

namespace CompoundQuery

/-- The column that a call orders the whole by. -/
def Call.orderColumn? : Call → Option String
  | .orderBy column _ | .orderByNulls column _ _ => some column
  | _ => none

/-- The columns that calls order the whole by, the first before the others. -/
def orderColumns (calls : List Call) : List String :=
  calls.filterMap Call.orderColumn?

/-- Clauses whose ordering is the one that calls name, by columns of the table. -/
structure Clauses.Orders (s : Schema) (calls : List Call) (c : Clauses) : Prop where
  keys : c.orderBy.map OrderItem.column? = (orderColumns calls).map some
  columns : ∀ name ∈ orderColumns calls, ⟨name⟩ ∈ s.allColumns

theorem Clauses.Orders.concat {calls : List Call} {c next : Clauses} (hc : c.Orders s calls)
    {call : Call} {column : String} (hcall : call.orderColumn? = some column) {item : OrderItem}
    (hitem : item.column? = some column ∧ ⟨column⟩ ∈ s.allColumns)
    (hnext : next.orderBy = c.orderBy ++ [item]) : next.Orders s (calls ++ [call]) := by
  have horder : orderColumns (calls ++ [call]) = orderColumns calls ++ [column] := by
    rw [orderColumns, List.filterMap_append]
    simp [orderColumns, hcall]
  constructor
  · rw [hnext, horder, List.map_append, List.map_append, hc.keys, List.map_singleton, hitem.1]
    rfl
  · rw [horder]
    exact forall_mem_concat hc.columns hitem.2

theorem Clauses.Orders.apply {calls : List Call} {c next : Clauses} {call : Call}
    (hc : c.Orders s calls) (h : c.apply s call = .ok next) : next.Orders s (calls ++ [call]) := by
  cases call with
  | orderBy column direction | orderByNulls column direction nulls =>
    obtain ⟨item, hitem, h⟩ := bind_ok h
    cases h
    exact hc.concat rfl (OrderItem.resolve_ok hitem) rfl
  | combine op operand | limit n | offset n | limitParam name | offsetParam name =>
    have hsame : next.orderBy = c.orderBy :=
      (writes s).other h .orderBy (by simp [Call.clause])
    have horder (call : Call) (hcall : call.orderColumn? = none) :
        orderColumns (calls ++ [call]) = orderColumns calls := by
      rw [orderColumns, List.filterMap_append]
      simp [orderColumns, hcall]
    constructor
    · rw [hsame, horder _ rfl, hc.keys]
    · rw [horder _ rfl]
      exact hc.columns

/-- What joined queries are ordered by if they are accepted: the columns that the calls name, in
order, each one of the table's. The first operand has the output columns that its calls select, and
the whole is ordered by these if and only if every column that is named is one of them. -/
theorem order_of_render {first : SelectCalls} {calls : List Call} {o : Rendered}
    (h : (ofCalls first.query calls).render = .ok o) :
    ∃ st, (ofCalls first.query calls).statement = .ok st ∧
      o = Rendered.ofTokens (operandTokens 0 st.first ++ restTokens 1 st.rest
        ++ tailTokens st.orderBy st.limit st.offset) ∧
      st.orderBy.map OrderItem.column? = (orderColumns calls).map some ∧
      (∀ name ∈ orderColumns calls, name ∈ first.table.schema.columns.map (·.name)) ∧
      st.first.outputNames = first.outputNames ∧
      (st.OrderedByOutput ↔ ∀ name ∈ orderColumns calls, name ∈ first.outputNames) := by
  obtain ⟨st, hst, h⟩ := bind_ok h
  have hstatement := liftBuild_ok hst
  obtain ⟨ho, -⟩ := Renderer.render_ok h
  have hbuilt := hstatement
  rw [ofCalls_eq, SelectCalls.query, SelectQuery.table_ofCalls] at hbuilt
  obtain ⟨head, hhead, hbuilt⟩ := bind_ok hbuilt
  obtain ⟨c, hc, hbuilt⟩ := bind_ok hbuilt
  -- the keys are kept along the chain: each is the column of its own call, found in the schema
  have horders : c.Orders first.table.schema ([] ++ calls) :=
    Chain.result_foldl (fun _ _ _ _ hdone hstep => hdone.apply hstep) calls
      (fun _ => ⟨rfl, List.forall_mem_nil _⟩) hc
  rw [List.nil_append] at horders
  split at hbuilt
  · cases hbuilt
  · cases hbuilt
    have hnames : head.outputNames = first.outputNames := first.outputNames_statement hhead
    refine ⟨_, hstatement, ho, horders.keys, fun name hname => ?_, hnames, ?_⟩
    · obtain ⟨info, hinfo, hcolumn⟩ := List.mem_map.1 (horders.columns name hname)
      exact List.mem_map.2 ⟨info, hinfo, congrArg Column.name hcolumn⟩
    · rw [← hnames]
      exact CompoundStatement.orderedByOutput_iff horders.keys

/-- An ordering by the name that the first operand gives to a derived column, which is also a
column's. -/
theorem order_of_render_derived :
    let schema : Schema :=
      ⟨"users", [⟨"id", true, false⟩, ⟨"email", false, false⟩, ⟨"age", false, true⟩], by decide,
        by decide, by decide, by decide⟩
    let table : Table := { schema, renderer := .ofDialect .postgres }
    let first : SelectCalls := ⟨table, [.columns ["id"], .expr (.column "age") "email"]⟩
    let calls : List Call := [.orderBy "email" "asc", .combine .union first.query]
    (ofCalls first.query calls).render =
        .ok ⟨"(SELECT \"id\", \"age\" AS \"email\" FROM \"users\") UNION "
          ++ "(SELECT \"id\", \"age\" AS \"email\" FROM \"users\") ORDER BY \"email\" ASC", []⟩ ∧
      ∃ st, (ofCalls first.query calls).statement = .ok st ∧ st.OrderedByOutput := by
  intro schema table first calls
  have hok : (ofCalls first.query calls).render =
      .ok ⟨"(SELECT \"id\", \"age\" AS \"email\" FROM \"users\") UNION "
        ++ "(SELECT \"id\", \"age\" AS \"email\" FROM \"users\") ORDER BY \"email\" ASC", []⟩ := by
    decide +kernel
  obtain ⟨st, hst, -, -, -, -, hordered⟩ := order_of_render hok
  exact ⟨hok, st, hst, hordered.2 (by decide)⟩

/-- A column that the first operand does not select is accepted, and the name that it gives to a
derived column is refused. -/
theorem order_of_render_unselected :
    let schema : Schema :=
      ⟨"users", [⟨"id", true, false⟩, ⟨"email", false, false⟩, ⟨"age", false, true⟩], by decide,
        by decide, by decide, by decide⟩
    let table : Table := { schema, renderer := .ofDialect .postgres }
    let ids : SelectCalls := ⟨table, [.columns ["id"]]⟩
    let years : SelectCalls := ⟨table, [.expr (.column "age") "years"]⟩
    let byEmail : CompoundQuery :=
      ofCalls ids.query [.combine .union ids.query, .orderBy "email" "asc"]
    let byYears : CompoundQuery :=
      ofCalls years.query [.combine .union years.query, .orderBy "years" "asc"]
    byEmail.render =
        .ok ⟨"(SELECT \"id\" FROM \"users\") UNION (SELECT \"id\" FROM \"users\") "
          ++ "ORDER BY \"email\" ASC", []⟩ ∧
      (∀ st, byEmail.statement = .ok st → ¬st.OrderedByOutput) ∧
      byYears.render = .error (.build (.unresolved .field "years")) := by
  intro schema table ids years byEmail byYears
  refine ⟨by decide +kernel, fun st hst hordered => ?_, by decide +kernel⟩
  cases hst
  obtain ⟨name, hname, hkey⟩ := hordered _ List.mem_cons_self
  cases hkey
  exact absurd hname (by decide)

end CompoundQuery

end CheckedSql
