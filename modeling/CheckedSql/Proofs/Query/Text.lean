/-
Queries as their callers build them, by a table and a chain of calls, and what the text that is
sent for one consists of. Whatever strings the calls are given, the text holds no name but the
plain names of the tables and columns and of the output columns, no number but those given as
bounds, placeholders for the names it is sent with, and words and signs.
-/
import CheckedSql.Proofs.Numbering
import CheckedSql.Proofs.Query.Clauses
import CheckedSql.Proofs.Sql.Harmless

namespace CheckedSql

open Sql (Token Harmless)

/-! ## Queries by their calls -/

/-- A query that reads rows, by its table and the calls of its chain. -/
structure SelectCalls where
  table : Table
  calls : List SelectQuery.Call

namespace SelectCalls

/-- The query that the calls build. -/
def query (q : SelectCalls) : SelectQuery :=
  .ofCalls q.table q.calls

/-- The names of the table, of its columns and of the output columns, and the numbers given as
bounds. -/
def sources (q : SelectCalls) : Sources where
  names := q.table.schema.names ++ q.calls.flatMap (·.outputNames)
  numbers := q.calls.flatMap (·.literals)

end SelectCalls

/-- One more call of a chain that joins queries. -/
inductive CompoundStep
  | combine (op : SetOp) (operand : SelectCalls)
  | orderBy (column direction : String)
  | orderByNulls (column direction nulls : String)
  | limit (n : Nat)
  | offset (n : Nat)
  | limitParam (name : String)
  | offsetParam (name : String)

namespace CompoundStep

/-- The call, with its operand built. -/
def call : CompoundStep → CompoundQuery.Call
  | combine op operand => .combine op operand.query
  | orderBy column direction => .orderBy column direction
  | orderByNulls column direction nulls => .orderByNulls column direction nulls
  | limit n => .limit n
  | offset n => .offset n
  | limitParam name => .limitParam name
  | offsetParam name => .offsetParam name

/-- The names and the numbers that a call brings. -/
def sources : CompoundStep → Sources
  | combine _ operand => operand.sources
  | limit n | offset n => ⟨[], [n]⟩
  | _ => ⟨[], []⟩

end CompoundStep

/-- A query of any kind, by its table and its calls. -/
inductive Query
  | select (q : SelectCalls)
  | insert (table : Table) (calls : List InsertQuery.Call)
  | insertBatch (table : Table) (calls : List InsertQuery.Call) (count : Nat)
  | update (table : Table) (calls : List UpdateQuery.Call)
  | delete (table : Table) (calls : List DeleteQuery.Call)
  | aggregate (table : Table) (fn : Except BuildError AggregateFn) (column : Option String)
    (calls : List AggregateQuery.Call)
  | compound (first : SelectCalls) (steps : List CompoundStep)

namespace Query

/-- The statement as it is sent. -/
def render : Query → Except QueryError Rendered
  | select q => q.query.render
  | insert table calls => (InsertQuery.ofCalls table calls).render
  | insertBatch table calls count => (InsertQuery.ofCalls table calls).renderBatch count
  | update table calls => (UpdateQuery.ofCalls table calls).render
  | delete table calls => (DeleteQuery.ofCalls table calls).render
  | aggregate table fn column calls => ((AggregateQuery.new table fn column).calls calls).render
  | compound first steps => (CompoundQuery.ofCalls first.query (steps.map (·.call))).render

/-- The names of the tables, of their columns and of the output columns, and the numbers given as
bounds. The output column of an aggregate has a name of its own. -/
def sources : Query → Sources
  | select q => q.sources
  | insert table _ | insertBatch table _ _ | update table _ | delete table _ =>
    ⟨table.schema.names, []⟩
  | aggregate table _ _ _ => ⟨table.schema.names ++ [AggregateQuery.outputName], []⟩
  | compound first steps =>
    ⟨first.sources.names ++ steps.flatMap (·.sources.names),
      first.sources.numbers ++ steps.flatMap (·.sources.numbers)⟩

/-- A token that may stand in the text of a query sent with `count` names: a plain name of the
query's own, the placeholder of one of the names, a number given as a bound, a word or a sign. -/
def Permits (q : Query) (count : Nat) : Token Nat → Prop
  | .identifier name => Ident.isPlain name = true ∧ name ∈ q.sources.names
  | .param n => 1 ≤ n ∧ n ≤ count
  | .number n => n ∈ q.sources.numbers
  | .keyword _ | .call _ | .symbol _ => True

end Query

/-! ## The tokens of a query -/

namespace Sources

/-- A statement whose tokens are within the sources. -/
def Writes (v : Sources) (o : Rendered) : Prop :=
  ∃ ts, v.Within ts ∧ o = Rendered.ofTokens ts

variable {v : Sources} {o : Rendered}

theorem Within.writes {r : Renderer} {st : Statement} (h : v.Within st.tokens)
    (ho : r.render st = .ok o) : v.Writes o :=
  ⟨st.tokens, h, (Renderer.render_ok ho).1⟩

theorem writes_select {q : SelectQuery} (hq : q.Within v) (h : q.render = .ok o) : v.Writes o := by
  obtain ⟨st, hst, h⟩ := bind_ok h
  have hwithin : v.Within (Statement.select st).tokens := hq.statement (liftBuild_ok hst)
  exact hwithin.writes h

theorem writes_insert {q : InsertQuery} (hq : q.Within v) (h : q.render = .ok o) :
    v.Writes o := by
  obtain ⟨conflict, hconflict, h⟩ := bind_ok h
  have hrows : ∀ row ∈ [q.columns.map Column.param], ∀ p ∈ row, v.Allows p.token := by
    refine List.forall_mem_singleton.2 (List.forall_mem_map.2 fun c hc => ?_)
    exact (hq.covers.nonPrimary c hc).1
  have hreturning : ∀ c ∈ (if q.table.capabilities.returningOnInsert
      then q.table.schema.allColumns else []), v.Allows c.token := by
    split
    · exact hq.covers.allColumns
    · exact List.forall_mem_nil _
  have hwithin : v.Within (Statement.insert (q.statement conflict _ _)).tokens :=
    hq.statement (liftBuild_ok hconflict) hrows hreturning
  exact hwithin.writes h

/-- A column's parameter in one row of several keeps a plain name. -/
theorem writes_insertBatch {q : InsertQuery} (hq : q.Within v) {count : Nat}
    (h : q.renderBatch count = .ok o) : v.Writes o := by
  obtain ⟨conflict, hconflict, h⟩ := bind_ok h
  have hrows : ∀ row ∈ (List.range count).map fun i => q.columns.map (Column.rowParam i),
      ∀ p ∈ row, v.Allows p.token := by
    refine List.forall_mem_map.2 fun i _ => List.forall_mem_map.2 fun c hc => ?_
    exact ParamName.inRow_plain i (hq.covers.nonPrimary c hc).1
  have hwithin : v.Within (Statement.insert (q.statement conflict _ [])).tokens :=
    hq.statement (liftBuild_ok hconflict) hrows (List.forall_mem_nil _)
  exact hwithin.writes h

theorem writes_update {q : UpdateQuery} (hq : q.Within v) (h : q.render = .ok o) :
    v.Writes o := by
  obtain ⟨c, hc, h⟩ := bind_ok h
  obtain ⟨-, -, h⟩ := bind_ok h
  have hclauses : c.Within v := by
    obtain ⟨found, hfound, hc⟩ := bind_ok hc
    split at hc
    · cases hc
    · cases hc
      rw [Chain.result_ok (liftBuild_ok hfound)]
      exact hq.clauses
  have hreturning : ∀ c ∈ (if q.table.capabilities.returningOnUpdate
      then q.table.schema.allColumns else []), v.Allows c.token := by
    split
    · exact hq.covers.allColumns
    · exact List.forall_mem_nil _
  have hwithin : v.Within (Statement.update ⟨q.table.schema.table, _, _, _⟩).tokens :=
    within_update hq.covers.table hclauses.assignments hclauses.conditions hreturning
  exact hwithin.writes h

theorem writes_delete {q : DeleteQuery} (hq : q.Within v) (h : q.render = .ok o) :
    v.Writes o := by
  obtain ⟨conditions, hconditions, h⟩ := bind_ok h
  split at h
  · cases h
  · rw [Chain.result_ok (liftBuild_ok hconditions)] at h
    have hwithin : v.Within (Statement.delete ⟨q.table.schema.table, _⟩).tokens :=
      within_delete hq.covers.table hq.conditions
    exact hwithin.writes h

theorem writes_aggregate {q : AggregateQuery} (hq : q.Within v)
    (hname : AggregateQuery.outputName ∈ v.names) (h : q.render = .ok o) : v.Writes o := by
  obtain ⟨c, hc, h⟩ := bind_ok h
  rw [Chain.result_ok (liftBuild_ok hc)] at h
  have hplain : Ident.isPlain AggregateQuery.outputName = true := by decide
  have hwithin : v.Within (Statement.select (q.chain.clauses.statement q.table.schema)).tokens :=
    hq.clauses.statement hq.covers ⟨hplain, hname⟩
  exact hwithin.writes h

theorem writes_compound {q : CompoundQuery} (hq : q.Within v) (h : q.render = .ok o) :
    v.Writes o := by
  obtain ⟨st, hst, h⟩ := bind_ok h
  have hwithin : v.Within (Statement.compound st).tokens := hq.statement (liftBuild_ok hst)
  exact hwithin.writes h

end Sources

/-! ## The text of a query -/

theorem SelectCalls.query_within {q : SelectCalls} {v : Sources}
    (hnames : q.sources.names ⊆ v.names) (hnumbers : q.sources.numbers ⊆ v.numbers) :
    q.query.Within v := by
  obtain ⟨hschema, hout⟩ := List.append_subset.1 hnames
  refine SelectQuery.ofCalls_within hschema (fun c hc => ?_) fun c hc => ?_
  · exact fun name hname => hout (List.mem_flatMap.2 ⟨c, hc, hname⟩)
  · exact fun n hn => hnumbers (List.mem_flatMap.2 ⟨c, hc, hn⟩)

namespace Query

theorem writes_of_render {q : Query} {o : Rendered} (h : q.render = .ok o) :
    q.sources.Writes o := by
  cases q with
  | select q =>
    exact Sources.writes_select (q.query_within (List.Subset.refl _) (List.Subset.refl _)) h
  | insert table calls =>
    exact Sources.writes_insert (InsertQuery.ofCalls_within (List.Subset.refl _) calls) h
  | insertBatch table calls count =>
    exact Sources.writes_insertBatch (InsertQuery.ofCalls_within (List.Subset.refl _) calls) h
  | update table calls =>
    exact Sources.writes_update (UpdateQuery.ofCalls_within (List.Subset.refl _) calls) h
  | delete table calls =>
    exact Sources.writes_delete (DeleteQuery.ofCalls_within (List.Subset.refl _) calls) h
  | aggregate table fn column calls =>
    -- the output column is named by the query itself
    have hcovers : (sources (.aggregate table fn column calls)).Covers table.schema :=
      List.subset_append_left _ _
    have hname : AggregateQuery.outputName ∈ (sources (.aggregate table fn column calls)).names :=
      List.mem_append_right _ List.mem_cons_self
    exact Sources.writes_aggregate ((AggregateQuery.new_within hcovers fn column).calls calls) hname h
  | compound first steps =>
    -- an operand has its own sources among those of the whole
    have hfirst : first.query.Within (sources (.compound first steps)) :=
      first.query_within (List.subset_append_left _ _) (List.subset_append_left _ _)
    have hsteps : ∀ c ∈ steps.map (·.call), c.Within (sources (.compound first steps)) := by
      refine List.forall_mem_map.2 fun step hstep => ?_
      have hnames : step.sources.names ⊆ (sources (.compound first steps)).names :=
        fun name hname => List.mem_append_right _ (List.mem_flatMap.2 ⟨step, hstep, hname⟩)
      have hnumbers : step.sources.numbers ⊆ (sources (.compound first steps)).numbers :=
        fun n hn => List.mem_append_right _ (List.mem_flatMap.2 ⟨step, hstep, hn⟩)
      cases step with
      | combine op operand => exact operand.query_within hnames hnumbers
      | limit n => exact hnumbers List.mem_cons_self
      | offset n => exact hnumbers List.mem_cons_self
      | _ => trivial
    exact Sources.writes_compound (CompoundQuery.ofCalls_within hfirst hsteps) h

/-- A token that the sources allow is permitted once its parameter is numbered. -/
theorem permits_numbered {q : Query} {o : Rendered} {t : Token String}
    (ht : q.sources.Allows t) (hparam : ∀ name, t = .param name → name ∈ o.params) :
    q.Permits o.params.length (t.map (Draft.rank o.params)) := by
  cases t with
  | param name =>
    have hlt : o.params.idxOf name < o.params.length :=
      List.idxOf_lt_length_of_mem (hparam name rfl)
    exact ⟨Nat.le_add_left 1 _, hlt⟩
  | identifier name => exact ht
  | number n => exact ht
  | _ => trivial

/-- What a query is sent as. The text is that of tokens that the query permits, and is read as these
tokens; so it holds no character and no pair of characters with which a string could leave its
place. The names it is sent with are plain. -/
theorem text_of_render {q : Query} {o : Rendered} (h : q.render = .ok o) :
    (∃ ts, o.sql = Sql.textOf placeholder ts ∧ Sql.scan o.sql = some ts ∧
        ∀ t ∈ ts, q.Permits o.params.length t) ∧
      (∀ c ∈ ";'\\".toList, c ∉ o.sql.toList) ∧
      (∀ s ∈ ["--", "/*"], ¬s.toList <:+: o.sql.toList) ∧
      ∀ name ∈ o.params, Ident.isPlain name = true := by
  obtain ⟨ts, hts, ho⟩ := writes_of_render h
  obtain ⟨hparams, hsql⟩ := Rendered.ofTokens_eq ts
  rw [← ho] at hparams hsql
  -- the names that are sent are those of the tokens, each once
  have hparam (name : String) : name ∈ o.params ↔ .param name ∈ ts := by
    rw [hparams, List.mem_eraseDups, Sql.mem_paramsOf]
  have hpermits : ∀ t ∈ o.numbered ts, q.Permits o.params.length t :=
    List.forall_mem_map.2 fun t ht =>
      permits_numbered (hts t ht) fun name he => (hparam name).2 (he ▸ ht)
  have hplain : ∀ t ∈ o.numbered ts, Harmless.NamedPlainly t := by
    intro t ht
    have hpermitted := hpermits t ht
    cases t with
    | identifier name => exact hpermitted.1
    | _ => trivial
  have hharmless : Harmless o.sql.toList := hsql ▸ Harmless.textOf hplain
  refine ⟨⟨o.numbered ts, hsql, ?_, hpermits⟩, fun c hc => hharmless.not_mem hc,
    fun s hs => hharmless.not_infix hs, fun name hname => hts _ ((hparam name).1 hname)⟩
  rw [hsql]
  exact Sql.scan_textOf _

/-- Two operands, an output name, a bound that is given and one that is a parameter. -/
theorem text_of_render_compound :
    let schema : Schema :=
      ⟨"users", [⟨"id", true, false⟩, ⟨"age", false, true⟩], by decide, by decide, by decide,
        by decide⟩
    let table : Table := { schema, renderer := .ofDialect .postgres }
    let adults : SelectCalls := ⟨table, [.expr (.column "age") "years", .exprsOnly]⟩
    let known : SelectCalls := ⟨table, [.columns ["age"], .whereCond (.null "age" true)]⟩
    let q : Query := .compound adults [.combine .union known, .limit 5, .offsetParam "skip"]
    let o : Rendered :=
      ⟨"(SELECT \"age\" AS \"years\" FROM \"users\") UNION "
        ++ "(SELECT \"age\" FROM \"users\" WHERE \"age\" IS NOT NULL) LIMIT 5 OFFSET $1",
        ["skip"]⟩
    q.render = .ok o ∧ (∀ c ∈ ";'\\".toList, c ∉ o.sql.toList) ∧
      ∃ ts, Sql.scan o.sql = some ts ∧ ∀ t ∈ ts, q.Permits 1 t := by
  intro schema table adults known q o
  have hok : q.render = .ok o := by decide +kernel
  obtain ⟨⟨ts, -, hscan, hpermits⟩, hsafe, -, -⟩ := text_of_render hok
  exact ⟨hok, hsafe, ts, hscan, hpermits⟩

end Query

end CheckedSql
