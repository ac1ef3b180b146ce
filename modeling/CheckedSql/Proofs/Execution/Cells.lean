/-
Rows that are added at once. Each cell, a row and a column outside the primary key, has a name, a
placeholder and a value of its own: the names of different cells differ, even where the name of a
column itself ends like that of a row; the placeholders are numbered row by row; and what a cell is
bound to is what its own row holds for its column.
-/
import CheckedSql.Proofs.Execution.Course
import CheckedSql.Proofs.Params
import CheckedSql.Proofs.Refusal
import CheckedSql.Proofs.Sql.Placeholder
import CheckedSql.Proofs.Statement.Text
import CheckedSql.Proofs.Statement.Uses

namespace CheckedSql

open Sql (paramsOf placeholdersOf textOf)

variable {α β : Type}

/-! ## Lists of lists of one length -/

/-- In lists of one length, put one behind the other, each member is found by the number of its list
and its place there. -/
theorem getElem?_flatMap_range {f : Nat → List α} {width : Nat} (hf : ∀ i, (f i).length = width)
    {count i j : Nat} (hi : i < count) (hj : j < width) :
    ((List.range count).flatMap f)[i * width + j]? = (f i)[j]? := by
  induction count with
  | zero => exact absurd hi (Nat.not_lt_zero i)
  | succ count ih =>
    have hlength : ((List.range count).flatMap f).length = count * width := by
      simp [List.length_flatMap, hf]
    rw [List.range_succ, List.flatMap_append, List.flatMap_singleton]
    rcases Nat.lt_succ_iff_lt_or_eq.1 hi with hlt | rfl
    · have hbefore : i * width + j < count * width := by
        calc i * width + j < i * width + width := Nat.add_lt_add_left hj _
          _ = (i + 1) * width := (Nat.succ_mul i width).symm
          _ ≤ count * width := Nat.mul_le_mul_right width hlt
      rw [List.getElem?_append_left (hlength ▸ hbefore), ih hlt]
    · rw [List.getElem?_append_right (hlength ▸ Nat.le_add_right _ _), hlength,
        Nat.add_sub_cancel_left]

namespace InsertQuery

/-! ## Cells -/

/-- A row, by its number, and a column. -/
structure Place where
  row : Nat
  column : Column
  deriving DecidableEq

namespace Place

/-- The name of the cell's parameter. -/
def name (p : Place) : String :=
  ParamName.inRow p.row p.column.name

/-- What the cell's row holds for the column. -/
def value (p : Place) (rows : List (Params β)) : Option β :=
  rows[p.row]?.bind (·.get? p.column.name)

/-- Different cells have different names. -/
theorem name_injective : Function.Injective name := by
  rintro ⟨i, ⟨a⟩⟩ ⟨j, ⟨b⟩⟩ h
  obtain ⟨rfl, rfl⟩ := ParamName.inRow_inj.1 h
  rfl

/-- Under the name of a cell stands the value of its own row and column. -/
theorem get?_name (p : Place) (rows : List (Params β)) :
    (Params.ofRows 0 .empty rows).get? p.name = p.value rows := by
  refine Option.ext fun v => ?_
  rw [Params.get?_ofRows, value, Option.bind_eq_some_iff]
  constructor
  · rintro ⟨i, row, n, hrow, hname, hv⟩
    obtain ⟨rfl, rfl⟩ := ParamName.inRow_inj.1 hname
    exact ⟨row, hrow, hv⟩
  · rintro ⟨row, hrow, hv⟩
    exact ⟨p.row, row, p.column.name, hrow, rfl, hv⟩

end Place

/-- The cells of a number of rows, row by row and in each row in the order of the columns. -/
def places (columns : List Column) (count : Nat) : List Place :=
  (List.range count).flatMap fun i => columns.map (Place.mk i)

section

variable {columns : List Column} {count : Nat}

theorem length_places : (places columns count).length = count * columns.length := by
  simp [places, List.length_flatMap]

theorem getElem?_places {i j : Nat} {column : Column} (hi : i < count)
    (hj : columns[j]? = some column) :
    (places columns count)[i * columns.length + j]? = some ⟨i, column⟩ := by
  obtain ⟨hlt, -⟩ := List.getElem?_eq_some_iff.1 hj
  rw [places, getElem?_flatMap_range (fun i => by simp) hi hlt, List.getElem?_map, hj]
  rfl

theorem nodup_names (h : columns.Nodup) : ((places columns count).map Place.name).Nodup := by
  refine List.Nodup.map Place.name_injective (List.nodup_flatMap.2 ⟨fun i _ => ?_, ?_⟩)
  · exact h.map fun a b hab => (Place.mk.inj hab).2
  · refine List.nodup_range.imp fun {i j} hij p hi hj => ?_
    obtain ⟨a, -, rfl⟩ := List.mem_map.1 hi
    obtain ⟨b, -, hb⟩ := List.mem_map.1 hj
    exact hij (Place.mk.inj hb).1.symm

/-- The parameters of the rows are those of the cells. -/
theorem names_rows (columns : List Column) (count : Nat) :
    ((List.range count).map fun i => columns.map (Column.rowParam i)).flatMap
        (fun row => row.map (·.name)) = (places columns count).map Place.name := by
  rw [places, List.flatMap_map, List.map_flatMap]
  refine List.flatMap_congr fun i _ => ?_
  rw [List.map_map, List.map_map]
  rfl

end

/-! ## The statement -/

/-- The placeholders of a row, from its number on. -/
def rowText (width i : Nat) : String :=
  "(" ++ ", ".intercalate ((List.range' (i * width + 1) width).map placeholder) ++ ")"

/-- In a statement whose names are those of the cells, the placeholders of a row are numbered one
after the other. -/
theorem tupleText_row {o : Rendered} {columns : List Column} {count i : Nat} (hi : i < count)
    (hparams : o.params = (places columns count).map Place.name) (hnodup : o.params.Nodup) :
    tupleText o.spell (columns.map (Column.rowParam i)) = rowText columns.length i := by
  have hnumbers : columns.map (fun c => Draft.rank o.params (Place.mk i c).name) =
      List.range' (i * columns.length + 1) columns.length := by
    refine List.ext_getElem (by simp) fun j hj _ => ?_
    rw [List.length_map] at hj
    have hplace : o.params[i * columns.length + j]? = some (Place.mk i columns[j]).name := by
      rw [hparams, List.getElem?_map, getElem?_places hi (List.getElem?_eq_getElem hj)]
      rfl
    rw [List.getElem_map, List.getElem_range', Draft.rank_of_getElem? hnodup hplace]
    omega
  rw [tupleText, rowText, ← hnumbers, List.map_map, List.map_map]
  rfl

variable {t : Table} {calls : List Call} {count : Nat} {r : Rendered}

/-- The INSERT of a number of rows. -/
def rowsStatement (q : InsertQuery) (conflict : Option Conflict) (count : Nat) : InsertStatement :=
  q.statement conflict ((List.range count).map fun i => q.columns.map (Column.rowParam i)) []

theorem renderBatch_tokens {q : InsertQuery} (h : q.renderBatch count = .ok r) :
    ∃ conflict, liftBuild q.chain.result = .ok conflict ∧
      r = .ofTokens (q.rowsStatement conflict count).tokens := by
  obtain ⟨conflict, hconflict, h⟩ := bind_ok h
  exact ⟨conflict, hconflict, (Renderer.render_eq_ok.1 h).2⟩

theorem nodup_columns (q : InsertQuery) : q.columns.Nodup := by
  let s := q.table.schema
  have hnames : ((s.columns.filter (!·.primaryKey)).map (·.name)).Nodup :=
    s.names_nodup.sublist (List.filter_sublist.map _)
  refine List.Nodup.of_map Column.name ?_
  rwa [columns, Schema.nonPrimary, List.map_map]

theorem uses_rowsStatement (q : InsertQuery) (conflict : Option Conflict) (count : Nat) :
    (q.rowsStatement conflict count).uses = (places q.columns count).map Place.name :=
  names_rows q.columns count

/-- The names of the statement are those of the cells, each once. -/
theorem params_renderBatch {q : InsertQuery} (h : q.renderBatch count = .ok r) :
    r.params = (places q.columns count).map Place.name := by
  obtain ⟨conflict, -, rfl⟩ := renderBatch_tokens h
  rw [(Rendered.ofTokens_eq _).1, InsertStatement.paramsOf_tokens, uses_rowsStatement,
    eraseDups_of_nodup (nodup_names q.nodup_columns)]

/-- The statement is written in the numbers of its own names. -/
theorem exists_sql_eq_textOf {q : InsertQuery} (h : q.renderBatch count = .ok r) :
    ∃ conflict, r.sql = textOf r.spell (q.rowsStatement conflict count).tokens := by
  obtain ⟨conflict, -, hr⟩ := renderBatch_tokens h
  exact ⟨conflict, by rw [hr, Rendered.sql_ofTokens]⟩

theorem nodup_params_renderBatch {q : InsertQuery} (h : q.renderBatch count = .ok r) :
    r.params.Nodup := by
  rw [params_renderBatch h]
  exact nodup_names q.nodup_columns

/-- The placeholders of the statement are numbered one after the other, and none stands twice. -/
theorem placeholdersOf_renderBatch {q : InsertQuery} (h : q.renderBatch count = .ok r) :
    placeholdersOf r.sql = List.range' 1 (count * q.columns.length) := by
  have hparams := params_renderBatch h
  have hnodup := nodup_params_renderBatch h
  obtain ⟨conflict, hsql⟩ := exists_sql_eq_textOf h
  rw [hsql, Rendered.textOf_spell, Sql.placeholdersOf_textOf, Rendered.numbered, Sql.paramsOf_map,
    InsertStatement.paramsOf_tokens, uses_rowsStatement, ← hparams, Draft.map_rank hnodup, hparams,
    List.length_map, length_places]

/-- The text of the statement, row by row. -/
theorem sql_renderBatch {q : InsertQuery} (hcount : count ≠ 0) (h : q.renderBatch count = .ok r) :
    ∃ tail, r.sql = "INSERT INTO " ++ Ident.quote q.table.schema.table ++ " ("
      ++ quotedList q.columns ++ ") VALUES "
      ++ ", ".intercalate ((List.range count).map (rowText q.columns.length)) ++ tail := by
  have hparams := params_renderBatch h
  have hnodup := nodup_params_renderBatch h
  obtain ⟨conflict, hsql⟩ := exists_sql_eq_textOf h
  have hrows : (q.rowsStatement conflict count).rows.map (tupleText r.spell) =
      (List.range count).map (rowText q.columns.length) := by
    rw [rowsStatement, statement, List.map_map]
    exact List.map_congr_left fun i hi => tupleText_row (List.mem_range.1 hi) hparams hnodup
  have hne : (q.rowsStatement conflict count).rows ≠ [] := by
    simpa [rowsStatement, statement] using hcount
  rw [hsql, InsertStatement.textOf_tokens _ _ hne rfl, hrows]
  exact ⟨_, rfl⟩

/-! ## What is sent -/

variable {rows : List (Params β)}

/-- The first name without a value is that of the first cell that its row has no value for. -/
theorem lacking_names (cells : List Place) (rows : List (Params β)) :
    (Params.ofRows 0 .empty rows).lacking (cells.map Place.name) =
      (cells.find? fun cell => (cell.value rows).isNone).map Place.name := by
  rw [Params.lacking, List.find?_map]
  congr 2
  funext cell
  show (!((Params.ofRows 0 .empty rows).get? cell.name).isSome) = _
  rw [cell.get?_name, Option.not_isSome]

/-- The course of a batch with rows: it is settled by a cell without a value, or sends one
statement. -/
theorem course_execBatch (hrows : rows ≠ [])
    (h : (ofCalls t calls).renderBatch rows.length = .ok r) :
    (BatchMethod.insert calls).course t rows = do
      let args ← (Params.ofRows 0 .empty rows).bind r.params
      return .operation r (.once ⟨.execute, r.sql, args⟩ fun a => .ok (.count a.affected)) := by
  obtain ⟨conflict, hconflict, -⟩ := bind_ok h
  have hpre : (BatchMethod.insert calls).preflight t = .ok () := by
    rw [BatchMethod.preflight, hconflict]
    rfl
  have hrender : (BatchMethod.insert calls).render t rows.length = .ok r := h
  rw [BatchMethod.course_of_sets hpre hrows, hrender]
  show ((Params.ofRows 0 .empty rows).bind r.params >>= _) >>= _ = _
  rw [bind_assoc]
  rfl

/-- Each cell of several rows has a name of its own, and its placeholder is numbered row by row. A
batch sends one statement, and in it each cell is bound to what its own row holds for its column; if
a row lacks a value for a column, the first such cell is the error, and nothing is sent. -/
theorem cells_of_renderBatch (hrows : rows ≠ [])
    (h : (ofCalls t calls).renderBatch rows.length = .ok r) :
    let columns := t.schema.nonPrimary
    let cells := places columns rows.length
    r.params = cells.map Place.name ∧ r.params.Nodup ∧
      placeholdersOf r.sql = List.range' 1 (rows.length * columns.length) ∧
      (∃ tail, r.sql = "INSERT INTO " ++ Ident.quote t.schema.table ++ " (" ++ quotedList columns
        ++ ") VALUES " ++ ", ".intercalate ((List.range rows.length).map (rowText columns.length))
        ++ tail) ∧
      ∀ c : Client β,
        (∀ cell, cells.find? (fun cell => (cell.value rows).isNone) = some cell →
          ((ofCalls t calls).execBatch rows).start c = (.error (.missingParam cell.name), [])) ∧
        ((∀ cell ∈ cells, (cell.value rows).isSome) →
          ∃ args, sentOf (((ofCalls t calls).execBatch rows).start c).2 =
              [⟨.execute, r.sql, args⟩] ∧
            args.length = rows.length * columns.length ∧
            ∀ i j row column, rows[i]? = some row → columns[j]? = some column →
              args[i * columns.length + j]? = row.get? column.name) := by
  intro columns cells
  have htable := table_ofCalls t calls
  have hcolumns : (ofCalls t calls).columns = columns := by rw [InsertQuery.columns, htable]
  have hparams := params_renderBatch h
  have hplaces := placeholdersOf_renderBatch h
  have hsql := sql_renderBatch (fun hzero => hrows (List.length_eq_zero_iff.1 hzero)) h
  rw [hcolumns] at hparams hplaces hsql
  rw [htable] at hsql
  -- what is sent is said by the course of the batch, which binds the values of all rows together
  have hcourse := course_execBatch hrows h
  have hrun (c : Client β) : ((ofCalls t calls).execBatch rows).start c =
      (Run.ofExcept ((BatchMethod.insert calls).course t rows) >>=
        Course.run t .insertBatch).start c :=
    congrArg (·.start c) (BatchMethod.run_eq t (.insert calls) rows)
  refine ⟨hparams, nodup_params_renderBatch h, hplaces, hsql, fun c => ⟨fun cell hcell => ?_,
    fun hall => ?_⟩⟩
  · have hlacking : (Params.ofRows 0 .empty rows).lacking r.params = some cell.name := by
      rw [hparams, lacking_names, hcell]
      rfl
    rw [hrun, hcourse, Params.bind_of_lacking hlacking]
    rfl
  · have hnone : cells.find? (fun cell => (cell.value rows).isNone) = none :=
      List.find?_eq_none.2 fun cell hcell hno =>
        Option.isSome_iff_ne_none.1 (hall cell hcell) (Option.isNone_iff_eq_none.1 hno)
    obtain ⟨args, hargs⟩ : ∃ args, (Params.ofRows 0 .empty rows).bind r.params = .ok args := by
      rw [Params.bind_eq, hparams, lacking_names, hnone]
      exact ⟨_, rfl⟩
    refine ⟨args, ?_, ?_, fun i j row column hrow hcolumn => ?_⟩
    · rw [hrun, hcourse, hargs]
      exact Operation.sentOf_conduct (.new t .insertBatch r) (.once _ _) c
    · have hlength := congrArg List.length (Params.bind_ok hargs).2
      rwa [List.length_map, List.length_map, hparams, List.length_map, length_places] at hlength
    -- row-major: cell (i, j) is place i * columns + j, and has the name of its own row
    · obtain ⟨hi, -⟩ := List.getElem?_eq_some_iff.1 hrow
      rw [Params.getElem?_bind hargs, hparams, List.getElem?_map, getElem?_places hi hcolumn,
        Option.map_some, Option.bind_some, Place.get?_name, Place.value, hrow, Option.bind_some]

/-- A column named like a cell of another: `a_1` is a column, and the first column in the second row.
A value under the cell's own name is not taken for the row's. -/
theorem cells_of_renderBatch_suffixed :
    let schema : Schema :=
      ⟨"t", [⟨"id", true, false⟩, ⟨"a", false, false⟩, ⟨"a_1", false, false⟩], by decide, by decide,
        by decide, by decide⟩
    let t : Table := { schema, renderer := .ofDialect .postgres }
    let c : Client Nat := .ofScript [] ⟨0⟩
    let first : Params Nat := .ofList [("a", 1), ("a_1", 2)]
    let full : Params Nat := .ofList [("a_1", 4), ("a_0", 9), ("a", 3)]
    let short : Params Nat := .ofList [("a", 3), ("a_1_1", 9)]
    let run (rows : List (Params Nat)) := ((ofCalls t []).execBatch rows).start c
    let r : Rendered :=
      ⟨"INSERT INTO \"t\" (\"a\", \"a_1\") VALUES ($1, $2), ($3, $4)",
        ["a_0", "a_1_0", "a_1", "a_1_1"]⟩
    (ofCalls t []).renderBatch 2 = .ok r ∧
      (∃ args, sentOf (run [first, full]).2 = [⟨.execute, r.sql, args⟩] ∧ args[2]? = some 3) ∧
      run [first, short] = (.error (.missingParam "a_1_1"), []) := by
  intro schema t c first full short run r
  have hr : (ofCalls t []).renderBatch 2 = .ok r := by decide +kernel
  obtain ⟨-, -, -, -, hfull⟩ := cells_of_renderBatch (List.cons_ne_nil first [full]) hr
  obtain ⟨-, -, -, -, hshort⟩ := cells_of_renderBatch (List.cons_ne_nil first [short]) hr
  obtain ⟨args, hsent, -, hargs⟩ := (hfull c).2 (by decide +kernel)
  refine ⟨hr, ⟨args, hsent, hargs 1 0 full ⟨"a"⟩ rfl rfl⟩, ?_⟩
  exact (hshort c).1 ⟨1, ⟨"a_1"⟩⟩ (by decide +kernel)

end InsertQuery

end CheckedSql
