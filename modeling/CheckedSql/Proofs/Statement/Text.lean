/-
The texts of statements, clause by clause: lists of columns, of assignments and of tuples, the
conditions behind WHERE, and the statements that are made of these.
-/
import CheckedSql.Proofs.Sql.Layout
import CheckedSql.Proofs.Statement.Parts

namespace CheckedSql

open Sql (Token Keyword EndsLoose StartsLoose StartsWithWord endsLoose_concat endsLoose_singleton
  startsLoose_cons keywords parenthesized spaced textOf)

variable (spell : String → String)

/-! ## Lists -/

/-- Columns by their quoted names, with commas between them. -/
def quotedList (cs : List Column) : String :=
  ", ".intercalate (cs.map fun c => Ident.quote c.name)

/-- Columns with the parameters that they are set to. -/
def assignmentList (as : List (Column × Param)) : String :=
  ", ".intercalate (as.map fun a => Ident.quote a.1.name ++ " = " ++ spell a.2.name)

/-- A row of parameters in parentheses. -/
def tupleText (row : List Param) : String :=
  "(" ++ ", ".intercalate (row.map fun p => spell p.name) ++ ")"

/-- A list whose members are each written as one text. -/
theorem textOf_list {α : Type} (write : α → Tokens) (text : α → String) (xs : List α)
    (h : ∀ x ∈ xs, StartsLoose (write x) ∧ textOf spell (write x) = text x) :
    textOf spell (Sql.commaSeparated (xs.map write)) = ", ".intercalate (xs.map text) := by
  rw [Sql.textOf_commaSeparated spell (List.forall_mem_map.2 fun x hx => (h x hx).1), List.map_map]
  exact congrArg _ (List.map_congr_left fun x hx => (h x hx).2)

/-- A list starts as its first member does. -/
theorem startsLoose_list {α : Type} (write : α → Tokens) {xs : List α} (hne : xs ≠ [])
    (h : ∀ x, StartsLoose (write x)) : StartsLoose (Sql.commaSeparated (xs.map write)) := by
  obtain ⟨x, xs, rfl⟩ := List.exists_cons_of_ne_nil hne
  exact (h x).intercalate _ _

theorem textOf_columnTokens (cs : List Column) : textOf spell (columnTokens cs) = quotedList cs :=
  textOf_list spell (fun c : Column => [c.token]) (fun c => Ident.quote c.name) cs fun c _ =>
    ⟨startsLoose_cons rfl [], by simp [textOf, Column.token, Token.gapBefore, Token.text]⟩

theorem textOf_assignments (as : List (Column × Param)) :
    textOf spell (Sql.commaSeparated (as.map fun a => [a.1.token, .symbol .eq, a.2.token])) =
      assignmentList spell as := by
  refine textOf_list spell _ _ as fun a _ => ⟨startsLoose_cons rfl _, ?_⟩
  have hparam : textOf spell [a.2.token] = spell a.2.name := by
    simp [textOf, Param.token, Token.gapBefore, Token.text]
  have heq : (Token.symbol .eq : Token String).text spell = "=" := rfl
  rw [Sql.textOf_cons_loose spell rfl (startsLoose_cons rfl _),
    Sql.textOf_cons_loose spell rfl (startsLoose_cons rfl _), hparam, heq]
  simp only [Column.token, Token.text, String.append_assoc]
  rfl

/-- Rows as tuples, with commas between them. -/
def tupleTokens (rows : List (List Param)) : Tokens :=
  Sql.commaSeparated (rows.map fun row =>
    parenthesized (Sql.commaSeparated (row.map fun p => [p.token])))

theorem textOf_tupleTokens (rows : List (List Param)) :
    textOf spell (tupleTokens rows) = ", ".intercalate (rows.map (tupleText spell)) := by
  refine textOf_list spell _ _ rows fun row _ => ⟨startsLoose_cons rfl _, ?_⟩
  have hrow : textOf spell (Sql.commaSeparated (row.map fun p => [p.token])) =
      ", ".intercalate (row.map fun p => spell p.name) :=
    textOf_list spell _ _ row fun p _ =>
      ⟨startsLoose_cons rfl [], by simp [textOf, Param.token, Token.gapBefore, Token.text]⟩
  rw [Sql.textOf_parenthesized, hrow, tupleText]

/-! ## Conditions -/

theorem Cond.startsLoose_tokens (c : Cond) : StartsLoose c.tokens := by
  cases c <;> exact ⟨_, rfl, rfl⟩

theorem comparisonTokens_ne_nil (op : Operator) (p : Param) : comparisonTokens op p ≠ [] := by
  cases op <;> exact List.cons_ne_nil _ _

theorem endsLoose_comparison (op : Operator) (p : Param) : EndsLoose (comparisonTokens op p) := by
  unfold comparisonTokens
  split
  · exact endsLoose_concat [.symbol .eq, .call .ANY, p.token] (by rfl)
  · exact endsLoose_concat [.symbol .otherThan, .call .ALL, p.token] (by rfl)
  · exact endsLoose_concat op.tokens (by rfl)

theorem Cond.endsLoose_tokens (c : Cond) : EndsLoose c.tokens := by
  cases c with
  | compare column op param =>
    exact (endsLoose_comparison op param).behind (comparisonTokens_ne_nil op param) [column.token]
  | compareColumns left op right => exact endsLoose_concat (left.token :: op.tokens) (by rfl)
  | null column negated =>
    exact (Sql.endsLoose_keywords _).behind (by cases negated <;> exact List.cons_ne_nil _ _)
      [column.token]
  | nullSafeEq column param => exact Sql.endsLoose_parenthesized _
  | between column low high negated =>
    exact (endsLoose_concat [low.token, .keyword .AND] (by rfl)).behind (List.cons_ne_nil _ _)
      (column.token :: keywords _)
  | aggregate fn column op param =>
    exact (endsLoose_comparison op param).behind (comparisonTokens_ne_nil op param) _
  | group junction members => exact Sql.endsLoose_parenthesized _

theorem endsLoose_conjunctionTokens (cs : List Cond) : EndsLoose (conjunctionTokens cs) := by
  rw [conjunctionTokens, Cond.tokensEach_eq_map]
  exact (endsLoose_singleton rfl).intercalate (List.forall_mem_map.2 fun c _ => c.endsLoose_tokens)

theorem startsLoose_conjunctionTokens {cs : List Cond} (h : cs ≠ []) :
    StartsLoose (conjunctionTokens cs) := by
  obtain ⟨c, cs, rfl⟩ := List.exists_cons_of_ne_nil h
  exact c.startsLoose_tokens.intercalate _ _

/-- Conditions that must all hold. -/
def conjunctionText (cs : List Cond) : String :=
  textOf spell (conjunctionTokens cs)

theorem spaced_whereTokens {cs : List Cond} (h : cs ≠ []) :
    spaced spell (whereTokens cs) = " WHERE " ++ conjunctionText spell cs := by
  have hwhere : whereTokens cs = .keyword .WHERE :: conjunctionTokens cs :=
    if_neg (by simpa using h)
  rw [hwhere, spaced, List.isEmpty_cons, if_neg Bool.false_ne_true,
    Sql.textOf_cons_loose spell rfl (startsLoose_conjunctionTokens h), conjunctionText,
    ← String.append_assoc]
  rfl

theorem startsWithWord_whereTokens (cs : List Cond) : StartsWithWord (whereTokens cs) := by
  cases cs with
  | nil => rintro t ⟨⟩
  | cons c cs => exact Sql.startsWithWord_cons _ _

theorem endsLoose_whereTokens (cs : List Cond) : EndsLoose (whereTokens cs) := by
  cases cs with
  | nil => rintro t ⟨⟩
  | cons c cs =>
    exact (endsLoose_conjunctionTokens (c :: cs)).behind
      (fun h => by simpa [h, StartsLoose] using startsLoose_conjunctionTokens (List.cons_ne_nil c cs))
      [.keyword .WHERE]

/-! ## Statements -/

/-- The columns that are returned, as a clause; nothing without columns. -/
def returningText (cs : List Column) : String :=
  if cs.isEmpty then "" else " RETURNING " ++ quotedList cs

theorem spaced_returningTokens (cs : List Column) :
    spaced spell (returningTokens cs) = returningText cs := by
  cases cs with
  | nil => rfl
  | cons c cs =>
    have hcolumns : StartsLoose (columnTokens (c :: cs)) :=
      (startsLoose_cons rfl []).intercalate _ _
    show " " ++ textOf spell (.keyword .RETURNING :: columnTokens (c :: cs)) =
      " RETURNING " ++ quotedList (c :: cs)
    rw [Sql.textOf_cons_loose spell rfl hcolumns, textOf_columnTokens, ← String.append_assoc]
    rfl

theorem startsWithWord_returningTokens (cs : List Column) :
    StartsWithWord (returningTokens cs) := by
  cases cs with
  | nil => rintro t ⟨⟩
  | cons c cs => exact Sql.startsWithWord_cons _ _

/-- The text of an UPDATE that sets something. -/
theorem UpdateStatement.textOf_tokens (s : UpdateStatement) (hset : s.assignments ≠ []) :
    textOf spell s.tokens =
      "UPDATE " ++ Ident.quote s.table ++ " SET " ++ assignmentList spell s.assignments
        ++ spaced spell (whereTokens s.conditions) ++ returningText s.returning := by
  let head : Tokens := [.keyword .UPDATE, .identifier s.table, .keyword .SET]
  let list : Tokens :=
    Sql.commaSeparated (s.assignments.map fun a => [a.1.token, .symbol .eq, a.2.token])
  have hhead : textOf spell head ++ " " = "UPDATE " ++ Ident.quote s.table ++ " SET " := by
    simp only [head, textOf, Token.text, String.append_assoc]
    rw [← String.append_assoc]
    rfl
  have hloose : EndsLoose head :=
    (endsLoose_singleton rfl).behind (List.cons_ne_nil _ _) [.keyword .UPDATE, .identifier s.table]
  have hstarts : StartsLoose list := startsLoose_list _ hset fun a => startsLoose_cons rfl _
  have hends : EndsLoose (head ++ list) := by
    refine hloose.append (Sql.endsLoose_commaSeparated (List.forall_mem_map.2 fun a _ => ?_))
    exact (endsLoose_singleton rfl).behind (List.cons_ne_nil _ _) [a.1.token, .symbol .eq]
  have hne : head ++ list ≠ [] := List.cons_ne_nil _ _
  -- the clauses behind the assignments bring the blanks before them, and may be missing
  show textOf spell (head ++ list ++ whereTokens s.conditions ++ returningTokens s.returning) = _
  rw [Sql.textOf_append_spaced spell (List.append_ne_nil_of_left_ne_nil hne _)
      (hends.append (endsLoose_whereTokens _)) (startsWithWord_returningTokens _),
    Sql.textOf_append_spaced spell hne hends (startsWithWord_whereTokens _),
    Sql.textOf_append_loose spell (List.cons_ne_nil _ _) hloose hstarts, hhead,
    textOf_assignments, spaced_returningTokens]

/-- The tokens of a SELECT of columns under conditions. -/
theorem tokens_select (table : String) {columns : List Column} (hcolumns : columns ≠ [])
    (conditions : List Cond) :
    SelectStatement.tokens { table, items := columns.map SelectItem.ofColumn, conditions } =
      .keyword .SELECT :: columnTokens columns ++ [.keyword .FROM, .identifier table]
        ++ whereTokens conditions := by
  have hitems : (columns.map SelectItem.ofColumn).isEmpty = false := by simpa using hcolumns
  have hlist : (columns.map SelectItem.ofColumn).map SelectItem.tokens =
      columns.map fun c => [c.token] := by
    rw [List.map_map]
    rfl
  simp [SelectStatement.tokens, hitems, hlist, columnTokens, groupByTokens, havingTokens,
    tailTokens, orderByTokens, boundTokens]

/-- The text of a SELECT of columns under conditions. -/
theorem textOf_select (table : String) {columns : List Column} (hcolumns : columns ≠ [])
    (conditions : List Cond) :
    textOf spell (SelectStatement.tokens
        { table, items := columns.map SelectItem.ofColumn, conditions }) =
      "SELECT " ++ quotedList columns ++ " FROM " ++ Ident.quote table
        ++ spaced spell (whereTokens conditions) := by
  let head : Tokens := .keyword .SELECT :: columnTokens columns
  let source : Tokens := [.keyword .FROM, .identifier table]
  have hstarts : StartsLoose (columnTokens columns) :=
    startsLoose_list _ hcolumns fun c => startsLoose_cons rfl []
  have hhead : EndsLoose head := by
    refine (endsLoose_singleton (t := .keyword .SELECT) rfl).append ?_
    exact Sql.endsLoose_commaSeparated (List.forall_mem_map.2 fun c _ => endsLoose_singleton rfl)
  have hends : EndsLoose (head ++ source) :=
    (endsLoose_concat [.keyword .FROM] (by rfl)).behind (List.cons_ne_nil _ _) head
  have hselect : textOf spell head = "SELECT " ++ quotedList columns := by
    rw [Sql.textOf_cons_loose spell rfl hstarts, textOf_columnTokens]
    rfl
  have hfrom : " " ++ textOf spell source = " FROM " ++ Ident.quote table := by
    rw [Sql.textOf_cons_loose spell rfl (startsLoose_cons rfl []), ← String.append_assoc]
    simp only [textOf, Token.gapBefore, Token.text, String.append_empty]
    rfl
  have hne : head ++ source ≠ [] := List.cons_ne_nil _ _
  -- items and source have a blank between them; the WHERE clause brings its own
  have hparts : textOf spell (head ++ source) =
      "SELECT " ++ quotedList columns ++ " FROM " ++ Ident.quote table := by
    rw [Sql.textOf_append_loose spell (List.cons_ne_nil _ _) hhead (startsLoose_cons rfl _),
      hselect, String.append_assoc, hfrom, ← String.append_assoc]
  rw [tokens_select table hcolumns, ← hparts]
  exact Sql.textOf_append_spaced spell hne hends (startsWithWord_whereTokens _)

theorem startsWithWord_conflictTokens (c : Option Conflict) : StartsWithWord (conflictTokens c) := by
  cases c with
  | none => rintro t ⟨⟩
  | some c => exact Sql.startsWithWord_cons _ _

/-- The tokens of an INSERT that returns nothing: the table, the columns and the tuples, and what is
done in a conflict. -/
theorem InsertStatement.tokens_plain (s : InsertStatement) (hreturning : s.returning = []) :
    s.tokens =
      [.keyword .INSERT, .keyword .INTO, .identifier s.table] ++ parenthesized (columnTokens s.columns)
        ++ .keyword .VALUES :: tupleTokens s.rows ++ conflictTokens s.conflict := by
  have hnone : returningTokens s.returning = [] := by rw [hreturning]; rfl
  simp [InsertStatement.tokens_eq, hnone, tupleTokens, columnTokens, Sql.commaSeparated]

theorem textOf_into (table : String) :
    textOf spell [.keyword .INSERT, .keyword .INTO, .identifier table] =
      "INSERT INTO " ++ Ident.quote table := by
  rw [Sql.textOf_cons_loose spell rfl (startsLoose_cons rfl _),
    Sql.textOf_cons_loose spell rfl (startsLoose_cons rfl _), ← String.append_assoc]
  simp only [textOf, Token.gapBefore, Token.text, String.append_empty]
  rfl

theorem textOf_values {rows : List (List Param)} (hrows : rows ≠ []) :
    textOf spell (.keyword .VALUES :: tupleTokens rows) =
      "VALUES " ++ ", ".intercalate (rows.map (tupleText spell)) := by
  have hstarts : StartsLoose (tupleTokens rows) :=
    startsLoose_list _ hrows fun row => startsLoose_cons rfl _
  rw [Sql.textOf_cons_loose spell rfl hstarts, textOf_tupleTokens]
  rfl

/-- The text of an INSERT of rows that returns nothing. -/
theorem InsertStatement.textOf_tokens (s : InsertStatement) (hrows : s.rows ≠ [])
    (hreturning : s.returning = []) :
    textOf spell s.tokens =
      "INSERT INTO " ++ Ident.quote s.table ++ " (" ++ quotedList s.columns ++ ") VALUES "
        ++ ", ".intercalate (s.rows.map (tupleText spell))
        ++ spaced spell (conflictTokens s.conflict) := by
  let into : Tokens := [.keyword .INSERT, .keyword .INTO, .identifier s.table]
  let columns : Tokens := parenthesized (columnTokens s.columns)
  let values : Tokens := .keyword .VALUES :: tupleTokens s.rows
  -- the three parts end and start with tokens that a blank stands between
  have hinto : EndsLoose into := endsLoose_concat [.keyword .INSERT, .keyword .INTO] (by rfl)
  have hcolumns : EndsLoose (into ++ columns) := hinto.append (Sql.endsLoose_parenthesized _)
  have hvalues : EndsLoose values := by
    refine (endsLoose_singleton (t := .keyword .VALUES) rfl).append ?_
    exact Sql.endsLoose_commaSeparated
      (List.forall_mem_map.2 fun row _ => Sql.endsLoose_parenthesized _)
  have hne : into ++ columns ≠ [] := List.cons_ne_nil _ _
  have hopening : StartsLoose columns := startsLoose_cons (by rfl) _
  have hkeyword : StartsLoose values := startsLoose_cons (by rfl) _
  have hparts : textOf spell (into ++ columns ++ values) =
      textOf spell into ++ " " ++ textOf spell columns ++ " " ++ textOf spell values := by
    rw [Sql.textOf_append_loose spell hne hcolumns hkeyword,
      Sql.textOf_append_loose spell (List.cons_ne_nil _ _) hinto hopening]
  have htext : textOf spell (into ++ columns ++ values) =
      "INSERT INTO " ++ Ident.quote s.table ++ " (" ++ quotedList s.columns ++ ") VALUES "
        ++ ", ".intercalate (s.rows.map (tupleText spell)) := by
    have hblank : ") VALUES " = ")" ++ " " ++ "VALUES " := rfl
    rw [hparts, textOf_into, Sql.textOf_parenthesized, textOf_columnTokens,
      textOf_values spell hrows, hblank]
    simp only [String.append_assoc]
    rfl
  -- the conflict clause brings the blank before it, and may be missing
  rw [s.tokens_plain hreturning, ← htext]
  exact Sql.textOf_append_spaced spell (List.append_ne_nil_of_left_ne_nil hne _)
    (hvalues.behind (List.cons_ne_nil _ _) _) (startsWithWord_conflictTokens _)

end CheckedSql
