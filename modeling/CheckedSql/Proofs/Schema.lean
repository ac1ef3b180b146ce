/-
Which declarations become schemas, what the first fault of the others is, and what a schema keeps
of its declaration: all columns in order, the primary key and the rest of them, and the names under
which columns are found.
-/
import CheckedSql.Schema
import Mathlib.Data.List.Nodup

namespace CheckedSql

/-! ## Plain identifiers -/

namespace Ident

/-- A letter of the ASCII alphabet. -/
def Letter (c : Char) : Prop :=
  ('A' ≤ c ∧ c ≤ 'Z') ∨ ('a' ≤ c ∧ c ≤ 'z')

/-- A decimal digit of ASCII. -/
def Digit (c : Char) : Prop :=
  '0' ≤ c ∧ c ≤ '9'

/-- A plain identifier, `[A-Za-z_][A-Za-z0-9_]*`. -/
def Plain (name : String) : Prop :=
  ∃ c cs, name.toList = c :: cs ∧ (Letter c ∨ c = '_') ∧ ∀ d ∈ cs, Letter d ∨ Digit d ∨ d = '_'

/-- A character is tested against both bounds. -/
theorem between_iff (a b c : Char) :
    (decide (a.val ≤ c.val) && decide (c.val ≤ b.val)) = true ↔ a ≤ c ∧ c ≤ b := by
  rw [Bool.and_eq_true, decide_eq_true_eq, decide_eq_true_eq]
  rfl

theorem isAlpha_iff (c : Char) : c.isAlpha = true ↔ Letter c := by
  have hupper : c.isUpper = true ↔ 'A' ≤ c ∧ c ≤ 'Z' := decide_eq_true_iff
  have hlower : c.isLower = true ↔ 'a' ≤ c ∧ c ≤ 'z' := between_iff 'a' 'z' c
  exact Bool.or_eq_true_iff.trans (or_congr hupper hlower)

theorem isDigit_iff (c : Char) : c.isDigit = true ↔ Digit c :=
  between_iff '0' '9' c

theorem isStart_iff (c : Char) : isStart c = true ↔ Letter c ∨ c = '_' := by
  rw [isStart, Bool.or_eq_true, isAlpha_iff, beq_iff_eq]

theorem isPart_iff (c : Char) : isPart c = true ↔ Letter c ∨ Digit c ∨ c = '_' := by
  rw [isPart, Char.isAlphanum, Bool.or_eq_true, Bool.or_eq_true, isAlpha_iff, isDigit_iff,
    beq_iff_eq, or_assoc]

theorem isPlain_iff (name : String) : isPlain name = true ↔ Plain name := by
  unfold isPlain Plain
  cases name.toList with
  | nil => simp
  | cons c cs =>
    simp only [Bool.and_eq_true, List.all_eq_true, isStart_iff, isPart_iff]
    constructor
    · rintro ⟨hc, hcs⟩
      exact ⟨c, cs, rfl, hc, hcs⟩
    · rintro ⟨_, _, ⟨⟩, hc, hcs⟩
      exact ⟨hc, hcs⟩

instance (name : String) : Decidable (Plain name) :=
  decidable_of_iff _ (isPlain_iff name)

theorem isPlain_eq_false_iff (name : String) : isPlain name = false ↔ ¬Plain name := by
  rw [← isPlain_iff, Bool.not_eq_true]

end Ident

/-! ## Faults of declarations -/

namespace TableDeclaration

/-- A declaration that can become a schema. -/
structure WellFormed (d : TableDeclaration) : Prop where
  table : Ident.Plain d.name
  nonempty : d.columns ≠ []
  plain : ∀ c ∈ d.columns, Ident.Plain c.name
  distinct : (d.columns.map (·.name)).Nodup

/-- The faults of a column of `table` that is declared after others. -/
def columnFaults (table : String) (before : List ColumnInfo) (c : ColumnInfo) : List Fault :=
  (if Ident.Plain c.name then [] else [.columnName c.name]) ++
    if c.name ∈ before.map (·.name) then [.duplicateColumn c.name table] else []

/-- All faults of a declaration: of its name, the lack of columns, and those of the columns from
left to right. -/
def faults (d : TableDeclaration) : List Fault :=
  (if Ident.Plain d.name then [] else [.tableName d.name]) ++
    (if d.columns = [] then [.noColumns d.name] else []) ++
    (d.columns.mapIdx fun i c => columnFaults d.name (d.columns.take i) c).flatten

/-- The first fault of columns is the first of all their faults. -/
theorem columnFault_eq_head? (table : String) (cs before : List ColumnInfo) (seen : List String)
    (hseen : ∀ name, name ∈ seen ↔ name ∈ before.map (·.name)) :
    columnFault table seen cs =
      (cs.mapIdx fun i c => columnFaults table (before ++ cs.take i) c).flatten.head? := by
  -- names are seen in another order than they are declared, so the two lists agree in members only
  induction cs generalizing before seen with
  | nil => rfl
  | cons c cs ih =>
    rw [List.mapIdx_cons, List.flatten_cons, columnFault]
    simp only [Ident.isPlain_eq_false_iff, List.take_zero, List.append_nil, columnFaults, hseen]
    by_cases hplain : Ident.Plain c.name
    · by_cases hduplicate : c.name ∈ before.map (·.name)
      · simp [hplain, hduplicate]
      · have hnext := ih (before ++ [c]) (c.name :: seen) fun name => by
          simp [hseen, or_comm]
        simp only [hplain, hduplicate, not_true_eq_false, if_false, if_true, List.nil_append, hnext]
        simp [columnFaults]
    · simp [hplain]

/-- The fault that is found is the first one. -/
theorem fault?_eq_head? (d : TableDeclaration) : d.fault? = d.faults.head? := by
  have hcolumns := columnFault_eq_head? d.name d.columns [] [] fun name => Iff.rfl
  rw [fault?, faults]
  simp only [Ident.isPlain_eq_false_iff, List.nil_append] at hcolumns ⊢
  by_cases htable : Ident.Plain d.name
  · by_cases hempty : d.columns = []
    · simp [htable, hempty]
    · simp [htable, hempty, hcolumns]
  · simp [htable]

theorem columnFault_of_wellFormed {table : String} {seen : List String} {cs : List ColumnInfo}
    (hplain : ∀ c ∈ cs, Ident.Plain c.name) (hnew : ∀ c ∈ cs, c.name ∉ seen)
    (hdistinct : (cs.map (·.name)).Nodup) : columnFault table seen cs = none := by
  induction cs generalizing seen with
  | nil => rfl
  | cons c cs ih =>
    rw [List.map_cons, List.nodup_cons] at hdistinct
    obtain ⟨hc, hcs⟩ := List.forall_mem_cons.1 hplain
    obtain ⟨hcnew, hcsnew⟩ := List.forall_mem_cons.1 hnew
    rw [columnFault, if_neg (by rw [(Ident.isPlain_iff _).2 hc]; exact Bool.noConfusion),
      if_neg hcnew]
    refine ih hcs (fun e he => ?_) hdistinct.2
    rw [List.mem_cons, not_or]
    exact ⟨fun heq => hdistinct.1 (heq ▸ List.mem_map_of_mem he), hcsnew e he⟩

theorem fault?_eq_none_iff (d : TableDeclaration) : d.fault? = none ↔ d.WellFormed := by
  constructor
  · intro h
    obtain ⟨htable, hne, hplain, hdistinct⟩ := fault?_eq_none h
    exact ⟨(Ident.isPlain_iff _).1 htable, hne, fun c hc => (Ident.isPlain_iff _).1 (hplain c hc),
      hdistinct⟩
  · rintro ⟨htable, hne, hplain, hdistinct⟩
    rw [fault?, if_neg (by rw [(Ident.isPlain_iff _).2 htable]; exact Bool.noConfusion), if_neg hne]
    exact columnFault_of_wellFormed hplain (fun _ _ => List.not_mem_nil) hdistinct

end TableDeclaration

namespace Schema

/-! ## Schemas of declarations -/

theorem ofDeclaration_of_none {d : TableDeclaration} (h : d.fault? = none) :
    ∃ s, ofDeclaration d = .ok s := by
  unfold ofDeclaration
  split
  case h_1 f hf => rw [h] at hf; cases hf
  case h_2 hnone =>
    generalize TableDeclaration.fault?_eq_none hnone = sound
    obtain ⟨_, _, _, _⟩ := sound
    exact ⟨_, rfl⟩

theorem ofDeclaration_of_some {d : TableDeclaration} {f : TableDeclaration.Fault}
    (h : d.fault? = some f) : ofDeclaration d = .error (.invalidSchema f.text) := by
  unfold ofDeclaration
  split
  case h_1 g hg => rw [h] at hg; cases hg; rfl
  case h_2 hnone => rw [h] at hnone; cases hnone

theorem kept_of_ofDeclaration {d : TableDeclaration} {s : Schema} (h : ofDeclaration d = .ok s) :
    s.table = d.name ∧ s.columns = d.columns := by
  unfold ofDeclaration at h
  split at h
  case h_1 => cases h
  case h_2 hnone =>
    generalize TableDeclaration.fault?_eq_none hnone = sound at h
    obtain ⟨_, _, _, _⟩ := sound
    cases h
    exact ⟨rfl, rfl⟩

variable {s : Schema}

/-! ## Columns -/

theorem name_find? {name : String} {info : ColumnInfo} (h : s.find? name = some info) :
    info.name = name := by
  have hname := List.find?_some h
  simpa using hname

theorem find?_isSome_iff {name : String} :
    (s.find? name).isSome = true ↔ name ∈ s.columns.map (·.name) := by
  rw [find?, List.find?_isSome, List.mem_map]
  exact exists_congr fun info => and_congr_right fun _ => beq_iff_eq

theorem nodup_allColumns (s : Schema) : s.allColumns.Nodup := by
  have hnames : s.allColumns.map (·.name) = s.columns.map (·.name) := List.map_map
  exact List.Nodup.of_map _ (hnames ▸ s.names_nodup)

/-- A column is of the primary key or it is not. -/
theorem mem_allColumns {c : Column} :
    c ∈ s.allColumns ↔ c ∈ s.primaryKey ∨ c ∈ s.nonPrimary := by
  simp only [allColumns, primaryKey, nonPrimary, List.mem_map, List.mem_filter]
  constructor
  · rintro ⟨info, hinfo, rfl⟩
    cases hprimary : info.primaryKey
    · exact .inr ⟨info, ⟨hinfo, by simp [hprimary]⟩, rfl⟩
    · exact .inl ⟨info, ⟨hinfo, hprimary⟩, rfl⟩
  · rintro (⟨info, ⟨hinfo, -⟩, rfl⟩ | ⟨info, ⟨hinfo, -⟩, rfl⟩) <;> exact ⟨info, hinfo, rfl⟩

/-- A column of the primary key is not outside of it. -/
theorem names_disjoint (s : Schema) {name : String}
    (h : name ∈ s.primaryKey.map (·.name)) : name ∉ s.nonPrimary.map (·.name) := by
  intro hother
  simp only [primaryKey, nonPrimary, List.mem_map, List.mem_filter] at h hother
  obtain ⟨-, ⟨key, ⟨hkey, hprimary⟩, rfl⟩, rfl⟩ := h
  obtain ⟨-, ⟨other, ⟨hother, hnot⟩, rfl⟩, hname⟩ := hother
  have hsame : other = key := List.inj_on_of_nodup_map s.names_nodup hother hkey hname
  rw [hsame, hprimary] at hnot
  cases hnot

theorem mem_primaryKey_iff {c : Column} (h : c ∈ s.allColumns) :
    c ∈ s.primaryKey ↔ c ∉ s.nonPrimary := by
  constructor
  · intro hkey hrest
    exact s.names_disjoint (List.mem_map_of_mem hkey) (List.mem_map_of_mem hrest)
  · intro hrest
    exact (mem_allColumns.1 h).resolve_right hrest

theorem column_mem_primaryKey_iff {info : ColumnInfo} (h : info ∈ s.columns) :
    info.column ∈ s.primaryKey ↔ info.primaryKey = true := by
  constructor
  · intro hkey
    obtain ⟨other, hother, hsame⟩ := List.mem_map.1 hkey
    obtain ⟨hmem, hprimary⟩ := List.mem_filter.1 hother
    have hname : other.name = info.name := congrArg Column.name hsame
    exact List.inj_on_of_nodup_map s.names_nodup hmem h hname ▸ hprimary
  · intro hprimary
    exact List.mem_map_of_mem (List.mem_filter.2 ⟨h, hprimary⟩)

/-! ## Looking up names -/

theorem resolveColumn_of_mem {name : String} (h : name ∈ s.columns.map (·.name)) :
    s.resolveColumn name = .ok ⟨name⟩ := by
  obtain ⟨info, hinfo⟩ := Option.isSome_iff_exists.1 (find?_isSome_iff.2 h)
  rw [resolveColumn, hinfo]
  exact congrArg (fun n => Except.ok (Column.mk n)) (name_find? hinfo)

theorem resolveColumn_of_not_mem {name : String} (h : name ∉ s.columns.map (·.name)) :
    s.resolveColumn name = .error (.unresolved .field name) := by
  have hnone : s.find? name = none :=
    Option.not_isSome_iff_eq_none.1 fun hsome => h (find?_isSome_iff.1 hsome)
  rw [resolveColumn, hnone]

/-- Names are looked up until one is unknown. -/
theorem resolveColumns_eq (names : List String) :
    s.resolveColumns names =
      match names.find? (· ∉ s.columns.map (·.name)) with
      | some name => .error (.unresolved .field name)
      | none => .ok (names.map Column.mk) := by
  induction names with
  | nil => rfl
  | cons name names ih =>
    rw [resolveColumns, ih]
    by_cases h : name ∈ s.columns.map (·.name)
    · rw [resolveColumn_of_mem h, List.find?_cons_of_neg (by simpa using h)]
      cases names.find? (· ∉ s.columns.map (·.name)) <;> rfl
    · rw [resolveColumn_of_not_mem h, List.find?_cons_of_pos (by simpa using h)]
      rfl

/-- A schema that keeps what a declaration declares. -/
structure Keeps (s : Schema) (d : TableDeclaration) : Prop where
  table : s.table = d.name
  /-- All columns with their flags, in the order of declaration. -/
  columns : s.columns = d.columns
  allColumns : s.allColumns.map (·.name) = d.columns.map (·.name)
  distinct : s.allColumns.Nodup
  primaryKey : s.primaryKey.Sublist s.allColumns
  nonPrimary : s.nonPrimary.Sublist s.allColumns
  /-- Every column is of the primary key or of the rest, and not of both. -/
  complementary : ∀ c ∈ s.allColumns, c ∈ s.primaryKey ↔ c ∉ s.nonPrimary
  flagged : ∀ info ∈ d.columns, info.column ∈ s.primaryKey ↔ info.primaryKey = true
  resolveColumn : ∀ name, s.resolveColumn name =
    if name ∈ d.columns.map (·.name) then .ok ⟨name⟩ else .error (.unresolved .field name)
  resolveColumns : ∀ names, s.resolveColumns names =
    match names.find? (· ∉ d.columns.map (·.name)) with
    | some name => .error (.unresolved .field name)
    | none => .ok (names.map Column.mk)

theorem keeps_of_ofDeclaration {d : TableDeclaration} (h : ofDeclaration d = .ok s) :
    s.Keeps d := by
  obtain ⟨htable, hcolumns⟩ := kept_of_ofDeclaration h
  refine
    { table := htable
      columns := hcolumns
      allColumns := hcolumns ▸ List.map_map
      distinct := s.nodup_allColumns
      primaryKey := List.Sublist.map _ List.filter_sublist
      nonPrimary := List.Sublist.map _ List.filter_sublist
      complementary := fun c hc => mem_primaryKey_iff hc
      flagged := fun info hinfo => column_mem_primaryKey_iff (hcolumns ▸ hinfo)
      resolveColumn := fun name => ?_
      resolveColumns := fun names => hcolumns ▸ resolveColumns_eq names }
  split
  case isTrue hmem => exact resolveColumn_of_mem (hcolumns ▸ hmem)
  case isFalse hmem => exact resolveColumn_of_not_mem (hcolumns ▸ hmem)

/-- A declaration becomes a schema if and only if it is well-formed. Otherwise it has a fault, and
the error is the first of them: its name before the lack of columns, both before the columns, these
from left to right, and of one column that its name is not plain before that it is taken. A schema
keeps what was declared. -/
theorem ofDeclaration_exact (d : TableDeclaration) :
    ((∃ s, ofDeclaration d = .ok s) ↔ d.WellFormed) ∧
      (∀ e, ofDeclaration d = .error e ↔
        ∃ f, d.faults.head? = some f ∧ e = .invalidSchema f.text) ∧
      ∀ s, ofDeclaration d = .ok s → s.Keeps d := by
  rw [← d.fault?_eq_none_iff, ← d.fault?_eq_head?]
  refine ⟨⟨?_, ofDeclaration_of_none⟩, fun e => ⟨fun h => ?_, ?_⟩, fun s => keeps_of_ofDeclaration⟩
  · rintro ⟨s, hs⟩
    refine Option.eq_none_iff_forall_ne_some.2 fun f hf => ?_
    rw [ofDeclaration_of_some hf] at hs
    cases hs
  · cases hf : d.fault? with
    | none =>
      obtain ⟨s, hs⟩ := ofDeclaration_of_none hf
      rw [hs] at h
      cases h
    | some f =>
      rw [ofDeclaration_of_some hf] at h
      cases h
      exact ⟨f, rfl, rfl⟩
  · rintro ⟨f, hf, rfl⟩
    exact ofDeclaration_of_some hf

/-- A declaration that is kept, and one whose second column is not plain and whose third has the
name of the first. -/
theorem ofDeclaration_exact_users :
    let d : TableDeclaration :=
      ⟨"users", [⟨"id", true, false⟩, ⟨"email", false, false⟩, ⟨"age", false, true⟩]⟩
    let faulty : TableDeclaration :=
      ⟨"users", [⟨"id", true, false⟩, ⟨"e-mail", false, false⟩, ⟨"id", false, true⟩]⟩
    (∃ s, ofDeclaration d = .ok s ∧ s.Keeps d ∧
        s.resolveColumns ["age", "emial", "ages"] = .error (.unresolved .field "emial")) ∧
      faulty.faults = [.columnName "e-mail", .duplicateColumn "id" "users"] ∧
      ofDeclaration faulty =
        .error (.invalidSchema "column name 'e-mail' is not a plain identifier") := by
  intro d faulty
  obtain ⟨hok, -, hkeeps⟩ := ofDeclaration_exact d
  obtain ⟨-, herror, -⟩ := ofDeclaration_exact faulty
  obtain ⟨s, hs⟩ := hok.2 ⟨by decide, by decide, by decide, by decide⟩
  have hfaults : faulty.faults = [.columnName "e-mail", .duplicateColumn "id" "users"] := by decide
  exact ⟨⟨s, hs, hkeeps s hs, (hkeeps s hs).resolveColumns _⟩, hfaults,
    (herror _).2 ⟨_, congrArg List.head? hfaults, rfl⟩⟩

end Schema

end CheckedSql
