/-
Table declarations, and the schemas made of the ones that are sound: plain and distinct names, at
least one column. A schema is the only door from a caller's string to a column or a parameter.
-/
import CheckedSql.Error
import CheckedSql.Ident

namespace CheckedSql

/-- A column of some schema, by name. -/
structure Column where
  name : String
  deriving DecidableEq

/-- A named parameter of a statement. -/
structure Param where
  name : String
  deriving DecidableEq

/-- A declared column. -/
structure ColumnInfo where
  name : String
  primaryKey : Bool
  nullable : Bool
  deriving DecidableEq

/-- The column as statements name it. -/
def ColumnInfo.column (c : ColumnInfo) : Column :=
  ⟨c.name⟩

/-- A table as it is declared, before any check. -/
structure TableDeclaration where
  name : String
  columns : List ColumnInfo
  deriving DecidableEq

namespace TableDeclaration

/-- What keeps a declaration from being a schema. -/
inductive Fault
  | tableName (table : String)
  | noColumns (table : String)
  | columnName (column : String)
  | duplicateColumn (column table : String)
  deriving DecidableEq

/-- The fault in words. -/
def Fault.text : Fault → String
  | .tableName table => "table name '" ++ table ++ "' is not a plain identifier"
  | .noColumns table => "table '" ++ table ++ "' has no columns defined"
  | .columnName column => "column name '" ++ column ++ "' is not a plain identifier"
  | .duplicateColumn column table =>
    "duplicate column '" ++ column ++ "' in table '" ++ table ++ "'"

/-- The first fault in a list of columns that follow columns of the names `seen` in `table`. -/
def columnFault (table : String) (seen : List String) : List ColumnInfo → Option Fault
  | [] => none
  | c :: cs =>
    if Ident.isPlain c.name = false then some (.columnName c.name)
    else if c.name ∈ seen then some (.duplicateColumn c.name table)
    else columnFault table (c.name :: seen) cs

/-- The first fault of a declaration: its name, then a lack of columns, then the columns. -/
def fault? (d : TableDeclaration) : Option Fault :=
  if Ident.isPlain d.name = false then some (.tableName d.name)
  else if d.columns = [] then some (.noColumns d.name)
  else columnFault d.name [] d.columns

theorem columnFault_eq_none {table : String} {seen : List String} {cs : List ColumnInfo}
    (h : columnFault table seen cs = none) :
    (∀ c ∈ cs, Ident.isPlain c.name = true) ∧ (∀ c ∈ cs, c.name ∉ seen) ∧
      (cs.map (·.name)).Nodup := by
  induction cs generalizing seen with
  | nil => simp
  | cons c cs ih =>
    unfold columnFault at h
    split at h
    · simp at h
    · split at h
      · simp at h
      · rename_i hp hs
        obtain ⟨h1, h2, h3⟩ := ih h
        have hp' : Ident.isPlain c.name = true := by simpa using hp
        refine ⟨by simpa [hp'] using h1, ?_, ?_⟩
        · intro d hd
          rcases List.mem_cons.1 hd with rfl | hd
          · exact hs
          · exact fun hm => h2 d hd (List.mem_cons_of_mem _ hm)
        · rw [List.map_cons, List.nodup_cons]
          refine ⟨fun hm => ?_, h3⟩
          obtain ⟨d, hd, he⟩ := List.mem_map.1 hm
          exact h2 d hd (by simp [he])

theorem fault?_eq_none {d : TableDeclaration} (h : d.fault? = none) :
    Ident.isPlain d.name = true ∧ d.columns ≠ [] ∧
      (∀ c ∈ d.columns, Ident.isPlain c.name = true) ∧ (d.columns.map (·.name)).Nodup := by
  unfold fault? at h
  split at h
  · simp at h
  · split at h
    · simp at h
    · rename_i hp hc
      obtain ⟨h1, -, h3⟩ := columnFault_eq_none h
      exact ⟨by simpa using hp, hc, h1, h3⟩

end TableDeclaration

/-- A table whose names can stand in a statement: each is a plain identifier, no column is named
twice, and there is a column. -/
structure Schema where
  table : String
  columns : List ColumnInfo
  table_plain : Ident.isPlain table = true
  columns_ne_nil : columns ≠ []
  columns_plain : ∀ c ∈ columns, Ident.isPlain c.name = true
  names_nodup : (columns.map (·.name)).Nodup

namespace Schema

/-- The schema of a declaration without fault. -/
def ofDeclaration (d : TableDeclaration) : Except BuildError Schema :=
  match h : d.fault? with
  | some f => .error (.invalidSchema f.text)
  | none =>
    let ⟨ht, hc, hp, hn⟩ := TableDeclaration.fault?_eq_none h
    .ok ⟨d.name, d.columns, ht, hc, hp, hn⟩

/-- The declared column of a name. -/
def find? (s : Schema) (name : String) : Option ColumnInfo :=
  s.columns.find? (·.name == name)

/-- A name that must be the table's own. -/
def resolveTable (s : Schema) (name : String) : Except BuildError String :=
  if name = s.table then .ok s.table else .error (.unresolved .table name)

/-- The column of a name. -/
def resolveColumn (s : Schema) (name : String) : Except BuildError Column :=
  match s.find? name with
  | some c => .ok c.column
  | none => .error (.unresolved .field name)

/-- The columns of a list of names; the first unknown name is the error. -/
def resolveColumns (s : Schema) : List String → Except BuildError (List Column)
  | [] => .ok []
  | n :: ns => do
    let c ← s.resolveColumn n
    let cs ← s.resolveColumns ns
    return c :: cs

/-- A parameter name: any plain identifier. -/
def resolveParam (_ : Schema) (name : String) : Except BuildError Param :=
  if Ident.isPlain name then .ok ⟨name⟩ else .error (.unresolved .param name)

/-- A name for an output column: any plain identifier. -/
def resolveOutputName (_ : Schema) (name : String) : Except BuildError String :=
  if Ident.isPlain name then .ok name else .error (.unresolved .outputName name)

/-- A declared column that may hold NULL. -/
def isNullable (s : Schema) (name : String) : Bool :=
  ((s.find? name).map (·.nullable)).getD false

/-- Every column, in declaration order. -/
def allColumns (s : Schema) : List Column :=
  s.columns.map (·.column)

/-- The columns of the primary key, in declaration order. -/
def primaryKey (s : Schema) : List Column :=
  (s.columns.filter (·.primaryKey)).map (·.column)

/-- The columns outside the primary key, in declaration order. -/
def nonPrimary (s : Schema) : List Column :=
  (s.columns.filter (!·.primaryKey)).map (·.column)

end Schema

end CheckedSql
