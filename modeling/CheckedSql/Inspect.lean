/-
Tables and parameter sets in record notation, on one line, for people who look for a mistake.
-/
import CheckedSql.Params
import CheckedSql.Table
import CheckedSql.Text.Literal

namespace CheckedSql.Inspect

/-- Fields with their values, in braces behind a name. -/
def record (name : String) (fields : List (String × String)) : String :=
  name ++ " \x7b " ++ ", ".intercalate (fields.map fun f => f.1 ++ ": " ++ f.2) ++ " \x7d"

/-- Keys with their values, in braces. -/
def mapping (entries : List (String × String)) : String :=
  "\x7b" ++ ", ".intercalate (entries.map fun e => Text.literal e.1 ++ ": " ++ e.2) ++ "\x7d"

/-- A truth value. -/
def bool (b : Bool) : String :=
  if b then "true" else "false"

/-- A duration that may be absent. -/
def duration? : Option Duration → String
  | none => "None"
  | some d => "Some(" ++ d.text ++ ")"

/-- A declared column. -/
def column (c : ColumnInfo) : String :=
  record "ColumnMeta"
    [("name", Text.literal c.name), ("is_primary_key", bool c.primaryKey),
      ("nullable", bool c.nullable)]

/-- A schema. -/
def schema (s : Schema) : String :=
  record "Schema"
    [("table", Text.literal s.table),
      ("columns", mapping (s.columns.map fun c => (c.name, column c)))]

/-- Capabilities. -/
def capabilities (c : Capabilities) : String :=
  record "Capabilities"
    [("returning_on_insert", bool c.returningOnInsert),
      ("returning_on_update", bool c.returningOnUpdate),
      ("upsert", bool c.upsert),
      ("aggregate_filter", bool c.aggregateFilter),
      ("nulls_ordering", bool c.nullsOrdering),
      ("row_locking", bool c.rowLocking),
      ("array_params", bool c.arrayParams),
      ("vector_ops", bool c.vectorOps),
      ("window_functions", bool c.windowFunctions)]

/-- How operations are run. -/
def config (c : RunConfig) : String :=
  record "ExecConfig"
    [("query_timeout", duration? c.queryTimeout),
      ("slow_query_threshold", duration? c.slowThreshold),
      ("monitoring_enabled", bool c.monitoring)]

/-- A table. -/
def table (t : Table) : String :=
  record "Table"
    [("schema", schema t.schema), ("capabilities", capabilities t.capabilities),
      ("config", config t.config)]

/-- A parameter set whose values are written by `value`. -/
def params {β : Type} (value : β → String) (ps : Params β) : String :=
  record "Params"
    [("values", mapping (ps.entries.map fun e => (e.1, "Param(" ++ value e.2 ++ ")")))]

end CheckedSql.Inspect
