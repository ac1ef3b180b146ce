/-
Events as log records. Completions are written at a chosen level, failures and slow operations as
warnings; the SQL in a record is cut to a chosen length.
-/
import CheckedSql.Monitor.Event

namespace CheckedSql

/-- How important a log record is. -/
inductive LogLevel
  | error | warn | info | debug | trace
  deriving DecidableEq

/-- The value of a field of a log record. -/
inductive LogValue
  | text (s : String)
  | count (n : Nat)
  deriving DecidableEq

/-- A log record: its level, what it concerns, and named values. -/
structure LogRecord where
  level : LogLevel
  target : String
  fields : List (String × LogValue)
  deriving DecidableEq

/-- How events are logged. -/
structure EventLogger where
  level : LogLevel := .debug
  /-- The greatest number of bytes of SQL in a record. -/
  sqlLimit : Option Nat := some 200
  deriving DecidableEq

namespace EventLogger

/-- The target of every record. -/
def target : String := "fluorm.query"

/-- SQL as it stands in a record. -/
def abridgeSql (l : EventLogger) (sql : String) : String :=
  match l.sqlLimit with
  | some limit => Text.abridge limit sql
  | none => sql

/-- The record of an event. -/
def record (l : EventLogger) : Event → LogRecord
  | .start o =>
    ⟨.trace, target,
      [("table", .text o.table), ("operation", .text o.kind.text),
        ("param_count", .count o.paramCount), ("message", .text "start")]⟩
  | .complete o elapsed outcome =>
    ⟨if outcome.isError then .warn else l.level, target,
      [("table", .text o.table), ("operation", .text o.kind.text),
        ("elapsed", .text elapsed.text), ("outcome", .text outcome.text),
        ("sql", .text (l.abridgeSql o.sql))]⟩
  | .slow o elapsed =>
    ⟨.warn, target,
      [("table", .text o.table), ("operation", .text o.kind.text),
        ("elapsed", .text elapsed.text), ("sql", .text (l.abridgeSql o.sql)),
        ("message", .text "slow query")]⟩

end EventLogger

end CheckedSql
