/-
Dialects and their capabilities, and the writing of statements under them. A renderer refuses a
statement at its first demand that is not met; what it writes depends on the statement alone.
-/
import CheckedSql.Draft
import CheckedSql.Error
import CheckedSql.Statement.Demand
import CheckedSql.Statement.Tokens

namespace CheckedSql

/-- The databases that are written for. -/
inductive Dialect
  | postgres | redshift
  deriving DecidableEq

/-- The name of a dialect. -/
def Dialect.name : Dialect → String
  | .postgres => "postgres"
  | .redshift => "redshift"

/-- What a database can do. -/
structure Capabilities where
  returningOnInsert : Bool := true
  returningOnUpdate : Bool := true
  upsert : Bool := true
  aggregateFilter : Bool := true
  nullsOrdering : Bool := true
  rowLocking : Bool := true
  arrayParams : Bool := true
  vectorOps : Bool := true
  windowFunctions : Bool := true
  deriving DecidableEq

/-- What a dialect can do unless told otherwise. -/
def Dialect.capabilities : Dialect → Capabilities
  | .postgres => {}
  | .redshift =>
    { returningOnInsert := false
      returningOnUpdate := false
      upsert := false
      aggregateFilter := false
      rowLocking := false
      arrayParams := false
      vectorOps := false }

/-- Whether a feature is there. -/
def Capabilities.provides (caps : Capabilities) : Feature → Bool
  | .rowLocking => caps.rowLocking
  | .onConflict => caps.upsert
  | .insertReturning => caps.returningOnInsert
  | .updateReturning => caps.returningOnUpdate
  | .nullsOrdering => caps.nullsOrdering
  | .aggregateFilter => caps.aggregateFilter
  | .windowFunctions => caps.windowFunctions
  | .vectorOperator _ => caps.vectorOps
  | .arrayParam _ => caps.arrayParams

/-- A dialect with the capabilities it is taken to have. -/
structure Renderer where
  dialect : Dialect
  capabilities : Capabilities
  deriving DecidableEq

namespace Renderer

/-- A dialect with its own capabilities. -/
def ofDialect (d : Dialect) : Renderer :=
  ⟨d, d.capabilities⟩

/-- Whether a demand is met. -/
def meets (r : Renderer) : Demand → Bool
  | .feature f => r.capabilities.provides f
  | .flaw _ => false

/-- The reason for refusing a demand. -/
def refusal (r : Renderer) : Demand → QueryError
  | .feature f => .render (f.text ++ " is not supported by " ++ r.dialect.name)
  | .flaw f => .render f.text

/-- The statement as it is sent, unless one of its demands is not met. -/
def render (r : Renderer) (s : Statement) : Except QueryError Rendered :=
  match s.demands.find? (!r.meets ·) with
  | some d => .error (r.refusal d)
  | none => .ok (Rendered.ofTokens s.tokens)

end Renderer

end CheckedSql
