/-
A table to build queries for: its schema, the renderer of its statements, and how its operations
are run, with the time limit of each statement, the time from which an operation counts as slow, and
whether monitors hear of it.
-/
import CheckedSql.Duration
import CheckedSql.Renderer

namespace CheckedSql

/-- How operations are run. Unless told otherwise without limits, and with monitoring. -/
structure RunConfig where
  /-- How long each statement may take. -/
  queryTimeout : Option Duration := none
  /-- An operation that takes longer is reported as slow. -/
  slowThreshold : Option Duration := none
  /-- Whether monitors are told anything. -/
  monitoring : Bool := true
  deriving DecidableEq

namespace RunConfig

/-- With a time limit for each statement. -/
def withQueryTimeout (c : RunConfig) (limit : Duration) : RunConfig :=
  { c with queryTimeout := some limit }

/-- With a time beyond which an operation is slow. -/
def withSlowThreshold (c : RunConfig) (threshold : Duration) : RunConfig :=
  { c with slowThreshold := some threshold }

/-- With monitoring. -/
def enableMonitoring (c : RunConfig) : RunConfig :=
  { c with monitoring := true }

/-- Without monitoring. -/
def disableMonitoring (c : RunConfig) : RunConfig :=
  { c with monitoring := false }

end RunConfig

/-- A table with all that its queries depend on. -/
structure Table where
  schema : Schema
  renderer : Renderer
  config : RunConfig := {}

namespace Table

/-- The table of a declaration without fault. -/
def ofDeclaration (d : TableDeclaration) (r : Renderer) : Except BuildError Table := do
  let schema ← Schema.ofDeclaration d
  return { schema, renderer := r }

/-- The capabilities of the table's renderer. -/
def capabilities (t : Table) : Capabilities :=
  t.renderer.capabilities

end Table

end CheckedSql
