/-
What can go wrong: errors found while a query is built, and errors of building, writing and
executing one. Each has one display text; an error that wraps another keeps it as its source.
-/
import CheckedSql.Duration

namespace CheckedSql

/-- What a name that was not found was meant to name. -/
inductive NameKind
  | table | field | param | operator | direction | nullsOrdering | aggregate | castType | outputName
  deriving DecidableEq

/-- The kind of name in words. -/
def NameKind.text : NameKind → String
  | .table => "table"
  | .field => "field"
  | .param => "param"
  | .operator => "operator"
  | .direction => "direction"
  | .nullsOrdering => "nulls ordering"
  | .aggregate => "aggregate function"
  | .castType => "cast type"
  | .outputName => "alias"

/-- Errors found while a query is built. -/
inductive BuildError
  /-- A name or word that nothing is known under. -/
  | unresolved (kind : NameKind) (name : String)
  /-- A condition or expression that cannot be made of its parts. -/
  | invalidCondition (detail : String)
  /-- A query that lacks a part it needs. -/
  | incomplete (detail : String)
  /-- A table declaration that no schema can be made of. -/
  | invalidSchema (detail : String)
  deriving DecidableEq, Inhabited

namespace BuildError

/-- The display text. -/
def message : BuildError → String
  | .unresolved kind name => "unknown " ++ kind.text ++ " '" ++ name ++ "'"
  | .invalidCondition detail => "invalid condition: " ++ detail
  | .incomplete detail => "incomplete query: " ++ detail
  | .invalidSchema detail => "invalid schema: " ++ detail

/-- The kind and name of an unresolved name. -/
def offender? : BuildError → Option (NameKind × String)
  | .unresolved kind name => some (kind, name)
  | _ => none

end BuildError

/-- Errors of building, writing and executing a query. -/
inductive QueryError
  /-- The first error of the chain that built the query. -/
  | build (e : BuildError)
  /-- An UPDATE or DELETE that would reach every row. -/
  | missingWhere (verb : String)
  /-- A statement's parameter that no value was supplied for. -/
  | missingParam (name : String)
  /-- A statement that cannot be written, here or in this dialect. -/
  | render (detail : String)
  /-- An answer of the server that is an error. -/
  | query (detail : String)
  | uniqueViolation (detail : String)
  | foreignKeyViolation (detail : String)
  | checkViolation (detail : String)
  /-- A failure of the client, with the operation that met it. -/
  | exec (operation : String) (source : QueryError)
  /-- No row where one was required. -/
  | notFound (detail : String)
  /-- More rows than required. -/
  | tooManyRows (expected got : Nat)
  /-- A batch that stopped at an item, after so many affected rows. -/
  | batch (index affected : Nat) (source : QueryError)
  /-- A row that does not have what a record needs. -/
  | decode (column detail : String)
  /-- No answer within the time allowed. -/
  | timeout (limit : Duration)
  | other (detail : String)
  deriving DecidableEq, Inhabited

namespace QueryError

/-- The display text; a wrapper's text ends in that of its source. -/
def message : QueryError → String
  | .build e => e.message
  | .missingWhere verb => "refusing to " ++ verb ++ " without a WHERE clause"
  | .missingParam name => "missing value for parameter '" ++ name ++ "'"
  | .render detail => "render error: " ++ detail
  | .query detail => "Query error: " ++ detail
  | .uniqueViolation detail => "Unique constraint violation: " ++ detail
  | .foreignKeyViolation detail => "Foreign key violation: " ++ detail
  | .checkViolation detail => "Check constraint violation: " ++ detail
  | .exec operation source => operation ++ ": " ++ source.message
  | .notFound detail => "Not found: " ++ detail
  | .tooManyRows expected got =>
    "expected exactly " ++ toString expected ++ " row, found " ++ toString got
  | .batch index affected source =>
    "batch item " ++ toString index ++ " failed after " ++ toString affected
      ++ " rows affected: " ++ source.message
  | .decode column detail => "Decode error on column '" ++ column ++ "': " ++ detail
  | .timeout limit => "Query timeout after " ++ limit.text
  | .other detail => detail

/-- The display texts of the error's source, of that one's source, and so on. -/
def chain : QueryError → List String
  | .exec _ source | .batch _ _ source => source.message :: source.chain
  | _ => []

/-- The innermost error, seen through the wrappers of an operation and of a batch. -/
def root : QueryError → QueryError
  | .exec _ source | .batch _ _ source => source.root
  | e => e

/-- The building error at the root, if it is one. -/
def build? (e : QueryError) : Option BuildError :=
  match e.root with
  | .build b => some b
  | _ => none

/-- A violated unique constraint at the root. -/
def isUniqueViolation (e : QueryError) : Bool :=
  match e.root with
  | .uniqueViolation _ => true
  | _ => false

/-- No row where one was required, at the root. -/
def isNotFound (e : QueryError) : Bool :=
  match e.root with
  | .notFound _ => true
  | _ => false

/-- More rows than required, at the root. -/
def isTooManyRows (e : QueryError) : Bool :=
  match e.root with
  | .tooManyRows _ _ => true
  | _ => false

/-- A refused UPDATE or DELETE at the root. -/
def isMissingWhere (e : QueryError) : Bool :=
  match e.root with
  | .missingWhere _ => true
  | _ => false

/-- An exceeded time limit at the root. -/
def isTimeout (e : QueryError) : Bool :=
  match e.root with
  | .timeout _ => true
  | _ => false

/-- The error a server's answer stands for. Integrity violations have their own SQLSTATE codes and
name the constraint; of any other the text that the driver gives is kept. -/
def ofServer (code message : String) (constraint : Option String) (driverText : String) :
    QueryError :=
  let detail := constraint.getD "unknown" ++ ": " ++ message
  if code = "23505" then .uniqueViolation detail
  else if code = "23503" then .foreignKeyViolation detail
  else if code = "23514" then .checkViolation detail
  else .query driverText

end QueryError

end CheckedSql
