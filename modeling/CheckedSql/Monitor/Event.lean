/-
What monitors are told: that an operation starts, that it is complete and how, and that it was
slow. One operation is one call of an execute method, whatever the number of its statements.
-/
import CheckedSql.Duration
import CheckedSql.Text.Basic

namespace CheckedSql

/-- The kinds of operation. -/
inductive OperationKind
  | selectOne | selectMany | insert | insertBatch | update | updateBatch | delete | deleteBatch
  | aggregate | compound
  deriving DecidableEq

namespace OperationKind

/-- Every kind, in the order in which they are listed. -/
def all : List OperationKind :=
  [selectOne, selectMany, insert, insertBatch, update, updateBatch, delete, deleteBatch,
    aggregate, compound]

/-- The name of a kind. -/
def text : OperationKind → String
  | selectOne => "select_one"
  | selectMany => "select_many"
  | insert => "insert"
  | insertBatch => "insert_batch"
  | update => "update"
  | updateBatch => "update_batch"
  | delete => "delete"
  | deleteBatch => "delete_batch"
  | aggregate => "aggregate"
  | compound => "compound"

/-- The SQL verb of a kind. -/
def verb : OperationKind → String
  | update | updateBatch => "update"
  | delete | deleteBatch => "delete"
  | insert | insertBatch => "insert"
  | _ => "select"

end OperationKind

/-- What an operation is about: its table, its kind and its first statement. -/
structure OperationInfo where
  table : String
  kind : OperationKind
  sql : String
  paramCount : Nat
  deriving DecidableEq

/-- The name that errors and statistics give an operation. -/
def OperationInfo.label (o : OperationInfo) : String :=
  o.kind.text ++ " " ++ o.table

/-- How an operation ended. -/
inductive Outcome
  | rows (n : Nat)
  | affected (n : Nat)
  | error (text : String)
  deriving DecidableEq

namespace Outcome

/-- The longest error text that is reported whole, in bytes. -/
def errorLimit : Nat := 512

/-- An error, its text cut to the limit. -/
def ofError (text : String) : Outcome :=
  .error (Text.abridge errorLimit text)

/-- Whether the operation failed. -/
def isError : Outcome → Bool
  | .error _ => true
  | _ => false

/-- The outcome in words. -/
def text : Outcome → String
  | .rows n => toString n ++ " rows"
  | .affected n => toString n ++ " affected"
  | .error e => "error: " ++ e

end Outcome

/-- One message to a monitor. -/
inductive Event
  | start (operation : OperationInfo)
  | complete (operation : OperationInfo) (elapsed : Duration) (outcome : Outcome)
  | slow (operation : OperationInfo) (elapsed : Duration)
  deriving DecidableEq

/-- The operation that an event is about. -/
def Event.operation : Event → OperationInfo
  | .start o | .complete o _ _ | .slow o _ => o

end CheckedSql
