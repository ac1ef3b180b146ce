/-
Programs that send statements to a client and tell a monitor about it. A run yields a value or an
error together with everything that was sent and told, in order; the client is any function from
the statements sent so far to a reply.
-/
import CheckedSql.Execution.Row
import CheckedSql.Monitor.Event

namespace CheckedSql

/-- How a statement is sent: for its rows, or for the number of rows it affects. -/
inductive Mode
  | query | execute
  deriving DecidableEq

/-- A statement sent, with the values of its placeholders in order. -/
structure Sent (β : Type) where
  mode : Mode
  sql : String
  args : List β
  deriving DecidableEq

/-- What a client answers: the rows, for a statement sent for them, or the number of rows
affected. -/
structure Answer where
  rows : List Row := []
  affected : Nat := 0

/-- An answer or a failure, and how long it takes. -/
structure Reply where
  delay : Duration := ⟨0⟩
  outcome : Except QueryError Answer := .ok {}

/-- A client, and the time that operations take with it. Both may depend on the statements sent so
far, of which the last is the one to reply to. -/
structure Client (β : Type) where
  reply : List (Sent β) → Reply
  elapsed : List (Sent β) → Duration

/-- The client that gives the listed replies one after another, and then empty ones. -/
def Client.ofScript {β : Type} (replies : List Reply) (elapsed : Duration) : Client β where
  reply sent := (replies[sent.length - 1]?).getD {}
  elapsed _ := elapsed

/-- One thing that a run does. -/
inductive Action (β : Type)
  | send (s : Sent β)
  | tell (e : Event)
  deriving DecidableEq

/-- The statements among actions. -/
def sentOf {β : Type} (as : List (Action β)) : List (Sent β) :=
  as.filterMap fun
    | .send s => some s
    | .tell _ => none

/-- The events among actions. -/
def eventsOf {β : Type} (as : List (Action β)) : List Event :=
  as.filterMap fun
    | .send _ => none
    | .tell e => some e

/-- A program: with a client, and after some actions, it comes to a value or an error and to those
actions with its own after them. -/
def Run (β α : Type) : Type :=
  Client β → List (Action β) → Except QueryError α × List (Action β)

namespace Run

variable {β α γ : Type}

/-- Does nothing. -/
def pure (a : α) : Run β α :=
  fun _ as => (.ok a, as)

/-- Goes on with the value, unless there is an error. -/
def bind (x : Run β α) (f : α → Run β γ) : Run β γ :=
  fun c as =>
    match x c as with
    | (.ok a, as) => f a c as
    | (.error e, as) => (.error e, as)

instance : Monad (Run β) where
  pure := pure
  bind := bind

/-- Does nothing and comes to a given value or error. -/
def ofExcept (x : Except QueryError α) : Run β α :=
  fun _ as => (x, as)

/-- Fails. -/
def fail (e : QueryError) : Run β α :=
  ofExcept (.error e)

instance : MonadLift (Except QueryError) (Run β) where
  monadLift := ofExcept

/-- Turns an error into a value. -/
def attempt (x : Run β α) : Run β (Except QueryError α) :=
  fun c as =>
    let (r, as) := x c as
    (.ok r, as)

/-- One action. -/
def act (a : Action β) : Run β Unit :=
  fun _ as => (.ok (), as ++ [a])

/-- Sends a statement. -/
def send (s : Sent β) : Run β Reply :=
  fun c as =>
    let as := as ++ [.send s]
    (.ok (c.reply (sentOf as)), as)

/-- The time taken so far. -/
def elapsed : Run β Duration :=
  fun c as => (.ok (c.elapsed (sentOf as)), as)

/-- A run from the start: the value or error, and the actions. -/
def start (x : Run β α) (c : Client β) : Except QueryError α × List (Action β) :=
  x c []

end Run

end CheckedSql
