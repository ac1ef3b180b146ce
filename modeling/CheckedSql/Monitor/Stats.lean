/-
Running statistics over the events of a monitor. The counters are 64-bit numbers: those of
operations and rows wrap around, those of times stay at the largest number once they reach it.
-/
import CheckedSql.Monitor.Event

namespace CheckedSql

/-- The largest time that is kept, in nanoseconds. -/
def nanosCap : UInt64 :=
  .ofNat (UInt64.size - 1)

/-- A duration in nanoseconds, capped. -/
def Duration.cappedNanos (d : Duration) : UInt64 :=
  .ofNatClamp d.nanos

/-- What has been observed so far. -/
structure Stats where
  completed : UInt64 := 0
  failures : UInt64 := 0
  slowed : UInt64 := 0
  rowsReturned : UInt64 := 0
  rowsAffected : UInt64 := 0
  totalNanos : UInt64 := 0
  maxNanos : UInt64 := 0
  /-- The operation that first took the longest time so far, if that is not zero. -/
  slowest : Option String := none
  /-- Completions of each kind. -/
  completions : OperationKind → UInt64 := fun _ => 0

namespace Stats

/-- One more time in a total. The sum wraps around; where it does, the largest time is stored in
its place. -/
def addNanos (total nanos : UInt64) : UInt64 :=
  if UInt64.size ≤ total.toNat + nanos.toNat then nanosCap else total + nanos

/-- Counts a completion. -/
def complete (s : Stats) (o : OperationInfo) (elapsed : Duration) (outcome : Outcome) : Stats :=
  let nanos := elapsed.cappedNanos
  { s with
    completed := s.completed + 1
    failures := if outcome.isError then s.failures + 1 else s.failures
    rowsReturned :=
      match outcome with
      | .rows n => s.rowsReturned + UInt64.ofNat n
      | _ => s.rowsReturned
    rowsAffected :=
      match outcome with
      | .affected n => s.rowsAffected + UInt64.ofNat n
      | _ => s.rowsAffected
    totalNanos := addNanos s.totalNanos nanos
    maxNanos := if s.maxNanos < nanos then nanos else s.maxNanos
    slowest := if s.maxNanos < nanos then some o.label else s.slowest
    completions := fun k => if k = o.kind then s.completions k + 1 else s.completions k }

/-- Takes note of an event. -/
def observe (s : Stats) : Event → Stats
  | .start _ => s
  | .complete o elapsed outcome => s.complete o elapsed outcome
  | .slow _ _ => { s with slowed := s.slowed + 1 }

/-- Forgets all that has been observed. -/
def reset (_ : Stats) : Stats :=
  {}

/-- The statistics of a sequence of events. -/
def ofEvents (es : List Event) : Stats :=
  es.foldl observe {}

/-- The completed operations. -/
def total (s : Stats) : Nat :=
  s.completed.toNat

/-- The operations that failed. -/
def failed (s : Stats) : Nat :=
  s.failures.toNat

/-- The operations that were slow. -/
def slow (s : Stats) : Nat :=
  s.slowed.toNat

/-- The kinds with a completion, in order, each with its number of completions. -/
def byKind (s : Stats) : List (OperationKind × Nat) :=
  (OperationKind.all.map fun k => (k, (s.completions k).toNat)).filter (0 < ·.2)

/-- The completions of a kind. -/
def count (s : Stats) (k : OperationKind) : Nat :=
  ((s.byKind.find? (·.1 = k)).map (·.2)).getD 0

/-- The time spent in all operations. -/
def totalDuration (s : Stats) : Duration :=
  ⟨s.totalNanos.toNat⟩

/-- The longest time spent in one operation. -/
def maxDuration (s : Stats) : Duration :=
  ⟨s.maxNanos.toNat⟩

end Stats

end CheckedSql
