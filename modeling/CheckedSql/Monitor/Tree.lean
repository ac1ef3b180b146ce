/-
Monitors put together: a composite hands every event to its members, in the order in which they
were added, and members may be composites themselves. Members are shared, and whatever is shared
hands on all it is told. Single monitors are known by an identity; one that occurs at several
places is handed an event at each of them.
-/
import CheckedSql.Monitor.Event

namespace CheckedSql

/-- A monitor made of single monitors. -/
inductive MonitorTree (ι : Type)
  | leaf (id : ι)
  | shared (monitor : MonitorTree ι)
  | composite (members : List (MonitorTree ι))

instance {ι : Type} : Inhabited (MonitorTree ι) := ⟨.composite []⟩

namespace MonitorTree

variable {ι σ : Type}

/-- The direct members. -/
def members : MonitorTree ι → List (MonitorTree ι)
  | composite ms => ms
  | t => [t]

/-- A composite with one more member at its end. -/
def add (t m : MonitorTree ι) : MonitorTree ι :=
  composite (t.members ++ [shared m])

mutual

/-- The single monitors, from left to right, each as often as it occurs. -/
def leaves : MonitorTree ι → List ι
  | leaf id => [id]
  | shared m => leaves m
  | composite ms => leavesOf ms

/-- The single monitors of a list, from left to right. -/
def leavesOf : List (MonitorTree ι) → List ι
  | [] => []
  | m :: ms => leaves m ++ leavesOf ms

end

mutual

/-- Who is handed an event, in order. -/
def deliver (e : Event) : MonitorTree ι → List (ι × Event)
  | leaf id => [(id, e)]
  | shared m => deliver e m
  | composite ms => deliverEach e ms

/-- Who of a list of monitors is handed an event, in order. -/
def deliverEach (e : Event) : List (MonitorTree ι) → List (ι × Event)
  | [] => []
  | m :: ms => deliver e m ++ deliverEach e ms

end

/-- The states of the single monitors after an event has been delivered to one of them. -/
def step [DecidableEq ι] (observe : σ → Event → σ) (states : ι → σ) (d : ι × Event) : ι → σ :=
  fun id => if id = d.1 then observe (states id) d.2 else states id

/-- The states of the single monitors after an event. -/
def observe [DecidableEq ι] (observe : σ → Event → σ) (t : MonitorTree ι) (states : ι → σ)
    (e : Event) : ι → σ :=
  (t.deliver e).foldl (step observe) states

end MonitorTree

end CheckedSql
