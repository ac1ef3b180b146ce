/-
What reaches the single monitors of a composite. Every event is handed to each of them as often as
it occurs, from left to right in the order of insertion, however deep the composites are nested;
so statistics that occur once are those of the events, and statistics that occur several times
count every event as often.
-/
import CheckedSql.Monitor.Tree
import CheckedSql.Proofs.Monitor.Stats

namespace CheckedSql

/-! ## Every event several times -/

/-- Every member of a list `k` times in succession. -/
def timesEach {α : Type} (k : Nat) (l : List α) : List α :=
  l.flatMap (List.replicate k)

section

variable {α β : Type} (k : Nat) (l : List α)

theorem timesEach_cons (a : α) : timesEach k (a :: l) = List.replicate k a ++ timesEach k l :=
  List.flatMap_cons

theorem timesEach_one : timesEach 1 l = l :=
  List.flatMap_singleton' l

theorem countP_timesEach (p : α → Bool) : (timesEach k l).countP p = k * l.countP p := by
  induction l with
  | nil => rfl
  | cons a l ih =>
    rw [timesEach_cons, List.countP_append, ih, List.countP_replicate, List.countP_cons]
    split <;> simp [Nat.mul_add, Nat.add_comm]

theorem length_timesEach : (timesEach k l).length = k * l.length := by
  rw [← List.countP_true, countP_timesEach, List.countP_true]

theorem sum_timesEach (g : α → Nat) :
    ((timesEach k l).map g).sum = k * (l.map g).sum := by
  induction l with
  | nil => rfl
  | cons a l ih =>
    rw [timesEach_cons, List.map_append, List.sum_append, ih, List.map_replicate,
      List.sum_replicate_nat, List.map_cons, List.sum_cons, Nat.mul_add]

theorem filterMap_timesEach (f : α → Option β) :
    (timesEach k l).filterMap f = timesEach k (l.filterMap f) := by
  induction l with
  | nil => rfl
  | cons a l ih =>
    rw [timesEach_cons, List.filterMap_append, ih, List.filterMap_cons]
    cases h : f a with
    | none => rw [List.filterMap_replicate_of_none h, List.nil_append]
    | some b => rw [List.filterMap_replicate_of_some h, timesEach_cons]

end

namespace Stats

/-! ## Statistics of events that are observed several times -/

/-- The statistics `s` count `k` times what `alone` counts once. -/
structure Counts (s : Stats) (k : Nat) (alone : Stats) : Prop where
  total : s.total = k * alone.total % 2 ^ 64
  failed : s.failed = k * alone.failed % 2 ^ 64
  slow : s.slow = k * alone.slow % 2 ^ 64
  rowsReturned : s.rowsReturned.toNat = k * alone.rowsReturned.toNat % 2 ^ 64
  rowsAffected : s.rowsAffected.toNat = k * alone.rowsAffected.toNat % 2 ^ 64
  completions : ∀ kind, (s.completions kind).toNat = k * (alone.completions kind).toNat % 2 ^ 64
  totalDuration : s.totalDuration.nanos = min (k * alone.totalDuration.nanos) (2 ^ 64 - 1)
  maxDuration : 0 < k → s.maxDuration = alone.maxDuration
  slowest : 0 < k → s.slowest = alone.slowest

theorem min_mul_min (k n m : Nat) : min (k * min n m) m = min (k * n) m := by
  rcases Nat.eq_zero_or_pos k with rfl | hk
  · rw [Nat.zero_mul, Nat.zero_mul]
  rcases Nat.le_total n m with h | h
  · rw [Nat.min_eq_left h]
  · have hm : m ≤ k * m := Nat.le_mul_of_pos_left m hk
    have hn : m ≤ k * n := hm.trans (Nat.mul_le_mul_left k h)
    rw [Nat.min_eq_right h, Nat.min_eq_right hm, Nat.min_eq_right hn]

/-- The longest time and what took it. -/
def longest (s : Stats) : UInt64 × Option String :=
  (s.maxNanos, s.slowest)

theorem longest_observe {s s' : Stats} (h : s.longest = s'.longest) (e : Event) :
    (s.observe e).longest = (s'.observe e).longest := by
  obtain ⟨hmax, hslowest⟩ := Prod.mk.inj h
  cases e with
  | start o => exact h
  | slow o d => exact h
  | complete o d r =>
    simp only [longest, observe, complete, hmax, hslowest]

/-- An event that is observed again takes no longer than it did before. -/
theorem longest_observe_observe (s : Stats) (e : Event) :
    ((s.observe e).observe e).longest = (s.observe e).longest := by
  cases e with
  | start o => rfl
  | slow o d => rfl
  | complete o d r =>
    have hnot : ¬(s.complete o d r).maxNanos < d.cappedNanos := by
      rw [UInt64.lt_iff_toNat_lt, toNat_maxNanos_complete, toNat_cappedNanos]
      omega
    show (if (s.complete o d r).maxNanos < d.cappedNanos then _ else _,
      if (s.complete o d r).maxNanos < d.cappedNanos then _ else _) = _
    rw [if_neg hnot, if_neg hnot]
    rfl

theorem longest_replicate (s : Stats) (k : Nat) (e : Event) :
    ((List.replicate (k + 1) e).foldl observe s).longest = (s.observe e).longest := by
  induction k generalizing s with
  | zero => rfl
  | succ k ih =>
    rw [List.replicate_succ, List.foldl_cons, ih, longest_observe_observe]

theorem longest_timesEach (k : Nat) (es : List Event) {s s' : Stats}
    (h : s.longest = s'.longest) :
    ((timesEach (k + 1) es).foldl observe s).longest = (es.foldl observe s').longest := by
  induction es generalizing s s' with
  | nil => exact h
  | cons e es ih =>
    rw [timesEach_cons, List.foldl_append, List.foldl_cons]
    exact ih ((longest_replicate s k e).trans (longest_observe h e))

theorem counts_timesEach (k : Nat) (es : List Event) :
    (ofEvents (timesEach k es)).Counts k (ofEvents es) := by
  have hcompletions : completionsOf (timesEach k es) = timesEach k (completionsOf es) :=
    filterMap_timesEach k es _
  have hlongest (hk : 0 < k) : (ofEvents (timesEach k es)).longest = (ofEvents es).longest := by
    -- no time is seen where an event is repeated zero times
    obtain ⟨n, rfl⟩ := Nat.exists_eq_succ_of_ne_zero (Nat.ne_of_gt hk)
    exact longest_timesEach n es rfl
  refine ⟨?_, ?_, ?_, ?_, ?_, fun kind => ?_, ?_, fun hk => ?_, fun hk => ?_⟩
  · rw [total_ofEvents, total_ofEvents, hcompletions, length_timesEach, Nat.mul_mod_mod]
  · rw [failed_ofEvents, failed_ofEvents, hcompletions, countP_timesEach, Nat.mul_mod_mod]
  · rw [slow_ofEvents, slow_ofEvents, countP_timesEach, Nat.mul_mod_mod]
  · rw [rowsReturned_ofEvents, rowsReturned_ofEvents, hcompletions, sum_timesEach, Nat.mul_mod_mod]
  · rw [rowsAffected_ofEvents, rowsAffected_ofEvents, hcompletions, sum_timesEach, Nat.mul_mod_mod]
  · rw [completions_ofEvents, completions_ofEvents, hcompletions, countP_timesEach,
      Nat.mul_mod_mod]
  · rw [totalDuration_ofEvents, totalDuration_ofEvents, hcompletions, sum_timesEach,
      min_mul_min]
  · exact congrArg (fun p => Duration.mk p.1.toNat) (hlongest hk)
  · exact congrArg Prod.snd (hlongest hk)

end Stats

namespace MonitorTree

variable {ι σ : Type}

/-! ## Deliveries -/

theorem leavesOf_eq_flatMap (ms : List (MonitorTree ι)) : leavesOf ms = ms.flatMap leaves := by
  induction ms with
  | nil => rfl
  | cons m ms ih => rw [leavesOf, ih, List.flatMap_cons]

mutual

/-- An event reaches every single monitor as often as it occurs, from left to right. -/
theorem deliver_eq_map (e : Event) : ∀ t : MonitorTree ι, t.deliver e = t.leaves.map (·, e)
  | leaf _ => rfl
  | shared m => deliver_eq_map e m
  | composite ms => deliverEach_eq_map e ms

theorem deliverEach_eq_map (e : Event) :
    ∀ ms : List (MonitorTree ι), deliverEach e ms = (leavesOf ms).map (·, e)
  | [] => rfl
  | m :: ms => by
    rw [deliverEach, leavesOf, List.map_append, deliver_eq_map e m, deliverEach_eq_map e ms]

end

/-- Who is handed what when events are told one after another. -/
def deliveries (t : MonitorTree ι) (es : List Event) : List (ι × Event) :=
  es.flatMap t.deliver

/-- A composite to which monitors are added one after another. -/
def ofMembers (ms : List (MonitorTree ι)) : MonitorTree ι :=
  ms.foldl add default

/-- Members stay in the order in which they are added. -/
theorem leaves_ofMembers (ms : List (MonitorTree ι)) :
    (ofMembers ms).leaves = ms.flatMap leaves := by
  have hadd (t m : MonitorTree ι) : (t.add m).leaves = t.leaves ++ m.leaves := by
    have hmembers : t.members.flatMap leaves = t.leaves := by
      cases t with
      | leaf id => exact List.flatMap_singleton _ _
      | shared m => exact List.flatMap_singleton _ _
      | composite ms => exact (leavesOf_eq_flatMap ms).symm
    rw [add, leaves, leavesOf_eq_flatMap, List.flatMap_append, hmembers, List.flatMap_singleton,
      leaves]
  have hfold (t : MonitorTree ι) : (ms.foldl add t).leaves = t.leaves ++ ms.flatMap leaves := by
    induction ms generalizing t with
    | nil => exact (List.append_nil _).symm
    | cons m ms ih => rw [List.foldl_cons, ih, hadd, List.flatMap_cons, List.append_assoc]
  exact hfold default

/-! ## The state of a single monitor -/

section

variable [DecidableEq ι] (observe : σ → Event → σ)

/-- The states of the single monitors after events told one after another. -/
def observeAll (t : MonitorTree ι) (states : ι → σ) (es : List Event) : ι → σ :=
  es.foldl (t.observe observe) states

/-- A single monitor makes of deliveries what it makes of its own ones. -/
theorem foldl_step (ds : List (ι × Event)) (states : ι → σ) (id : ι) :
    ds.foldl (step observe) states id =
      ((ds.filter (·.1 = id)).map (·.2)).foldl observe (states id) := by
  induction ds generalizing states with
  | nil => rfl
  | cons d ds ih =>
    rw [List.foldl_cons, ih]
    by_cases h : d.1 = id
    · simp [step, h]
    · simp [step, h, Ne.symm h]

theorem observe_eq (t : MonitorTree ι) (states : ι → σ) (e : Event) (id : ι) :
    t.observe observe states e id =
      (List.replicate (t.leaves.count id) e).foldl observe (states id) := by
  have hown : ((t.leaves.map (·, e)).filter (·.1 = id)).map (·.2) =
      List.replicate (t.leaves.count id) e := by
    have hcount : (t.leaves.filter (· = id)).length = t.leaves.count id :=
      List.countP_eq_length_filter.symm
    rw [List.filter_map, List.map_map, ← hcount]
    exact List.map_const'
  rw [MonitorTree.observe, deliver_eq_map, foldl_step, hown]

/-- What a single monitor makes of the events, each of them as often as the monitor occurs. -/
theorem observeAll_eq (t : MonitorTree ι) (es : List Event) (states : ι → σ) (id : ι) :
    t.observeAll observe states es id =
      (timesEach (t.leaves.count id) es).foldl observe (states id) := by
  induction es generalizing states with
  | nil => rfl
  | cons e es ih =>
    have hstep : t.observeAll observe states (e :: es) =
        t.observeAll observe (t.observe observe states e) es := rfl
    rw [hstep, ih, observe_eq, timesEach_cons, List.foldl_append]

end

/-- Events told to a composite are handed on one after another, each to every single monitor as
often as it occurs among the members, from left to right in the order in which they were added and
at whatever depth, and as it was told. So a single monitor comes to what it makes of the events,
each repeated as often as the monitor occurs: statistics that occur once are those of the events,
and statistics that occur `k` times count everything `k` times. -/
theorem delivered_in_order [DecidableEq ι] (ms : List (MonitorTree ι)) (es : List Event) :
    let t := ofMembers ms
    let occurring := ms.flatMap leaves
    t.deliveries es = es.flatMap (fun e => occurring.map fun id => (id, e)) ∧
      (∀ (σ : Type) (observe : σ → Event → σ) (states : ι → σ) (id : ι),
        t.observeAll observe states es id =
          (timesEach (occurring.count id) es).foldl observe (states id)) ∧
      ∀ (states : ι → Stats) (id : ι), states id = {} →
        let s := t.observeAll Stats.observe states es id
        (occurring.count id = 1 → s = Stats.ofEvents es) ∧
          s.Counts (occurring.count id) (Stats.ofEvents es) := by
  intro t occurring
  have hleaves : t.leaves = occurring := leaves_ofMembers ms
  -- each occurrence of a monitor hears every event, so k of them are k deliveries of each
  have hstate (σ : Type) (observe : σ → Event → σ) (states : ι → σ) (id : ι) :
      t.observeAll observe states es id =
        (timesEach (occurring.count id) es).foldl observe (states id) :=
    hleaves ▸ observeAll_eq observe t es states id
  refine ⟨?_, hstate, fun states id hempty => ?_⟩
  · rw [deliveries, ← hleaves]
    exact List.flatMap_congr fun e _ => deliver_eq_map e t
  · intro s
    have hs : s = Stats.ofEvents (timesEach (occurring.count id) es) := by
      rw [Stats.ofEvents, ← hempty]
      exact hstate Stats Stats.observe states id
    refine ⟨fun hone => ?_, ?_⟩
    · rw [hs, hone, timesEach_one]
    · rw [hs]
      exact Stats.counts_timesEach _ es

/-- One meter directly and inside a nested composite, next to another that occurs once. -/
theorem delivered_in_order_shared :
    let nested : MonitorTree String := ofMembers [.leaf "once", .shared (.leaf "twice")]
    let members : List (MonitorTree String) := [.leaf "twice", nested, .composite []]
    let o : OperationInfo := ⟨"users", .update, "UPDATE \"users\" SET \"age\" = $1", 1⟩
    let es : List Event := [.start o, .complete o ⟨5⟩ (.affected 3)]
    let t := ofMembers members
    let states := t.observeAll Stats.observe (fun _ => {}) es
    (t.deliveries es).map (·.1) = ["twice", "once", "twice", "twice", "once", "twice"] ∧
      states "once" = Stats.ofEvents es ∧ (states "twice").total = 2 ∧
      (states "twice").rowsAffected.toNat = 6 ∧ (states "twice").totalDuration.nanos = 10 ∧
      (states "twice").maxDuration = ⟨5⟩ := by
  intro nested members o es t states
  obtain ⟨hdeliveries, -, hstats⟩ := delivered_in_order members es
  obtain ⟨honce, -⟩ := hstats (fun _ => {}) "once" rfl
  obtain ⟨-, htwice⟩ := hstats (fun _ => {}) "twice" rfl
  refine ⟨?_, honce (by decide), htwice.total, htwice.rowsAffected, htwice.totalDuration,
    htwice.maxDuration (by decide)⟩
  rw [hdeliveries]
  decide

end MonitorTree

end CheckedSql
