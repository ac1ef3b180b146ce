/-
What the statistics of a monitor tell after any sequence of events and resets. They are those of
the events since the last reset: counts and rows modulo 2^64, a total of times that stops at the
largest number instead of wrapping around, the longest time, and the operation that first took it.

A counter is a sum of what each event adds to it, so one lemma serves all six of them; the times
are followed event by event, from the last one backwards.
-/
import CheckedSql.Monitor.Stats
import Mathlib.Algebra.BigOperators.Group.List.Basic
import Mathlib.Algebra.Ring.Nat
import Mathlib.Data.List.DropRight

namespace CheckedSql

/-! ## Completions -/

/-- A completed operation, as monitors are told of it. -/
structure Completion where
  operation : OperationInfo
  elapsed : Duration
  outcome : Outcome

namespace Completion

/-- The time it took in nanoseconds, or the largest 64-bit number. -/
def nanos (c : Completion) : Nat :=
  min c.elapsed.nanos (2 ^ 64 - 1)

/-- The rows it returned. -/
def rows (c : Completion) : Nat :=
  match c.outcome with
  | .rows n => n
  | _ => 0

/-- The rows it affected. -/
def affected (c : Completion) : Nat :=
  match c.outcome with
  | .affected n => n
  | _ => 0

end Completion

namespace Event

/-- The completion that an event reports. -/
def completion? : Event → Option Completion
  | .complete o elapsed outcome => some ⟨o, elapsed, outcome⟩
  | .start _ | .slow _ _ => none

/-- Whether an event reports a slow operation. -/
def isSlow : Event → Bool
  | .slow _ _ => true
  | _ => false

end Event

/-- The completions among a sequence of events. -/
def completionsOf (es : List Event) : List Completion :=
  es.filterMap Event.completion?

section

variable (es : List Event) (o : OperationInfo) (d : Duration) (r : Outcome)

@[simp]
theorem completionsOf_start : completionsOf (es ++ [.start o]) = completionsOf es := by
  simp [completionsOf, Event.completion?]

@[simp]
theorem completionsOf_slow : completionsOf (es ++ [.slow o d]) = completionsOf es := by
  simp [completionsOf, Event.completion?]

@[simp]
theorem completionsOf_complete :
    completionsOf (es ++ [.complete o d r]) = completionsOf es ++ [⟨o, d, r⟩] := by
  simp [completionsOf, Event.completion?]

end

theorem length_completionsOf_le (es : List Event) : (completionsOf es).length ≤ es.length :=
  List.length_filterMap_le _ es

/-! ## Sums and greatest members of lists -/

theorem sum_map_ite {α : Type} (p : α → Bool) (l : List α) :
    (l.map fun a => if p a then 1 else 0).sum = l.countP p := by
  induction l with
  | nil => rfl
  | cons a l ih => rw [List.map_cons, List.sum_cons, ih, List.countP_cons, Nat.add_comm]

theorem sum_filter_pos {α : Type} (l : List (α × Nat)) :
    ((l.filter (0 < ·.2)).map (·.2)).sum = (l.map (·.2)).sum := by
  induction l with
  | nil => rfl
  | cons a l ih =>
    rcases Nat.eq_zero_or_pos a.2 with h | h
    · simp [h, ih]
    · simp [h, ih]

theorem max?_getD_concat (l : List Nat) (n : Nat) :
    (l ++ [n]).max?.getD 0 = max (l.max?.getD 0) n := by
  cases l with
  | nil => simp
  | cons a l => simp [List.max?, List.foldl_append]

theorem exists_mem_of_max?_getD {l : List Nat} (h : l.max?.getD 0 ≠ 0) : l.max?.getD 0 ∈ l := by
  cases hm : l.max? with
  | none => rw [hm] at h; exact absurd rfl h
  | some m => exact List.max?_mem hm

namespace Stats

@[simp]
theorem ofEvents_concat (es : List Event) (e : Event) :
    ofEvents (es ++ [e]) = (ofEvents es).observe e := by
  simp [ofEvents]

/-! ## Counters -/

/-- A counter to which every event adds an amount holds the sum of the amounts, modulo 2^64. -/
theorem toNat_counter {f : Stats → UInt64} {amount : Event → Nat} (hempty : f {} = 0)
    (hstep : ∀ s e, f (s.observe e) = f s + .ofNat (amount e)) (es : List Event) :
    (f (ofEvents es)).toNat = (es.map amount).sum % 2 ^ 64 := by
  induction es using List.reverseRecOn with
  | nil => exact congrArg UInt64.toNat hempty
  | append_singleton es e ih =>
    rw [ofEvents_concat, hstep, UInt64.toNat_add, UInt64.toNat_ofNat', ih, ← Nat.add_mod,
      List.map_append, List.sum_append, List.map_singleton, List.sum_singleton]

/-- Amounts of the completions, one for each event. -/
theorem sum_completions (g : Completion → Nat) (es : List Event) :
    (es.map fun e => (e.completion?.map g).getD 0).sum = ((completionsOf es).map g).sum := by
  induction es using List.reverseRecOn with
  | nil => rfl
  | append_singleton es e ih =>
    rw [List.map_append, List.sum_append, ih, List.map_singleton, List.sum_singleton]
    cases e with
    | start o => rw [completionsOf_start]; rfl
    | slow o d => rw [completionsOf_slow]; rfl
    | complete o d r =>
      rw [completionsOf_complete, List.map_append, List.sum_append, List.map_singleton,
        List.sum_singleton]
      rfl

/-- A counter to which only completions add. -/
theorem toNat_counter_completions {f : Stats → UInt64} {g : Completion → Nat} (hempty : f {} = 0)
    (hstart : ∀ s o, f (s.observe (.start o)) = f s)
    (hslow : ∀ s o d, f (s.observe (.slow o d)) = f s)
    (hcomplete : ∀ s o d r, f (s.observe (.complete o d r)) = f s + .ofNat (g ⟨o, d, r⟩))
    (es : List Event) : (f (ofEvents es)).toNat = ((completionsOf es).map g).sum % 2 ^ 64 := by
  rw [← sum_completions g es]
  refine toNat_counter hempty (fun s e => ?_) es
  cases e with
  | start o => exact (hstart s o).trans (UInt64.add_zero (f s)).symm
  | complete o d r => exact hcomplete s o d r
  | slow o d => exact (hslow s o d).trans (UInt64.add_zero (f s)).symm

variable (es : List Event)

theorem total_ofEvents : (ofEvents es).total = (completionsOf es).length % 2 ^ 64 := by
  have h := toNat_counter_completions (f := completed) (g := fun _ => 1) rfl (fun _ _ => rfl)
    (fun _ _ _ => rfl) (fun _ _ _ _ => rfl) es
  rw [total, h, List.map_const', List.sum_replicate_nat, Nat.mul_one]

theorem failed_ofEvents :
    (ofEvents es).failed = (completionsOf es).countP (·.outcome.isError) % 2 ^ 64 := by
  rw [failed, ← sum_map_ite]
  refine toNat_counter_completions rfl (fun _ _ => rfl) (fun _ _ _ => rfl) (fun s o d r => ?_) es
  cases r <;> simp [observe, complete, Outcome.isError]

theorem slow_ofEvents : (ofEvents es).slow = es.countP (·.isSlow) % 2 ^ 64 := by
  rw [slow, ← sum_map_ite]
  refine toNat_counter rfl (fun s e => ?_) es
  cases e <;> simp [observe, complete, Event.isSlow]

theorem rowsReturned_ofEvents :
    (ofEvents es).rowsReturned.toNat = ((completionsOf es).map (·.rows)).sum % 2 ^ 64 := by
  refine toNat_counter_completions rfl (fun _ _ => rfl) (fun _ _ _ => rfl) (fun s o d r => ?_) es
  cases r <;> simp [observe, complete, Completion.rows]

theorem rowsAffected_ofEvents :
    (ofEvents es).rowsAffected.toNat = ((completionsOf es).map (·.affected)).sum % 2 ^ 64 := by
  refine toNat_counter_completions rfl (fun _ _ => rfl) (fun _ _ _ => rfl) (fun s o d r => ?_) es
  cases r <;> simp [observe, complete, Completion.affected]

theorem completions_ofEvents (k : OperationKind) :
    ((ofEvents es).completions k).toNat =
      (completionsOf es).countP (·.operation.kind = k) % 2 ^ 64 := by
  rw [← sum_map_ite]
  refine toNat_counter_completions (f := (·.completions k)) rfl (fun _ _ => rfl) (fun _ _ _ => rfl)
    (fun s o d r => ?_) es
  by_cases h : k = o.kind
  · simp [observe, complete, h]
  · simp [observe, complete, h, Ne.symm h]

/-! ## Times -/

theorem toNat_cappedNanos (d : Duration) : d.cappedNanos.toNat = min d.nanos (2 ^ 64 - 1) := by
  rw [Duration.cappedNanos]
  rcases Nat.lt_or_ge d.nanos UInt64.size with h | h
  · rw [UInt64.toNat_ofNatClamp_of_lt h]
    exact (Nat.min_eq_left (Nat.le_pred_of_lt h)).symm
  · rw [UInt64.toNat_ofNatClamp_of_le h]
    exact (Nat.min_eq_right (Nat.le_trans (Nat.sub_le _ 1) h)).symm

/-- A total of times stops at the largest number where the sum of two wraps around. -/
theorem toNat_addNanos (a b : UInt64) :
    (addNanos a b).toNat = min (a.toNat + b.toNat) (2 ^ 64 - 1) := by
  unfold addNanos
  split
  case isTrue h => exact (Nat.min_eq_right (Nat.le_trans (Nat.sub_le _ 1) h)).symm
  case isFalse h =>
    have hlt : a.toNat + b.toNat < 2 ^ 64 := Nat.lt_of_not_le h
    rw [UInt64.toNat_add, Nat.mod_eq_of_lt hlt]
    exact (Nat.min_eq_left (Nat.le_pred_of_lt hlt)).symm

theorem toNat_totalNanos_complete (s : Stats) (o : OperationInfo) (d : Duration) (r : Outcome) :
    (s.complete o d r).totalNanos.toNat =
      min (s.totalNanos.toNat + min d.nanos (2 ^ 64 - 1)) (2 ^ 64 - 1) := by
  show (addNanos s.totalNanos d.cappedNanos).toNat = _
  rw [toNat_addNanos, toNat_cappedNanos]

theorem le_totalNanos_observe (s : Stats) (e : Event) :
    s.totalNanos.toNat ≤ (s.observe e).totalNanos.toNat := by
  cases e with
  | start o => exact le_rfl
  | slow o d => exact le_rfl
  | complete o d r =>
    show _ ≤ (s.complete o d r).totalNanos.toNat
    rw [toNat_totalNanos_complete]
    exact le_min (Nat.le_add_right _ _) (Nat.le_pred_of_lt s.totalNanos.toNat_lt_size)

/-- The total of times never becomes smaller, whatever is observed. -/
theorem le_totalNanos_foldl (s : Stats) :
    s.totalNanos.toNat ≤ (es.foldl observe s).totalNanos.toNat := by
  induction es generalizing s with
  | nil => exact le_rfl
  | cons e es ih => exact (le_totalNanos_observe s e).trans (ih _)

theorem toNat_maxNanos_complete (s : Stats) (o : OperationInfo) (d : Duration) (r : Outcome) :
    (s.complete o d r).maxNanos.toNat = max s.maxNanos.toNat (min d.nanos (2 ^ 64 - 1)) := by
  show (if s.maxNanos < d.cappedNanos then d.cappedNanos else s.maxNanos).toNat = _
  rw [← toNat_cappedNanos]
  split
  case isTrue h => exact (Nat.max_eq_right (Nat.le_of_lt (UInt64.lt_iff_toNat_lt.1 h))).symm
  case isFalse h => exact (Nat.max_eq_left (Nat.le_of_not_lt (h ∘ UInt64.lt_iff_toNat_lt.2))).symm

theorem totalDuration_ofEvents :
    (ofEvents es).totalDuration.nanos =
      min ((completionsOf es).map (·.nanos)).sum (2 ^ 64 - 1) := by
  induction es using List.reverseRecOn with
  | nil => rfl
  | append_singleton es e ih =>
    rw [ofEvents_concat]
    cases e with
    | start o => rw [completionsOf_start]; exact ih
    | slow o d => rw [completionsOf_slow]; exact ih
    | complete o d r =>
      have htotal : (ofEvents es).totalNanos.toNat = _ := ih
      show ((ofEvents es).complete o d r).totalNanos.toNat = _
      rw [toNat_totalNanos_complete, htotal, completionsOf_complete, List.map_append,
        List.sum_append, List.map_singleton, List.sum_singleton]
      -- the cap of the sum absorbs the cap of what was summed before
      show _ = min (_ + min d.nanos (2 ^ 64 - 1)) (2 ^ 64 - 1)
      omega

theorem maxDuration_ofEvents :
    (ofEvents es).maxDuration.nanos = ((completionsOf es).map (·.nanos)).max?.getD 0 := by
  induction es using List.reverseRecOn with
  | nil => rfl
  | append_singleton es e ih =>
    rw [ofEvents_concat]
    cases e with
    | start o => rw [completionsOf_start]; exact ih
    | slow o d => rw [completionsOf_slow]; exact ih
    | complete o d r =>
      have hmax : (ofEvents es).maxNanos.toNat = _ := ih
      show ((ofEvents es).complete o d r).maxNanos.toNat = _
      rw [toNat_maxNanos_complete, hmax, completionsOf_complete, List.map_append,
        List.map_singleton, max?_getD_concat, Completion.nanos]

theorem nanos_le_maxDuration {c : Completion} (h : c ∈ completionsOf es) :
    c.nanos ≤ (ofEvents es).maxDuration.nanos := by
  rw [maxDuration_ofEvents]
  exact List.le_max?_getD_of_mem (List.mem_map_of_mem h)

/-- The longest time is that of a completion, unless it is zero. -/
theorem exists_nanos_eq_maxDuration (h : (ofEvents es).maxDuration.nanos ≠ 0) :
    ∃ c ∈ completionsOf es, c.nanos = (ofEvents es).maxDuration.nanos := by
  rw [maxDuration_ofEvents] at h ⊢
  exact List.mem_map.1 (exists_mem_of_max?_getD h)

/-- The first completion of those that took the longest time, if that is not zero. -/
def firstLongest (es : List Event) : Option Completion :=
  if (ofEvents es).maxDuration.nanos = 0 then none
  else (completionsOf es).find? (·.nanos = (ofEvents es).maxDuration.nanos)

/-- A completion that took longer than all before it is the first that took the longest time. -/
theorem firstLongest_longer {o : OperationInfo} {d : Duration} {r : Outcome}
    (h : (ofEvents es).maxDuration.nanos < min d.nanos (2 ^ 64 - 1)) :
    firstLongest (es ++ [.complete o d r]) = some ⟨o, d, r⟩ := by
  have hmax : (ofEvents (es ++ [.complete o d r])).maxDuration.nanos =
      min d.nanos (2 ^ 64 - 1) := by
    rw [ofEvents_concat]
    exact (toNat_maxNanos_complete _ o d r).trans (Nat.max_eq_right (Nat.le_of_lt h))
  -- nothing before took that long, so the search comes to the last completion
  have hbefore : (completionsOf es).find? (·.nanos = min d.nanos (2 ^ 64 - 1)) = none := by
    refine List.find?_eq_none.2 fun c hc he => ?_
    have hle := nanos_le_maxDuration es hc
    have heq : c.nanos = min d.nanos (2 ^ 64 - 1) := of_decide_eq_true he
    omega
  have hpos : min d.nanos (2 ^ 64 - 1) ≠ 0 := Nat.ne_of_gt (Nat.lt_of_le_of_lt (Nat.zero_le _) h)
  rw [firstLongest, hmax, if_neg hpos, completionsOf_complete, List.find?_append, hbefore]
  simp [Completion.nanos]

/-- One that took no longer leaves the first as it is. -/
theorem firstLongest_shorter {o : OperationInfo} {d : Duration} {r : Outcome}
    (h : min d.nanos (2 ^ 64 - 1) ≤ (ofEvents es).maxDuration.nanos) :
    firstLongest (es ++ [.complete o d r]) = firstLongest es := by
  have hmax : (ofEvents (es ++ [.complete o d r])).maxDuration.nanos =
      (ofEvents es).maxDuration.nanos := by
    rw [ofEvents_concat]
    exact (toNat_maxNanos_complete _ o d r).trans (Nat.max_eq_left h)
  rw [firstLongest, firstLongest, hmax]
  split
  case isTrue => rfl
  case isFalse hpos =>
    -- the search ends before the last completion, whether or not that one took as long
    obtain ⟨c, hc, he⟩ := exists_nanos_eq_maxDuration es hpos
    have hfound : ((completionsOf es).find?
        (·.nanos = (ofEvents es).maxDuration.nanos)).isSome = true :=
      List.find?_isSome.2 ⟨c, hc, decide_eq_true he⟩
    rw [completionsOf_complete, List.find?_append, Option.or_of_isSome hfound]

theorem slowest_ofEvents : (ofEvents es).slowest = (firstLongest es).map (·.operation.label) := by
  induction es using List.reverseRecOn with
  | nil => rfl
  | append_singleton es e ih =>
    cases e with
    | start o =>
      rw [firstLongest, completionsOf_start, ofEvents_concat]
      exact ih
    | slow o d =>
      rw [firstLongest, completionsOf_slow, ofEvents_concat]
      exact ih
    | complete o d r =>
      have hlt : (ofEvents es).maxNanos < d.cappedNanos ↔
          (ofEvents es).maxDuration.nanos < min d.nanos (2 ^ 64 - 1) := by
        rw [UInt64.lt_iff_toNat_lt, toNat_cappedNanos]; rfl
      rw [ofEvents_concat]
      show (if (ofEvents es).maxNanos < d.cappedNanos then some o.label
        else (ofEvents es).slowest) = _
      split
      case isTrue h => rw [firstLongest_longer es (hlt.1 h)]; rfl
      case isFalse h => rw [firstLongest_shorter es (Nat.le_of_not_lt (h ∘ hlt.2)), ih]

/-! ## Kinds -/

/-- Every completion is of exactly one of the kinds. -/
theorem sum_countP_kinds (cs : List Completion) :
    (OperationKind.all.map fun k => cs.countP (·.operation.kind = k)).sum = cs.length := by
  induction cs with
  | nil => rfl
  | cons c cs ih =>
    have hone : (OperationKind.all.map fun k => if c.operation.kind = k then 1 else 0).sum = 1 := by
      cases c.operation.kind <;> rfl
    simp only [List.countP_cons, decide_eq_true_eq, List.sum_map_add]
    rw [ih, hone, List.length_cons]

theorem sum_completions_mod :
    (OperationKind.all.map fun k => ((ofEvents es).completions k).toNat).sum % 2 ^ 64 =
      (ofEvents es).total := by
  have hmod : (OperationKind.all.map fun k => ((ofEvents es).completions k).toNat) =
      (OperationKind.all.map fun k => (completionsOf es).countP (·.operation.kind = k)).map
        (· % 2 ^ 64) := by
    rw [List.map_map]
    exact List.map_congr_left fun k _ => completions_ofEvents es k
  rw [hmod, ← List.sum_nat_mod, sum_countP_kinds, total_ofEvents]

/-! ## What the statistics tell -/

/-- The statistics of a sequence of events, where `keep n` is what is kept of a count `n`. -/
structure Tells (s : Stats) (keep : Nat → Nat) (es : List Event) : Prop where
  total : s.total = keep (completionsOf es).length
  failed : s.failed = keep ((completionsOf es).countP (·.outcome.isError))
  slow : s.slow = keep (es.countP (·.isSlow))
  rowsReturned : s.rowsReturned.toNat = ((completionsOf es).map (·.rows)).sum % 2 ^ 64
  rowsAffected : s.rowsAffected.toNat = ((completionsOf es).map (·.affected)).sum % 2 ^ 64
  totalDuration :
    s.totalDuration.nanos = min ((completionsOf es).map (·.nanos)).sum (2 ^ 64 - 1)
  maxDuration : s.maxDuration.nanos = ((completionsOf es).map (·.nanos)).max?.getD 0
  slowest : s.slowest =
    if s.maxDuration.nanos = 0 then none
    else ((completionsOf es).find? (·.nanos = s.maxDuration.nanos)).map (·.operation.label)
  byKind : s.byKind =
    (OperationKind.all.map fun k =>
      (k, keep ((completionsOf es).countP (·.operation.kind = k)))).filter (0 < ·.2)
  sum_byKind : keep (s.byKind.map (·.2)).sum = s.total

theorem tells_ofEvents : (ofEvents es).Tells (· % 2 ^ 64) es where
  total := total_ofEvents es
  failed := failed_ofEvents es
  slow := slow_ofEvents es
  rowsReturned := rowsReturned_ofEvents es
  rowsAffected := rowsAffected_ofEvents es
  totalDuration := totalDuration_ofEvents es
  maxDuration := maxDuration_ofEvents es
  slowest := by
    rw [slowest_ofEvents, firstLongest]
    split <;> rfl
  byKind := by
    simp only [byKind, completions_ofEvents]
  sum_byKind := by
    rw [byKind, sum_filter_pos, List.map_map]
    exact sum_completions_mod es

/-- Counts of fewer than 2^64 events are exact. -/
theorem Tells.exact {s : Stats} {es : List Event} (h : s.Tells (· % 2 ^ 64) es)
    (hlt : es.length < 2 ^ 64) : s.Tells id es := by
  have hcompletions : (completionsOf es).length < 2 ^ 64 :=
    (length_completionsOf_le es).trans_lt hlt
  have hcount (p : Completion → Bool) : (completionsOf es).countP p % 2 ^ 64 =
      (completionsOf es).countP p :=
    Nat.mod_eq_of_lt (List.countP_le_length.trans_lt hcompletions)
  have hkinds : s.byKind = (OperationKind.all.map fun k =>
      (k, (completionsOf es).countP (·.operation.kind = k))).filter (0 < ·.2) := by
    rw [h.byKind]
    simp only [hcount]
  refine { h with
    total := h.total.trans (Nat.mod_eq_of_lt hcompletions)
    failed := h.failed.trans (hcount _)
    slow := h.slow.trans (Nat.mod_eq_of_lt (List.countP_le_length.trans_lt hlt))
    byKind := hkinds
    sum_byKind := ?_ }
  have hsum : (s.byKind.map (·.2)).sum = (completionsOf es).length := by
    rw [hkinds, sum_filter_pos, List.map_map]
    exact sum_countP_kinds _
  rw [id, hsum, h.total, Nat.mod_eq_of_lt hcompletions]

/-! ## Resets -/

/-- What is done with the statistics: an event is observed, or all is forgotten. -/
inductive Call
  | event (e : Event)
  | reset

namespace Call

/-- The statistics after a call. -/
def apply (s : Stats) : Call → Stats
  | event e => s.observe e
  | reset => s.reset

/-- The event that a call hands over. -/
def event? : Call → Option Event
  | event e => some e
  | reset => none

end Call

/-- The statistics after calls one after another. -/
def ofCalls (calls : List Call) : Stats :=
  calls.foldl Call.apply {}

/-- The events after the last reset. -/
def sinceReset (calls : List Call) : List Event :=
  (calls.rtakeWhile (·.event?.isSome)).filterMap Call.event?

theorem ofCalls_eq_ofEvents (calls : List Call) : ofCalls calls = ofEvents (sinceReset calls) := by
  induction calls using List.reverseRecOn with
  | nil => rfl
  | append_singleton calls c ih =>
    have hstep : ofCalls (calls ++ [c]) = c.apply (ofCalls calls) := by simp [ofCalls]
    rw [hstep, sinceReset, List.rtakeWhile_concat]
    cases c with
    | reset => rfl
    | event e =>
      have hlast : (List.rtakeWhile (·.event?.isSome) calls ++ [Call.event e]).filterMap
          Call.event? = sinceReset calls ++ [e] := List.filterMap_append
      show (ofCalls calls).observe e = ofEvents (List.filterMap Call.event? (_ ++ [Call.event e]))
      rw [hlast, ih, ofEvents_concat]

/-- The statistics after any calls are those of the events since the last reset: counts and rows
modulo 2^64, and the counts of fewer than 2^64 events exact; the total of the times, the longest
of them and the operation that first took it. The total stays at the largest number when it has
reached it: it never becomes smaller, whatever is observed. -/
theorem tells_sinceReset (calls : List Call) :
    let es := sinceReset calls
    let s := ofCalls calls
    s = ofEvents es ∧ s.Tells (· % 2 ^ 64) es ∧ (es.length < 2 ^ 64 → s.Tells id es) ∧
      ∀ more : List Event,
        s.totalDuration.nanos ≤ (ofCalls (calls ++ more.map .event)).totalDuration.nanos := by
  intro es s
  have hs : s = ofEvents es := ofCalls_eq_ofEvents calls
  have htells : s.Tells (· % 2 ^ 64) es := hs ▸ tells_ofEvents es
  refine ⟨hs, htells, htells.exact, fun more => ?_⟩
  have hmore : ofCalls (calls ++ more.map .event) = more.foldl observe s := by
    rw [ofCalls, List.foldl_append, List.foldl_map]
    rfl
  rw [hmore]
  exact le_totalNanos_foldl more s

/-- A completion before a reset is forgotten. Of two that took the longest time that is kept the
first is named, and their sum is that time too. -/
theorem tells_sinceReset_saturated :
    let early : OperationInfo := ⟨"users", .delete, "DELETE FROM \"users\"", 0⟩
    let first : OperationInfo := ⟨"users", .selectMany, "SELECT \"id\" FROM \"users\"", 0⟩
    let second : OperationInfo := ⟨"users", .update, "UPDATE \"users\" SET \"age\" = $1", 1⟩
    let es : List Event :=
      [.start first, .complete first ⟨2 ^ 64 - 1⟩ (.rows (2 ^ 64 - 1)), .slow first ⟨2 ^ 64 - 1⟩,
        .complete second ⟨2 ^ 65⟩ (.affected 3), .complete first ⟨1⟩ (.rows 2)]
    let calls : List Call :=
      .event (.complete early ⟨2 ^ 66⟩ (.error "")) :: .reset :: es.map .event
    let s := ofCalls calls
    sinceReset calls = es ∧ es.length < 2 ^ 64 ∧ s.total = 3 ∧ s.failed = 0 ∧ s.slow = 1 ∧
      s.rowsReturned.toNat = 1 ∧ s.rowsAffected.toNat = 3 ∧ s.totalDuration.nanos = 2 ^ 64 - 1 ∧
      s.slowest = some "select_many users" ∧ s.byKind = [(.selectMany, 2), (.update, 1)] := by
  intro early first second es calls s
  have hes : sinceReset calls = es := rfl
  have hlt : es.length < 2 ^ 64 := by decide
  obtain ⟨-, -, hexact, -⟩ := tells_sinceReset calls
  have htells : s.Tells id es := hes ▸ hexact (hes ▸ hlt)
  obtain ⟨htotal, hfailed, hslow, hreturned, haffected, hnanos, hmax, hslowest, hkinds, -⟩ := htells
  have hlongest : s.maxDuration.nanos = 2 ^ 64 - 1 := hmax.trans (by decide)
  refine ⟨hes, hlt, htotal, hfailed, hslow, hreturned.trans (by decide), haffected,
    hnanos.trans (by decide), ?_, hkinds.trans (by decide)⟩
  rw [hslowest, hlongest]
  decide

end Stats

end CheckedSql
