/-
Laws of programs: they are a monad, an error is the end of one, and what an operation tells a monitor
leaves what it comes to as it is.
-/
import CheckedSql.Execution.Write

namespace CheckedSql

variable {α β σ : Type}

/-! ## Statements and events among actions -/

@[simp]
theorem sentOf_append (as bs : List (Action β)) : sentOf (as ++ bs) = sentOf as ++ sentOf bs :=
  List.filterMap_append

@[simp]
theorem sentOf_map_send (ss : List (Sent β)) : sentOf (ss.map Action.send) = ss := by
  induction ss with
  | nil => rfl
  | cons a ss ih => exact congrArg (a :: ·) ih

@[simp]
theorem sentOf_map_tell (es : List Event) : sentOf (es.map Action.tell : List (Action β)) = [] := by
  induction es with
  | nil => rfl
  | cons a es ih => exact ih

@[simp]
theorem eventsOf_append (as bs : List (Action β)) :
    eventsOf (as ++ bs) = eventsOf as ++ eventsOf bs :=
  List.filterMap_append

@[simp]
theorem eventsOf_map_send (ss : List (Sent β)) : eventsOf (ss.map Action.send) = [] := by
  induction ss with
  | nil => rfl
  | cons a ss ih => exact ih

@[simp]
theorem eventsOf_map_tell (es : List Event) :
    eventsOf (es.map Action.tell : List (Action β)) = es := by
  induction es with
  | nil => rfl
  | cons a es ih => exact congrArg (a :: ·) ih

/-! ## Programs -/

namespace Run

variable {x : Run β α} {f : α → Run β σ} {c : Client β} {as done : List (Action β)}

theorem bind_eq (x : Run β α) (f : α → Run β σ) (c : Client β) (as : List (Action β)) :
    (x >>= f) c as =
      match x c as with
      | (.ok a, as) => f a c as
      | (.error e, as) => (.error e, as) := by
  show Run.bind x f c as = _
  unfold Run.bind
  rcases x c as with ⟨e | a, done⟩ <;> rfl

theorem bind_of_ok {a : α} (h : x c as = (.ok a, done)) : (x >>= f) c as = f a c done := by
  rw [bind_eq, h]

theorem bind_of_error {e : QueryError} (h : x c as = (.error e, done)) :
    (x >>= f) c as = (.error e, done) := by
  rw [bind_eq, h]

instance : LawfulMonad (Run β) := by
  refine LawfulMonad.mk' (Run β) (fun x => ?_) (fun a f => rfl) (fun x f g => ?_)
  · funext c as
    rcases hx : x c as with ⟨e | a, done⟩
    · exact bind_of_error hx
    · exact bind_of_ok hx
  · funext c as
    rcases hx : x c as with ⟨e | a, done⟩
    · rw [bind_of_error hx, bind_of_error (bind_of_error hx)]
    · rw [bind_of_ok hx, bind_eq, bind_of_ok hx, bind_eq]

theorem ofExcept_bind (x : Except QueryError α) (f : α → Except QueryError σ) :
    (ofExcept (x >>= f) : Run β σ) = ofExcept x >>= fun a => ofExcept (f a) := by
  cases x <;> rfl

/-- Going on with a value, an error being the end, is going on with the value or error. -/
theorem bind_eq_attempt (x : Run β α) (f : α → Run β σ) :
    x >>= f = x.attempt >>= fun r =>
      match r with
      | .ok a => f a
      | .error e => fail e := by
  funext c as
  have hattempt : x.attempt c as = (.ok (x c as).1, (x c as).2) := rfl
  rw [bind_of_ok hattempt]
  rcases hx : x c as with ⟨e | a, done⟩
  · exact bind_of_error hx
  · exact bind_of_ok hx

theorem attempt_map (x : Run β α) (g : α → σ) :
    (x >>= fun a => Pure.pure (g a)).attempt = x.attempt >>= fun r => Pure.pure (r.map g) := by
  funext c as
  have hattempt : x.attempt c as = (.ok (x c as).1, (x c as).2) := rfl
  rw [bind_of_ok hattempt, attempt]
  rcases hx : x c as with ⟨e | a, done⟩
  · rw [bind_of_error hx]
    rfl
  · rw [bind_of_ok hx]
    rfl

end Run

/-! ## Operations -/

namespace Operation

variable (o : Operation)

/-- What the monitor hears of an event: with monitoring off, nothing. -/
def told (e : Event) : List Event :=
  if o.config.monitoring then [e] else []

/-- What it hears of slowness. -/
def toldSlow (elapsed : Duration) : List Event :=
  match o.config.slowThreshold with
  | some threshold => if threshold.nanos < elapsed.nanos then o.told (.slow o.info elapsed) else []
  | none => []

/-- What it hears at the end. -/
def toldEnd (elapsed : Duration) (outcome : Outcome) : List Event :=
  o.told (.complete o.info elapsed outcome) ++ o.toldSlow elapsed

theorem tell_apply (e : Event) (c : Client β) (as : List (Action β)) :
    o.tell e c as = (.ok (), as ++ (o.told e).map .tell) := by
  unfold tell told
  split
  · rfl
  · exact congrArg _ (List.append_nil as).symm

theorem tellSlow_apply (elapsed : Duration) (c : Client β) (as : List (Action β)) :
    o.tellSlow elapsed c as = (.ok (), as ++ (o.toldSlow elapsed).map .tell) := by
  have hnothing : (Pure.pure () : Run β Unit) c as = (.ok (), as ++ [].map .tell) :=
    congrArg _ (List.append_nil as).symm
  unfold tellSlow toldSlow
  cases o.config.slowThreshold with
  | none => exact hnothing
  | some threshold =>
    dsimp only
    split
    · exact o.tell_apply _ c as
    · exact hnothing

/-- The monitor is told around a program; what it comes to is left as it is. -/
theorem monitored_apply (summary : α → Outcome) (x : Run β α) (c : Client β)
    (as : List (Action β)) :
    o.monitored summary x c as =
      let (result, done) := x c (as ++ (o.told (.start o.info)).map .tell)
      (result, done ++
        (o.toldEnd (c.elapsed (sentOf done)) (outcomeOf summary result)).map .tell) := by
  rcases hx : x c (as ++ (o.told (.start o.info)).map .tell) with ⟨result, done⟩
  have hattempt : x.attempt c (as ++ (o.told (.start o.info)).map .tell) = (.ok result, done) := by
    rw [Run.attempt, hx]
  have helapsed : (Run.elapsed : Run β Duration) c done =
      (.ok (c.elapsed (sentOf done)), done) := rfl
  unfold monitored
  rw [Run.bind_of_ok (o.tell_apply _ c as), Run.bind_of_ok hattempt, Run.bind_of_ok helapsed,
    Run.bind_of_ok (o.tell_apply _ c done), Run.bind_of_ok (o.tellSlow_apply _ c _)]
  simp [hx, Run.ofExcept, toldEnd]

variable {o : Operation}

theorem mem_told {e e' : Event} (h : e' ∈ o.told e) : e' = e := by
  unfold told at h
  split at h
  · exact List.mem_singleton.1 h
  · cases h

theorem mem_toldSlow {elapsed : Duration} {e : Event} (h : e ∈ o.toldSlow elapsed) :
    e = .slow o.info elapsed := by
  unfold toldSlow at h
  split at h
  · split at h
    · exact mem_told h
    · cases h
  · cases h

theorem told_of_monitoring (h : o.config.monitoring = true) (e : Event) : o.told e = [e] :=
  if_pos h

theorem told_of_silent (h : o.config.monitoring = false) (e : Event) : o.told e = [] :=
  if_neg (by simp [h])

theorem toldSlow_of_monitoring (h : o.config.monitoring = true) (elapsed : Duration) :
    o.toldSlow elapsed = if o.config.slowThreshold.any (·.nanos < elapsed.nanos) then
      [.slow o.info elapsed] else [] := by
  unfold toldSlow
  cases o.config.slowThreshold with
  | none => rfl
  | some threshold => simp [told_of_monitoring h]

theorem toldSlow_of_silent (h : o.config.monitoring = false) (elapsed : Duration) :
    o.toldSlow elapsed = [] := by
  unfold toldSlow
  cases o.config.slowThreshold with
  | none => rfl
  | some threshold => simp [told_of_silent h]

end Operation

end CheckedSql
