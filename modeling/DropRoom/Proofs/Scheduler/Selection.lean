import DropRoom.Scheduler

namespace DropRoom

/-!
# Selected events

A scheduler does not look at what its tasks make happen.  So where events are replaced or left out,
all else stays as it was: which tasks are accepted, when they start, and in what order.

* `Action.filterMap`, `Scheduler.filterMap` — the same tasks with events replaced or left out;
* `Scheduler.schedule_filterMap`, `Scheduler.cancel_filterMap`, `Scheduler.step?_filterMap`,
  `Scheduler.advance_filterMap` — the operations do the same with such tasks.
-/

variable {κ ε δ : Type}

/-- The same action with its events replaced, or left out. -/
def Action.filterMap (f : ε → Option δ) : Action κ ε → Action κ δ
  | .finish => .finish
  | .emit event next =>
    match f event with
    | some event => .emit event (next.filterMap f)
    | none => next.filterMap f
  | .sleep delay next => .sleep delay (next.filterMap f)
  | .schedule key delay task next =>
    .schedule key delay (task.filterMap f) fun accepted => (next accepted).filterMap f

/-- The same timer with the events of its action replaced, or left out. -/
def Timer.filterMap (f : ε → Option δ) (timer : Timer κ ε) : Timer κ δ :=
  ⟨timer.deadline, timer.key, timer.action.filterMap f⟩

/-- The same new task with the events of its action replaced, or left out. -/
def Scheduled.filterMap (f : ε → Option δ) (task : Scheduled κ ε) : Scheduled κ δ :=
  ⟨task.key, task.delay, task.action.filterMap f⟩

@[simp] theorem Action.weight_filterMap (f : ε → Option δ) (action : Action κ ε) :
    (action.filterMap f).weight = action.weight := by
  induction action with
  | finish => rfl
  | emit event next ih =>
    -- what happens weighs nothing, so it may be left out
    simp only [Action.filterMap, Action.weight]
    cases f event with
    | none => exact ih
    | some event => exact ih
  | sleep delay next ih => simp only [Action.filterMap, Action.weight, ih]
  | schedule key delay task next ihTask ihNext =>
    simp only [Action.filterMap, Action.weight, ihTask, ihNext]

namespace Scheduler

/-- The same scheduler with the events of its tasks replaced, or left out. -/
def filterMap (f : ε → Option δ) (s : Scheduler κ ε) : Scheduler κ δ :=
  ⟨s.now, s.timers.map (Timer.filterMap f), s.recent.map (Scheduled.filterMap f)⟩

/-- What happens, and the scheduler after it, with events replaced or left out. -/
def filterMapOutcome (f : ε → Option δ) (outcome : List ε × Scheduler κ ε) :
    List δ × Scheduler κ δ :=
  (outcome.1.filterMap f, outcome.2.filterMap f)

variable (f : ε → Option δ) (s : Scheduler κ ε)

@[simp] theorem weight_filterMap : (s.filterMap f).weight = s.weight := by
  simp only [weight, filterMap, List.foldr_map, Timer.filterMap, Scheduled.filterMap,
    Action.weight_filterMap]

theorem insertTimer_filterMap (timer : Timer κ ε) (timers : List (Timer κ ε)) :
    insertTimer (timer.filterMap f) (timers.map (Timer.filterMap f)) =
      (insertTimer timer timers).map (Timer.filterMap f) := by
  induction timers with
  | nil => rfl
  | cons other timers ih =>
    show (if other.deadline ≤ timer.deadline then _ else _) = _
    rw [insertTimer]
    split
    · rw [List.map_cons, ← ih]
    · rfl

/-- Which tasks wait does not depend on what they make happen. -/
@[simp] theorem pendingKeys_filterMap : (s.filterMap f).pendingKeys = s.pendingKeys := by
  have htimers : (s.timers.map (Timer.filterMap f)).filterMap (·.key) =
      s.timers.filterMap (·.key) := by
    rw [List.filterMap_map]
    rfl
  have hrecent : (s.recent.map (Scheduled.filterMap f)).map (·.key) = s.recent.map (·.key) := by
    rw [List.map_map]
    rfl
  show (s.timers.map (Timer.filterMap f)).filterMap (·.key) ++
    (s.recent.map (Scheduled.filterMap f)).map (·.key) = _
  rw [htimers, hrecent, pendingKeys]

@[simp] theorem pendingCount_filterMap : (s.filterMap f).pendingCount = s.pendingCount := by
  rw [pendingCount, pendingKeys_filterMap, pendingCount]

theorem cancelAll_filterMap :
    (s.filterMap f).cancelAll = (s.cancelAll.1, s.cancelAll.2.filterMap f) := by
  rw [cancelAll, cancelAll, pendingCount_filterMap]
  simp only [filterMap, List.filter_map]
  rfl

section Keys

variable [DecidableEq κ]

@[simp] theorem isPending_filterMap (key : κ) : (s.filterMap f).isPending key = s.isPending key := by
  rw [isPending, isPending, pendingKeys_filterMap]

/-! ### The operations -/

/-- A task is accepted all the same where events are replaced. -/
theorem schedule_filterMap (key : κ) (delay : Nat) (action : Action κ ε) :
    (s.filterMap f).schedule key delay (action.filterMap f) =
      ((s.schedule key delay action).1, (s.schedule key delay action).2.filterMap f) := by
  rw [schedule, schedule, isPending_filterMap]
  split
  · rfl
  · simp [filterMap, Scheduled.filterMap]

/-- It is cancelled all the same. -/
theorem cancel_filterMap (key : κ) :
    (s.filterMap f).cancel key = ((s.cancel key).1, (s.cancel key).2.filterMap f) := by
  rw [cancel, cancel, isPending_filterMap]
  simp only [filterMap, List.filter_map]
  rfl

/-- It runs alike. -/
theorem runAction_filterMap (action : Action κ ε) :
    runAction (s.filterMap f) (action.filterMap f) = filterMapOutcome f (runAction s action) := by
  induction action generalizing s with
  | finish => rfl
  | emit event next ih =>
    simp only [Action.filterMap, runAction, filterMapOutcome]
    -- an event that is left out is no step of the action, so the rest of it is what there is
    cases hevent : f event with
    | none => simpa [hevent, filterMapOutcome] using ih s
    | some event => simp [runAction, hevent, ih s, filterMapOutcome]
  | sleep delay next ih =>
    cases delay with
    | zero => exact ih s
    | succ delay =>
      have hinsert := insertTimer_filterMap f ⟨s.now + (delay + 1), none, next⟩ s.timers
      simp only [Timer.filterMap] at hinsert
      simp only [Action.filterMap, runAction, filterMapOutcome, filterMap, hinsert,
        List.filterMap_nil]
  | schedule key delay task next _ ih =>
    simp only [Action.filterMap, runAction, schedule_filterMap, ih]

/-- It is taken up alike. -/
theorem takeUp_filterMap (task : Scheduled κ ε) :
    step?.takeUp (s.filterMap f) (task.filterMap f) =
      filterMapOutcome f (step?.takeUp s task) := by
  obtain ⟨key, delay, action⟩ := task
  cases delay with
  | zero => exact runAction_filterMap f s action
  | succ delay =>
    have hinsert := insertTimer_filterMap f ⟨s.now + (delay + 1), some key, action⟩ s.timers
    simp only [Timer.filterMap] at hinsert
    simp only [Scheduled.filterMap, step?.takeUp, filterMapOutcome, filterMap, hinsert,
      List.filterMap_nil]

/-- A step is the same step, with other events. -/
theorem step?_filterMap : (s.filterMap f).step? = s.step?.map (filterMapOutcome f) := by
  obtain ⟨now, timers, recent⟩ := s
  cases timers with
  | nil =>
    cases recent with
    | nil => rfl
    | cons task recent => exact congrArg some (takeUp_filterMap f ⟨now, [], recent⟩ task)
  | cons timer timers =>
    by_cases hdue : timer.deadline ≤ now
    · have hdue' : (timer.filterMap f).deadline ≤ now := hdue
      simp only [filterMap, List.map_cons, step?, if_pos hdue, if_pos hdue', Option.map_some]
      exact congrArg some (runAction_filterMap f ⟨now, timers, recent⟩ timer.action)
    · have hdue' : ¬ (timer.filterMap f).deadline ≤ now := hdue
      cases recent with
      | nil => simp [filterMap, step?, if_neg hdue, if_neg hdue']
      | cons task recent =>
        simp only [filterMap, List.map_cons, step?, if_neg hdue, if_neg hdue', Option.map_some]
        exact congrArg some (takeUp_filterMap f ⟨now, timer :: timers, recent⟩ task)

/-- So are many. -/
theorem steps_filterMap (limit : Nat) :
    steps limit (s.filterMap f) = filterMapOutcome f (steps limit s) := by
  -- a step is taken on one side exactly if one is taken on the other
  induction limit generalizing s with
  | zero => rfl
  | succ limit ih =>
    rw [steps, steps, step?_filterMap]
    cases s.step? with
    | none => rfl
    | some outcome => simp [filterMapOutcome, ih]

/-- **Time passes alike.** Where events are replaced or left out, what is due starts all the same. -/
theorem advance_filterMap (milliseconds : Nat) :
    (s.filterMap f).advance milliseconds = filterMapOutcome f (s.advance milliseconds) := by
  have hsteps := steps_filterMap f { s with now := s.now + milliseconds }
    ({ s with now := s.now + milliseconds } : Scheduler κ ε).weight
  -- the bound on the number of steps is the same on both sides
  have hweight := weight_filterMap f { s with now := s.now + milliseconds }
  show steps (filterMap f { s with now := s.now + milliseconds }).weight
    (filterMap f { s with now := s.now + milliseconds }) = _
  rw [hweight, hsteps]
  rfl

end Keys

end Scheduler

end DropRoom
