namespace DropRoom

/-!
# Timers under keys

A task starts after a delay unless it is cancelled before.  At most one task under
a key waits at a time.  A task that has started is no longer under its key: it
cannot be cancelled, and its key is free, also for the task itself.

* `Action` — what a task does once it starts;
* `Scheduler` — the clock, the waiting tasks and the started ones that sleep;
* `Scheduler.schedule`, `Scheduler.cancel`, `Scheduler.cancelAll`;
* `Scheduler.settle` — start everything that is due;
* `Scheduler.advance` — move the clock and start everything that is due then, in
  the order of the deadlines, and of equal ones in the order of scheduling.
-/

/-- What a task does once it starts, where events are of type `ε`. -/
inductive Action (κ ε : Type) where
  | finish
  /-- Make something happen. -/
  | emit (event : ε) (next : Action κ ε)
  /-- Wait for so many milliseconds. -/
  | sleep (delay : Nat) (next : Action κ ε)
  /-- Try to schedule another task, and go on according to whether it was accepted. -/
  | schedule (key : κ) (delay : Nat) (task : Action κ ε) (next : Bool → Action κ ε)

/-- A bound on the number of tasks that an action can start, itself included. -/
def Action.weight {κ ε : Type} : Action κ ε → Nat
  | .finish => 1
  | .emit _ next => next.weight
  | .sleep _ next => 1 + next.weight
  | .schedule _ _ task next => 1 + task.weight + max (next true).weight (next false).weight

/-- A task that waits for its deadline: under a key unless it has started. -/
structure Timer (κ ε : Type) where
  deadline : Nat
  key : Option κ
  action : Action κ ε

/-- A task that was scheduled since the scheduler last settled. -/
structure Scheduled (κ ε : Type) where
  key : κ
  delay : Nat
  action : Action κ ε

/-- Tasks under keys of type `κ` that make events of type `ε` happen. -/
structure Scheduler (κ ε : Type) where
  /-- The clock, in milliseconds. -/
  now : Nat
  /-- The waiting tasks by deadline, those of equal deadlines in order of arrival. -/
  timers : List (Timer κ ε)
  /-- The tasks that were scheduled since, in order. -/
  recent : List (Scheduled κ ε)

namespace Scheduler

variable {κ ε : Type}

/-- No tasks, at the start of the clock. -/
def initial : Scheduler κ ε :=
  ⟨0, [], []⟩

/-- Put a timer after all others of its deadline. -/
def insertTimer (timer : Timer κ ε) : List (Timer κ ε) → List (Timer κ ε)
  | [] => [timer]
  | other :: timers =>
    if other.deadline ≤ timer.deadline then other :: insertTimer timer timers
    else timer :: other :: timers

/-- The keys of the tasks that have not started. -/
def pendingKeys (s : Scheduler κ ε) : List κ :=
  s.timers.filterMap (·.key) ++ s.recent.map (·.key)

/-- The number of tasks that have not started. -/
def pendingCount (s : Scheduler κ ε) : Nat :=
  s.pendingKeys.length

section Keys

variable [DecidableEq κ]

/-- Whether a task under a key has not started. -/
def isPending (s : Scheduler κ ε) (key : κ) : Bool :=
  decide (key ∈ s.pendingKeys)

/-- Schedule a task, unless one under the same key has not started; whether it was accepted. -/
def schedule (s : Scheduler κ ε) (key : κ) (delay : Nat) (action : Action κ ε) :
    Bool × Scheduler κ ε :=
  if s.isPending key then (false, s)
  else (true, { s with recent := s.recent ++ [⟨key, delay, action⟩] })

/-- Cancel the task under a key that has not started; whether there was one. -/
def cancel (s : Scheduler κ ε) (key : κ) : Bool × Scheduler κ ε :=
  (s.isPending key,
    { s with
      timers := s.timers.filter fun timer => timer.key != some key
      recent := s.recent.filter fun task => task.key != key })

/-- Cancel every task that has not started, and give their number. -/
def cancelAll (s : Scheduler κ ε) : Nat × Scheduler κ ε :=
  (s.pendingCount, { s with timers := s.timers.filter fun timer => timer.key.isNone, recent := [] })

/-- Go on with a started task until it sleeps or ends: what it makes happen, and the scheduler
after it.  A sleep of no time does not interrupt it. -/
def runAction (s : Scheduler κ ε) : Action κ ε → List ε × Scheduler κ ε
  | .finish => ([], s)
  | .emit event next =>
    let (events, s) := runAction s next
    (event :: events, s)
  | .sleep 0 next => runAction s next
  | .sleep delay next =>
    ([], { s with timers := insertTimer ⟨s.now + delay, none, next⟩ s.timers })
  | .schedule key delay task next =>
    let (accepted, s) := s.schedule key delay task
    runAction s (next accepted)

/-- Take one step if there is one: start or wake the first timer that is due, or else take up the
task that was scheduled first. -/
def step? (s : Scheduler κ ε) : Option (List ε × Scheduler κ ε) :=
  match s.timers, s.recent with
  | timer :: timers, recent =>
    if timer.deadline ≤ s.now then some (runAction { s with timers := timers } timer.action)
    else
      match recent with
      | [] => none
      | task :: recent => some (takeUp { s with recent := recent } task)
  | [], task :: recent => some (takeUp { s with recent := recent } task)
  | [], [] => none
where
  /-- Take up a task: start it at once if it has no delay, and let it wait otherwise. -/
  takeUp (s : Scheduler κ ε) (task : Scheduled κ ε) : List ε × Scheduler κ ε :=
    match task.delay with
    | 0 => runAction s task.action
    | delay =>
      ([], { s with timers := insertTimer ⟨s.now + delay, some task.key, task.action⟩ s.timers })

/-- At most so many steps. -/
def steps : Nat → Scheduler κ ε → List ε × Scheduler κ ε
  | 0, s => ([], s)
  | limit + 1, s =>
    match s.step? with
    | none => ([], s)
    | some (events, s) =>
      let (more, s) := steps limit s
      (events ++ more, s)

/-- A bound on the number of steps that are left. -/
def weight (s : Scheduler κ ε) : Nat :=
  s.timers.foldr (fun timer sum => timer.action.weight + sum) 0 +
    s.recent.foldr (fun task sum => task.action.weight + 1 + sum) 0

/-- Take all steps that there are. -/
def settle (s : Scheduler κ ε) : List ε × Scheduler κ ε :=
  steps s.weight s

/-- Move the clock and take all steps that there are then. -/
def advance (s : Scheduler κ ε) (milliseconds : Nat) : List ε × Scheduler κ ε :=
  settle { s with now := s.now + milliseconds }

end Keys

end Scheduler

end DropRoom
