import DropRoom.Proofs.Scheduler.Settle

namespace DropRoom.Scheduler

/-!
# Deadlines of a key

Where every task under a key makes the effect of that key happen and nothing else, all that
matters of the tasks under a key is when they are due.

* `Plain` — every task makes the effect of its key happen;
* `under`, `deadlines` — the tasks under a key that have not started, and when they are due;
* `deadlines_schedule`, `deadlines_schedule_of_ne` — what scheduling adds;
* `deadlines_cancel_of_ne` — what cancelling leaves;
* `settle_deadlines` — `settle` makes the effect of a key happen once for each deadline that has
  come, and keeps the other deadlines.
-/

variable {κ ε : Type}

/-- Every task is under a key, and makes the effect of that key happen. -/
structure Plain (effect : κ → ε) (s : Scheduler κ ε) : Prop where
  timers : ∀ timer ∈ s.timers,
    ∃ key, timer.key = some key ∧ timer.action = .emit (effect key) .finish
  recent : ∀ task ∈ s.recent, task.action = .emit (effect task.key) .finish

/-- A scheduler without tasks is plain. -/
theorem initial_plain (effect : κ → ε) : (initial : Scheduler κ ε).Plain effect :=
  ⟨by simp [initial], by simp [initial]⟩

variable [DecidableEq κ] {effect : κ → ε}

/-- When the tasks under a key that have not started are due: the delay of a new task counts from
now. -/
def deadlines (s : Scheduler κ ε) (key : κ) : List Nat :=
  (s.timers.filter fun timer => timer.key = some key).map (·.deadline) ++
    (s.recent.filter fun task => task.key = key).map fun task => s.now + task.delay

/-- The tasks under a key that have not started: those that wait, and the new ones. -/
def under (s : Scheduler κ ε) (key : κ) : List (Timer κ ε) × List (Scheduled κ ε) :=
  (s.timers.filter fun timer => timer.key = some key, s.recent.filter fun task => task.key = key)

/-- Tasks that stay as they are stay due when they are, unless the clock moves. -/
theorem deadlines_of_under_eq {s s' : Scheduler κ ε} {key : κ} (hnow : s'.now = s.now)
    (hunder : s'.under key = s.under key) : s'.deadlines key = s.deadlines key := by
  obtain ⟨htimers, hrecent⟩ := Prod.mk.inj hunder
  rw [deadlines, deadlines, htimers, hrecent, hnow]

/-- A key without deadlines has no tasks. -/
theorem under_of_deadlines_eq_nil {s : Scheduler κ ε} {key : κ} (h : s.deadlines key = []) :
    s.under key = ([], []) := by
  obtain ⟨htimers, hrecent⟩ := List.append_eq_nil_iff.mp h
  exact Prod.ext (List.map_eq_nil_iff.mp htimers) (List.map_eq_nil_iff.mp hrecent)

/-- A key without deadlines is free. -/
theorem isPending_of_deadlines_eq_nil {s : Scheduler κ ε} {key : κ} (h : s.deadlines key = []) :
    s.isPending key = false := by
  simp only [deadlines, List.append_eq_nil_iff, List.map_eq_nil_iff, List.filter_eq_nil_iff,
    decide_eq_true_eq] at h
  obtain ⟨htimers, hrecent⟩ := h
  simp only [isPending, pendingKeys, decide_eq_false_iff_not, List.mem_append, List.mem_filterMap,
    List.mem_map, not_or, not_exists, not_and]
  exact ⟨htimers, hrecent⟩

/-! ### Scheduling -/

/-- A plain task keeps the scheduler plain, whether it is accepted or not. -/
theorem Plain.schedule {s : Scheduler κ ε} (h : s.Plain effect) (key : κ) (delay : Nat) :
    (s.schedule key delay (.emit (effect key) .finish)).2.Plain effect := by
  rw [Scheduler.schedule]
  split
  · exact h
  · refine ⟨h.timers, fun task hmem => ?_⟩
    rcases List.mem_append.mp hmem with hmem | hmem
    · exact h.recent task hmem
    · rw [List.mem_singleton.mp hmem]

theorem Sorted.schedule {s : Scheduler κ ε} (h : s.Sorted) (key : κ) (delay : Nat)
    (action : Action κ ε) : (s.schedule key delay action).2.Sorted := by
  rw [Scheduler.schedule]
  split <;> exact h

@[simp] theorem schedule_now (s : Scheduler κ ε) (key : κ) (delay : Nat) (action : Action κ ε) :
    (s.schedule key delay action).2.now = s.now := by
  rw [schedule]
  split <;> rfl

/-- A task under a free key is due after its delay. -/
theorem deadlines_schedule {s : Scheduler κ ε} {key : κ} (h : s.deadlines key = []) (delay : Nat)
    (action : Action κ ε) :
    (s.schedule key delay action).2.deadlines key = [s.now + delay] := by
  rw [schedule, isPending_of_deadlines_eq_nil h, if_neg Bool.false_ne_true]
  simp only [deadlines, List.append_eq_nil_iff, List.map_eq_nil_iff] at h
  simp [deadlines, h.1, h.2]

/-- A key with a deadline is not free. -/
theorem isPending_of_deadlines_ne_nil {s : Scheduler κ ε} {key : κ} (h : s.deadlines key ≠ []) :
    s.isPending key = true := by
  obtain ⟨deadline, hmem⟩ := List.exists_mem_of_ne_nil _ h
  rw [isPending, decide_eq_true_eq, pendingKeys, List.mem_append]
  rcases List.mem_append.mp hmem with htimers | hrecent
  · obtain ⟨timer, htimer, _⟩ := List.mem_map.mp htimers
    obtain ⟨hmem, hkey⟩ := List.mem_filter.mp htimer
    exact .inl (List.mem_filterMap.mpr ⟨timer, hmem, by simpa using hkey⟩)
  · obtain ⟨task, htask, _⟩ := List.mem_map.mp hrecent
    obtain ⟨hmem, hkey⟩ := List.mem_filter.mp htask
    exact .inr (List.mem_map.mpr ⟨task, hmem, by simpa using hkey⟩)

/-- A task under a key that is not free is refused. -/
theorem schedule_of_deadlines_ne_nil {s : Scheduler κ ε} {key : κ} (h : s.deadlines key ≠ [])
    (delay : Nat) (action : Action κ ε) : s.schedule key delay action = (false, s) := by
  rw [schedule, if_pos (isPending_of_deadlines_ne_nil h)]

/-- A task under a free key is the only one under it. -/
theorem under_schedule {s : Scheduler κ ε} {key : κ} (h : s.deadlines key = []) (delay : Nat)
    (action : Action κ ε) :
    (s.schedule key delay action).2.under key = ([], [⟨key, delay, action⟩]) := by
  obtain ⟨htimers, hrecent⟩ := Prod.mk.inj (under_of_deadlines_eq_nil h)
  rw [schedule, isPending_of_deadlines_eq_nil h, if_neg Bool.false_ne_true]
  simp only [under, List.filter_append, htimers, hrecent]
  simp

/-- A task leaves the tasks under the other keys as they are. -/
theorem under_schedule_of_ne (s : Scheduler κ ε) {key other : κ} (h : other ≠ key)
    (delay : Nat) (action : Action κ ε) :
    (s.schedule key delay action).2.under other = s.under other := by
  rw [schedule]
  split
  · rfl
  · simp [under, Ne.symm h]

/-- A task leaves the deadlines of the other keys as they are. -/
theorem deadlines_schedule_of_ne (s : Scheduler κ ε) {key other : κ} (h : other ≠ key)
    (delay : Nat) (action : Action κ ε) :
    (s.schedule key delay action).2.deadlines other = s.deadlines other :=
  deadlines_of_under_eq (schedule_now s key delay action) (under_schedule_of_ne s h delay action)

/-! ### Cancelling -/

theorem Plain.cancel {s : Scheduler κ ε} (h : s.Plain effect) (key : κ) :
    (s.cancel key).2.Plain effect :=
  ⟨fun timer hmem => h.timers timer (List.mem_filter.mp hmem).1,
    fun task hmem => h.recent task (List.mem_filter.mp hmem).1⟩

theorem Sorted.cancel {s : Scheduler κ ε} (h : s.Sorted) (key : κ) : (s.cancel key).2.Sorted :=
  List.Pairwise.filter _ h

/-- To cancel a task leaves the tasks under the other keys as they are. -/
theorem under_cancel_of_ne (s : Scheduler κ ε) {key other : κ} (h : other ≠ key) :
    (s.cancel key).2.under other = s.under other := by
  have htimer (timer : Timer κ ε) :
      (decide (timer.key = some other) && timer.key != some key) =
        decide (timer.key = some other) := by
    by_cases hkey : timer.key = some other
    · simp [hkey, h]
    · simp [hkey]
  have htask (task : Scheduled κ ε) :
      (decide (task.key = other) && task.key != key) = decide (task.key = other) := by
    by_cases hkey : task.key = other
    · simp [hkey, h]
    · simp [hkey]
  simp only [under, Scheduler.cancel, List.filter_filter, htimer, htask]

/-- To cancel a task leaves the deadlines of the other keys as they are. -/
theorem deadlines_cancel_of_ne (s : Scheduler κ ε) {key other : κ} (h : other ≠ key) :
    (s.cancel key).2.deadlines other = s.deadlines other :=
  deadlines_of_under_eq rfl (under_cancel_of_ne s h)

/-! ### One step -/

/-- A plain scheduler takes a step in one of three ways: the first timer is due, or else the first
new task has no delay, or else it begins to wait. -/
theorem Plain.step?_cases {s s' : Scheduler κ ε} {events : List ε} (hp : s.Plain effect)
    (h : s.step? = some (events, s')) :
    (∃ deadline key timers,
      s.timers = ⟨deadline, some key, .emit (effect key) .finish⟩ :: timers ∧ deadline ≤ s.now ∧
      events = [effect key] ∧ s' = { s with timers := timers }) ∨
    (∃ key recent, s.recent = ⟨key, 0, .emit (effect key) .finish⟩ :: recent ∧
      events = [effect key] ∧ s' = { s with recent := recent }) ∨
    (∃ key delay recent, s.recent = ⟨key, delay, .emit (effect key) .finish⟩ :: recent ∧
      events = [] ∧ s' = { s with
        timers := insertTimer ⟨s.now + delay, some key, .emit (effect key) .finish⟩ s.timers
        recent := recent }) := by
  obtain ⟨⟨deadline, key?, action⟩, timers, htimers, hdue, hrun⟩ |
    ⟨⟨key, delay, action⟩, recent, hrecent, htake⟩ := Scheduler.step?_cases h
  · obtain ⟨key, hkey, haction⟩ := hp.timers _ (htimers ▸ List.mem_cons_self)
    simp only at hkey haction
    subst hkey haction
    cases hrun
    exact .inl ⟨deadline, key, timers, htimers, hdue, rfl, rfl⟩
  · have haction := hp.recent _ (hrecent ▸ List.mem_cons_self)
    simp only at haction
    subst haction
    -- without a delay the task starts at once, else it becomes a timer
    cases delay with
    | zero =>
      cases htake
      exact .inr (.inl ⟨key, recent, hrecent, rfl, rfl⟩)
    | succ delay =>
      cases htake
      exact .inr (.inr ⟨key, delay + 1, recent, hrecent, rfl, rfl⟩)

/-- A step does not move the clock of a plain scheduler, and keeps it plain and in order. -/
theorem Plain.step?_keeps {s s' : Scheduler κ ε} {events : List ε} (hp : s.Plain effect)
    (hs : s.Sorted) (h : s.step? = some (events, s')) :
    s'.now = s.now ∧ s'.Plain effect ∧ s'.Sorted := by
  obtain ⟨deadline, key, timers, htimers, _, _, rfl⟩ | ⟨key, recent, hrecent, _, rfl⟩ |
    ⟨key, delay, recent, hrecent, _, rfl⟩ := hp.step?_cases h
  · rw [Sorted, htimers] at hs
    refine ⟨rfl, ⟨fun timer hmem => ?_, hp.recent⟩, (List.pairwise_cons.mp hs).2⟩
    exact hp.timers timer (htimers ▸ List.mem_cons_of_mem _ hmem)
  · refine ⟨rfl, ⟨hp.timers, fun task hmem => ?_⟩, hs⟩
    exact hp.recent task (hrecent ▸ List.mem_cons_of_mem _ hmem)
  · refine ⟨rfl, ⟨fun timer hmem => ?_, fun task hmem => ?_⟩, insertTimer_pairwise _ hs⟩
    · rcases List.mem_cons.mp ((insertTimer_perm _ _).mem_iff.mp hmem) with rfl | hmem
      · exact ⟨key, rfl, rfl⟩
      · exact hp.timers timer hmem
    · exact hp.recent task (hrecent ▸ List.mem_cons_of_mem _ hmem)

/-- A step takes a deadline off a key exactly if it makes the effect of the key happen, and then
one that has come. -/
theorem Plain.step?_deadlines [DecidableEq ε] (heffect : Function.Injective effect)
    {s s' : Scheduler κ ε} {events : List ε} (hp : s.Plain effect)
    (h : s.step? = some (events, s')) (key : κ) :
    ∃ started, (∀ deadline ∈ started, deadline ≤ s.now) ∧
      started.length = events.count (effect key) ∧
      (s.deadlines key).Perm (started ++ s'.deadlines key) := by
  obtain ⟨deadline, other, timers, htimers, hdue, rfl, rfl⟩ | ⟨other, recent, hrecent, rfl, rfl⟩ |
    ⟨other, delay, recent, hrecent, rfl, rfl⟩ := hp.step?_cases h
  · by_cases hkey : other = key
    · subst hkey
      refine ⟨[deadline], by simpa using hdue, by simp, ?_⟩
      simp [deadlines, htimers]
    · have hne : effect other ≠ effect key := fun he => hkey (heffect he)
      refine ⟨[], by simp, by simp [hne], ?_⟩
      simp [deadlines, htimers, hkey]
  · by_cases hkey : other = key
    · subst hkey
      refine ⟨[s.now], by simp, by simp, ?_⟩
      simp only [deadlines, hrecent, List.filter_cons, decide_true, if_true, List.map_cons,
        Nat.add_zero, List.singleton_append]
      exact List.perm_middle
    · have hne : effect other ≠ effect key := fun he => hkey (heffect he)
      refine ⟨[], by simp, by simp [hne], ?_⟩
      simp [deadlines, hrecent, hkey]
  · -- nothing starts: a deadline moves from the new tasks to the timers
    refine ⟨[], by simp, by simp, ?_⟩
    have hinsert := (((insertTimer_perm ⟨s.now + delay, some other, .emit (effect other) .finish⟩
      s.timers).filter fun timer => timer.key = some key).map (·.deadline)).symm
    by_cases hkey : other = key
    · subst hkey
      simp only [deadlines, hrecent, List.filter_cons, decide_true, if_true, List.map_cons,
        List.nil_append] at hinsert ⊢
      exact List.perm_middle.trans (hinsert.append_right _)
    · simp only [deadlines, hrecent, List.filter_cons, Option.some.injEq, hkey, decide_false,
        Bool.false_eq_true, if_false, List.nil_append] at hinsert ⊢
      exact hinsert.append_right _

/-! ### All steps -/

/-- `settle` does not move the clock of a plain scheduler, and keeps it plain and in order. -/
theorem Plain.settle {s : Scheduler κ ε} (hp : s.Plain effect) (hs : s.Sorted) :
    s.settle.2.now = s.now ∧ s.settle.2.Plain effect ∧ s.settle.2.Sorted := by
  refine steps_induction (motive := fun _ t => t.now = s.now ∧ t.Plain effect ∧ t.Sorted) ?_
    s.weight [] s ⟨rfl, hp, hs⟩
  intro _ t events t' ⟨hnow, hp, hs⟩ h
  obtain ⟨hnow', hp', hs'⟩ := hp.step?_keeps hs h
  exact ⟨hnow'.trans hnow, hp', hs'⟩

/-- Without a step left, all deadlines of a key are still to come. -/
theorem Sorted.lt_of_mem_deadlines {s : Scheduler κ ε} (hs : s.Sorted) (h : s.step? = none)
    (key : κ) : ∀ deadline ∈ s.deadlines key, s.now < deadline := by
  intro deadline hmem
  simp only [deadlines, recent_eq_nil h, List.filter_nil, List.map_nil, List.append_nil,
    List.mem_map, List.mem_filter] at hmem
  obtain ⟨timer, ⟨htimer, _⟩, rfl⟩ := hmem
  exact hs.lt_deadline h timer htimer

/-- What `settle` starts and what it leaves are all the deadlines that there were. -/
theorem Plain.settle_started [DecidableEq ε] (heffect : Function.Injective effect)
    {s : Scheduler κ ε} (hp : s.Plain effect) (hs : s.Sorted) (key : κ) :
    ∃ started, (∀ deadline ∈ started, deadline ≤ s.now) ∧
      started.length = s.settle.1.count (effect key) ∧
      (s.deadlines key).Perm (started ++ s.settle.2.deadlines key) := by
  refine (steps_induction (motive := fun past t => (t.now = s.now ∧ t.Plain effect ∧ t.Sorted) ∧
    ∃ started, (∀ deadline ∈ started, deadline ≤ s.now) ∧
      started.length = past.count (effect key) ∧
      (s.deadlines key).Perm (started ++ t.deadlines key)) ?_
    s.weight [] s ⟨⟨rfl, hp, hs⟩, [], by simp⟩).2
  rintro past t events t' ⟨⟨hnow, hp, hs⟩, started, hdue, hcount, hperm⟩ h
  obtain ⟨hnow', hp', hs'⟩ := hp.step?_keeps hs h
  obtain ⟨more, hdue', hcount', hperm'⟩ := hp.step?_deadlines heffect h key
  refine ⟨⟨hnow'.trans hnow, hp', hs'⟩, started ++ more, ?_, ?_, ?_⟩
  · intro deadline hmem
    rcases List.mem_append.mp hmem with hmem | hmem
    · exact hdue deadline hmem
    · -- the clock has not moved since the first step
      exact hnow ▸ hdue' deadline hmem
  · rw [List.length_append, List.count_append, hcount, hcount']
  · rw [List.append_assoc]
    exact hperm.trans (hperm'.append_left started)

/-- **Settling by deadlines.** `settle` makes the effect of a key happen once for each deadline
that has come, and keeps the deadlines that are still to come. -/
theorem Plain.settle_deadlines [DecidableEq ε] (heffect : Function.Injective effect)
    {s : Scheduler κ ε} (hp : s.Plain effect) (hs : s.Sorted) (key : κ) :
    s.settle.1.count (effect key) = (s.deadlines key).countP (· ≤ s.now) ∧
    (s.settle.2.deadlines key).Perm ((s.deadlines key).filter (s.now < ·)) := by
  obtain ⟨started, hdue, hcount, hperm⟩ := hp.settle_started heffect hs key
  obtain ⟨hnow, _, hsorted⟩ := hp.settle hs
  have hlater : ∀ deadline ∈ s.settle.2.deadlines key, s.now < deadline :=
    hnow ▸ hsorted.lt_of_mem_deadlines (step?_settle s) key
  -- all that was started is due, and all that is left is still to come
  constructor
  · have hall : started.countP (· ≤ s.now) = started.length :=
      List.countP_eq_length.mpr (by simpa using hdue)
    have hnone : (s.settle.2.deadlines key).countP (· ≤ s.now) = 0 :=
      List.countP_eq_zero.mpr (by simpa using hlater)
    rw [hperm.countP_eq, List.countP_append, hall, hnone, hcount, Nat.add_zero]
  · have hnone : started.filter (s.now < ·) = [] :=
      List.filter_eq_nil_iff.mpr (by simpa using hdue)
    have hall : (s.settle.2.deadlines key).filter (s.now < ·) = s.settle.2.deadlines key :=
      List.filter_eq_self.mpr (by simpa using hlater)
    have := hperm.filter (s.now < ·)
    rw [List.filter_append, hnone, hall, List.nil_append] at this
    exact this.symm

end DropRoom.Scheduler
