import DropRoom.Scheduler
import Mathlib.Algebra.GroupWithZero.Nat

namespace DropRoom.Scheduler

/-!
# Settling

Taking steps comes to an end: each step takes something off the weight of the scheduler, and
`settle` takes as many steps as the weight allows.

* `insertTimer_perm`, `Sorted` — a new timer is put in its place among the others;
* `step?_weight_lt` — each step takes something off the weight;
* `step?_settle` — after `settle` there is no step left;
* `steps_induction` — what every step keeps, `steps` keeps;
* `recent_eq_nil`, `Sorted.lt_deadline` — without a step left, all that waits has a deadline that
  is still to come.
-/

variable {κ ε : Type}

/-! ### Putting a timer in its place -/

/-- A new timer is added to the others, and none of them is lost. -/
theorem insertTimer_perm (timer : Timer κ ε) (timers : List (Timer κ ε)) :
    (insertTimer timer timers).Perm (timer :: timers) := by
  induction timers with
  | nil => exact .refl _
  | cons other timers ih =>
    rw [insertTimer]
    split
    · exact (ih.cons other).trans (.swap timer other timers)
    · exact .refl _

/-- The timers stand in the order of their deadlines. -/
def Sorted (s : Scheduler κ ε) : Prop :=
  s.timers.Pairwise fun earlier later => earlier.deadline ≤ later.deadline

/-- A new timer leaves the others in order. -/
theorem insertTimer_pairwise (timer : Timer κ ε) {timers : List (Timer κ ε)}
    (h : timers.Pairwise fun earlier later => earlier.deadline ≤ later.deadline) :
    (insertTimer timer timers).Pairwise fun earlier later => earlier.deadline ≤ later.deadline := by
  induction timers with
  | nil => exact List.pairwise_singleton _ _
  | cons other timers ih =>
    obtain ⟨hother, htimers⟩ := List.pairwise_cons.mp h
    rw [insertTimer]
    split
    · -- the new timer stands somewhere after the first one
      rename_i hle
      refine List.pairwise_cons.mpr ⟨?_, ih htimers⟩
      intro later hlater
      rcases List.mem_cons.mp ((insertTimer_perm timer timers).mem_iff.mp hlater) with rfl | hmem
      · exact hle
      · exact hother later hmem
    · -- the new timer stands before all others
      rename_i hlt
      refine List.pairwise_cons.mpr ⟨?_, h⟩
      intro later hlater
      rcases List.mem_cons.mp hlater with rfl | hmem
      · omega
      · have := hother later hmem
        omega

/-! ### The weight -/

/-- The weight as a sum over the waiting tasks and one over those that are new. -/
theorem weight_eq_sum (s : Scheduler κ ε) :
    s.weight = (s.timers.map (·.action.weight)).sum + (s.recent.map (·.action.weight + 1)).sum := by
  simp only [weight, List.sum_eq_foldr, List.foldr_map]

/-- A new timer adds its own weight. -/
theorem sum_insertTimer (timer : Timer κ ε) (timers : List (Timer κ ε)) :
    ((insertTimer timer timers).map (·.action.weight)).sum =
      timer.action.weight + (timers.map (·.action.weight)).sum := by
  rw [((insertTimer_perm timer timers).map _).sum_nat, List.map_cons, List.sum_cons]

section Keys

variable [DecidableEq κ]

theorem schedule_weight_le (s : Scheduler κ ε) (key : κ) (delay : Nat) (task : Action κ ε) :
    (s.schedule key delay task).2.weight ≤ s.weight + task.weight + 1 := by
  rw [schedule]
  split
  · simp only
    omega
  · simp only [weight_eq_sum, List.map_append, List.sum_append, List.map_cons, List.map_nil,
      List.sum_cons, List.sum_nil]
    omega

/-- What an action leaves to be done weighs less than the action. -/
theorem runAction_weight_lt (s : Scheduler κ ε) (action : Action κ ε) :
    (runAction s action).2.weight < s.weight + action.weight := by
  induction action generalizing s with
  | finish => simp [runAction, Action.weight]
  | emit event next ih => exact ih s
  | sleep delay next ih =>
    cases delay with
    | zero =>
      have := ih s
      simp only [runAction, Action.weight]
      omega
    | succ delay =>
      simp only [runAction, Action.weight, weight_eq_sum, sum_insertTimer]
      omega
  | schedule key delay task next _ ih =>
    have hnext := ih (s.schedule key delay task).1 (s.schedule key delay task).2
    have htask := schedule_weight_le s key delay task
    -- the weight of an action allows for either way in which it may go on
    have hmax : (next (s.schedule key delay task).1).weight ≤
        max (next true).weight (next false).weight := by
      cases (s.schedule key delay task).1
      · exact Nat.le_max_right _ _
      · exact Nat.le_max_left _ _
    simp only [runAction, Action.weight]
    omega

/-- A step is the start of the first timer, which is due, or else of the first new task. -/
theorem step?_cases {s s' : Scheduler κ ε} {events : List ε} (h : s.step? = some (events, s')) :
    (∃ timer timers, s.timers = timer :: timers ∧ timer.deadline ≤ s.now ∧
      runAction { s with timers := timers } timer.action = (events, s')) ∨
    (∃ task recent, s.recent = task :: recent ∧
      step?.takeUp { s with recent := recent } task = (events, s')) := by
  cases htimers : s.timers with
  | nil =>
    cases hrecent : s.recent with
    | nil => simp [step?, htimers, hrecent] at h
    | cons task recent =>
      simp only [step?, htimers, hrecent, Option.some.injEq] at h
      exact .inr ⟨task, recent, rfl, h⟩
  | cons timer timers =>
    by_cases hdue : timer.deadline ≤ s.now
    · simp only [step?, htimers, if_pos hdue, Option.some.injEq] at h
      exact .inl ⟨timer, timers, rfl, hdue, h⟩
    · cases hrecent : s.recent with
      | nil => simp [step?, htimers, hrecent, hdue] at h
      | cons task recent =>
        simp only [step?, htimers, hrecent, if_neg hdue, Option.some.injEq] at h
        exact .inr ⟨task, recent, rfl, h⟩

/-- Each step takes something off the weight. -/
theorem step?_weight_lt {s s' : Scheduler κ ε} {events : List ε}
    (h : s.step? = some (events, s')) : s'.weight < s.weight := by
  obtain ⟨timer, timers, htimers, _, hrun⟩ | ⟨task, recent, hrecent, htake⟩ := step?_cases h
  · have hlt := runAction_weight_lt { s with timers := timers } timer.action
    rw [hrun] at hlt
    simp only [weight_eq_sum, htimers, List.map_cons, List.sum_cons] at hlt ⊢
    omega
  · have hlt := runAction_weight_lt { s with recent := recent } task.action
    unfold step?.takeUp at htake
    split at htake
    · rw [htake] at hlt
      simp only [weight_eq_sum, hrecent, List.map_cons, List.sum_cons] at hlt ⊢
      omega
    · -- a task that begins to wait is no longer new
      cases htake
      simp only [weight_eq_sum, hrecent, sum_insertTimer, List.map_cons, List.sum_cons]
      omega

/-! ### The end of all steps -/

/-- What every step keeps of the past events and the state, any number of steps keeps. -/
theorem steps_induction {motive : List ε → Scheduler κ ε → Prop}
    (step : ∀ past s events s', motive past s → s.step? = some (events, s') →
      motive (past ++ events) s')
    (limit : Nat) (past : List ε) (s : Scheduler κ ε) (h : motive past s) :
    motive (past ++ (steps limit s).1) (steps limit s).2 := by
  induction limit generalizing past s with
  | zero => simpa [steps] using h
  | succ limit ih =>
    rw [steps]
    split
    · simpa using h
    · rename_i events s' hs
      have hrest := ih (past ++ events) s' (step past s events s' h hs)
      simpa [List.append_assoc] using hrest

/-- As many steps as the weight of a scheduler are all its steps. -/
theorem step?_steps (limit : Nat) (s : Scheduler κ ε) (h : s.weight ≤ limit) :
    (steps limit s).2.step? = none := by
  induction limit generalizing s with
  | zero =>
    cases hs : s.step? with
    | none => simpa [steps] using hs
    | some result =>
      obtain ⟨events, s'⟩ := result
      have := step?_weight_lt hs
      omega
  | succ limit ih =>
    rw [steps]
    split
    · assumption
    · rename_i events s' hs
      have hlt := step?_weight_lt hs
      exact ih s' (by omega)

/-- After `settle` there is no step left. -/
theorem step?_settle (s : Scheduler κ ε) : s.settle.2.step? = none :=
  step?_steps s.weight s (Nat.le_refl _)

/-- Without a step left, no task is new. -/
theorem recent_eq_nil {s : Scheduler κ ε} (h : s.step? = none) : s.recent = [] := by
  cases hrecent : s.recent with
  | nil => rfl
  | cons task recent =>
    cases htimers : s.timers with
    | nil => simp [step?, htimers, hrecent] at h
    | cons timer timers =>
      by_cases hdue : timer.deadline ≤ s.now <;> simp [step?, htimers, hrecent, hdue] at h

/-- Without a step left, timers in order all have a deadline that is still to come. -/
theorem Sorted.lt_deadline {s : Scheduler κ ε} (hs : s.Sorted) (h : s.step? = none) :
    ∀ timer ∈ s.timers, s.now < timer.deadline := by
  intro timer hmem
  rw [Sorted] at hs
  cases htimers : s.timers with
  | nil =>
    rw [htimers] at hmem
    cases hmem
  | cons first timers =>
    have hfirst : s.now < first.deadline := by
      by_cases hdue : first.deadline ≤ s.now
      · simp [step?, htimers, hdue] at h
      · omega
    rw [htimers] at hs hmem
    rcases List.mem_cons.mp hmem with rfl | hmem
    · exact hfirst
    · have := (List.pairwise_cons.mp hs).1 timer hmem
      omega

end Keys

end DropRoom.Scheduler
