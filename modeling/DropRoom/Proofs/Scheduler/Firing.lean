import DropRoom.Proofs.Scheduler.Deadlines

namespace DropRoom.Scheduler

/-!
# Keys and their deadlines

* `count_pendingKeys` — a key is not free as often as it has deadlines;
* `deadlines_cancel` — a key whose task is cancelled has none;
* `Plain.step?_fires` — a step makes the effect of at most one key happen, and takes one deadline off
  that key.
-/

variable {κ ε : Type} [DecidableEq κ] {effect : κ → ε}

/-- Each task under a key has a deadline. -/
theorem count_pendingKeys (s : Scheduler κ ε) (key : κ) :
    s.pendingKeys.count key = (s.deadlines key).length := by
  have htimers : (s.timers.filterMap (·.key)).count key =
      (s.timers.filter fun timer => timer.key = some key).length := by
    rw [List.count, List.countP_filterMap, List.countP_eq_length_filter]
    congr 2
    funext timer
    cases timer.key with
    | none => rfl
    | some other => by_cases hkey : other = key <;> simp [hkey]
  have hrecent : (s.recent.map (·.key)).count key =
      (s.recent.filter fun task => task.key = key).length := by
    rw [List.count, List.countP_map, List.countP_eq_length_filter]
    congr 2
  rw [pendingKeys, List.count_append, htimers, hrecent, deadlines, List.length_append,
    List.length_map, List.length_map]

theorem deadlines_ne_nil_of_timer {s : Scheduler κ ε} {timer : Timer κ ε} {key : κ}
    (htimer : timer ∈ s.timers) (hkey : timer.key = some key) : s.deadlines key ≠ [] := by
  have hmem : timer.deadline ∈ s.deadlines key :=
    List.mem_append_left _ (List.mem_map_of_mem (List.mem_filter.mpr ⟨htimer, decide_eq_true hkey⟩))
  exact List.ne_nil_of_mem hmem

theorem deadlines_ne_nil_of_new {s : Scheduler κ ε} {task : Scheduled κ ε} {key : κ}
    (htask : task ∈ s.recent) (hkey : task.key = key) : s.deadlines key ≠ [] := by
  have hmem : s.now + task.delay ∈ s.deadlines key :=
    List.mem_append_right _ (List.mem_map.mpr
      ⟨task, List.mem_filter.mpr ⟨htask, decide_eq_true hkey⟩, rfl⟩)
  exact List.ne_nil_of_mem hmem

/-- A key whose task is cancelled is free. -/
theorem deadlines_cancel (s : Scheduler κ ε) (key : κ) : (s.cancel key).2.deadlines key = [] := by
  simp only [deadlines, cancel, List.filter_filter, List.append_eq_nil_iff, List.map_eq_nil_iff,
    List.filter_eq_nil_iff]
  constructor
  · intro timer _
    by_cases hkey : timer.key = some key <;> simp [hkey]
  · intro task _
    by_cases hkey : task.key = key <;> simp [hkey]

/-- **One key at a time.** Either nothing happens in a step, and the deadlines stay as they are; or the
effect of one key happens, which loses a deadline that has come, and all others stay as they are. -/
theorem Plain.step?_fires [DecidableEq ε] (heffect : Function.Injective effect)
    {s : Scheduler κ ε} {outcome : List ε × Scheduler κ ε} (hp : s.Plain effect)
    (h : s.step? = some outcome) :
    (outcome.1 = [] ∧ ∀ key, (s.deadlines key).Perm (outcome.2.deadlines key)) ∨
    (∃ key due, outcome.1 = [effect key] ∧ due ≤ s.now ∧
      (s.deadlines key).Perm (due :: outcome.2.deadlines key) ∧
      ∀ other, other ≠ key → (s.deadlines other).Perm (outcome.2.deadlines other)) := by
  obtain ⟨events, s'⟩ := outcome
  have hdeadlines (key : κ) := hp.step?_deadlines heffect h key
  -- where the effect of a key does not happen, the key keeps its deadlines
  have hkept (key : κ) (hcount : events.count (effect key) = 0) :
      (s.deadlines key).Perm (s'.deadlines key) := by
    obtain ⟨started, _, hlength, hperm⟩ := hdeadlines key
    rw [List.eq_nil_of_length_eq_zero (hlength.trans hcount)] at hperm
    exact hperm
  have hfired (key : κ) (hevents : events = [effect key]) :
      ∃ key due, events = [effect key] ∧ due ≤ s.now ∧
        (s.deadlines key).Perm (due :: s'.deadlines key) ∧
        ∀ other, other ≠ key → (s.deadlines other).Perm (s'.deadlines other) := by
    obtain ⟨started, hdue, hlength, hperm⟩ := hdeadlines key
    rw [hevents, List.count_singleton_self] at hlength
    obtain ⟨due, rfl⟩ := List.length_eq_one_iff.mp hlength
    refine ⟨key, due, hevents, hdue due List.mem_cons_self, hperm, fun other hother => ?_⟩
    refine hkept other ?_
    rw [hevents, List.count_eq_zero]
    intro hmem
    exact hother (heffect (List.mem_singleton.mp hmem))
  obtain ⟨_, key, _, _, _, hevents, _⟩ | ⟨key, _, _, hevents, _⟩ | ⟨_, _, _, _, hevents, _⟩ :=
    hp.step?_cases h
  · exact .inr (hfired key hevents)
  · exact .inr (hfired key hevents)
  · exact .inl ⟨hevents, fun key => hkept key (by rw [hevents]; rfl)⟩

end DropRoom.Scheduler
