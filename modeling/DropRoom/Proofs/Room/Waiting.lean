import DropRoom.Proofs.Room.Reconnecting
import DropRoom.Proofs.Settings.Check
import DropRoom.Proofs.Settings.Waits
import Mathlib.Control.Monad.Basic

namespace DropRoom.Room.Reader

/-!
# Readers that do not wait

The check of settings sees to a first wait, but not to a longest one.  Where the longest wait is
none, a reader opens its stream again at once, and as often as the stream breaks.

* `wait?_of_reconnecting` — a reader waits as its policy says;
* `run_of_breaks` — what a reader tells of a stream that breaks whenever it is open;
* `waits_unless_longest_is_none` — when readers of settings that pass their check wait.
-/

variable {policy : Reconnection} {backoff : Backoff}

/-- A reader waits before an attempt as long as its policy says. -/
theorem wait?_of_reconnecting {connections : List Connection} {attempt : UInt32} {delay : Nat}
    (h : .reconnecting attempt delay ∈ run policy initial connections) :
    policy.wait? attempt = some delay := by
  obtain ⟨before, rest, htold⟩ := List.append_of_mem h
  obtain ⟨_, hwait, _⟩ := (initial_agrees policy).announced htold
  exact hwait

/-- A stream that breaks is opened again, and that is always the first attempt since it was open. -/
theorem step_of_break {delay : Nat} (hwait : backoff.wait? 1 = some delay) (r : Reader)
    (reason : String) :
    r.step (.backoff backoff) (.accepted [] (.broken reason)) =
      ([.opened, .reconnecting 1 delay], some ⟨true, 1⟩) := by
  have hretry : retry (.backoff backoff) 0 reason = ([.reconnecting 1 delay], some ⟨true, 1⟩) := by
    rw [retry]
    simp only [UInt32.zero_add, hwait]
  simp only [step, hretry]
  rfl

/-- The attempts are never used up by a stream that breaks whenever it is open. -/
theorem run_of_breaks {delay : Nat} (hwait : backoff.wait? 1 = some delay) (r : Reader)
    (reason : String) (count : Nat) :
    run (.backoff backoff) r (List.replicate count (.accepted [] (.broken reason))) =
      (List.replicate count [.opened, .reconnecting 1 delay]).flatten := by
  induction count generalizing r with
  | zero => rfl
  | succ count ih =>
    simp only [List.replicate_succ, run, step_of_break hwait, ih, List.flatten_cons]

/-- After a first wait, readers never open their stream again at once exactly if the longest wait is
positive, or if there is no attempt. -/
theorem reconnecting_pos_iff (hfirst : backoff.initialDelay ≠ 0) :
    (∀ connections attempt delay,
        .reconnecting attempt delay ∈ run (.backoff backoff) initial connections → 0 < delay) ↔
      backoff.maxDelay ≠ 0 ∨ backoff.maxAttempts = 0 := by
  constructor
  · intro hpos
    refine Decidable.or_iff_not_imp_right.mpr fun hattempts hnone => ?_
    have hwait := Backoff.wait?_one_of_maxDelay_eq_zero hnone hattempts
    -- a single break is enough
    refine Nat.lt_irrefl 0 (hpos (List.replicate 1 (.accepted [] (.broken ""))) 1 0 ?_)
    rw [run_of_breaks hwait]
    decide
  · intro hlongest connections attempt delay htold
    exact (Backoff.waits_pos_iff hfirst).mpr hlongest attempt delay (wait?_of_reconnecting htold)

/-- **Readers that wait.** For settings that pass their check, all waits before attempts are
positive exactly if the longest wait is, or if there are no attempts.  It is the same for what
readers do: they never open their stream again at once, whatever becomes of their connections.
Where the longest wait is none, a stream that keeps breaking is opened again and again without any
wait. -/
theorem waits_unless_longest_is_none [Url.DomainNames] {settings : Settings}
    (hcheck : settings.check = .ok ()) (hpolicy : settings.reconnection = .backoff backoff) :
    ((∀ attempt delay, settings.reconnection.wait? attempt = some delay → 0 < delay) ↔
      backoff.maxDelay ≠ 0 ∨ backoff.maxAttempts = 0) ∧
    ((∀ connections attempt delay,
        .reconnecting attempt delay ∈ run settings.reconnection initial connections → 0 < delay) ↔
      backoff.maxDelay ≠ 0 ∨ backoff.maxAttempts = 0) ∧
    (backoff.maxDelay = 0 → backoff.maxAttempts ≠ 0 → ∀ reason count,
      run settings.reconnection initial (List.replicate count (.accepted [] (.broken reason))) =
        (List.replicate count [.opened, .reconnecting 1 0]).flatten) := by
  obtain ⟨_, _, _, _, hfirst⟩ := Settings.check_eq_ok.mp hcheck
  rw [hpolicy] at hfirst ⊢
  have hfirst : backoff.initialDelay ≠ 0 := bne_iff_ne.mp hfirst
  refine ⟨Backoff.waits_pos_iff hfirst, reconnecting_pos_iff hfirst, ?_⟩
  intro hnone hattempts reason count
  exact run_of_breaks (Backoff.wait?_one_of_maxDelay_eq_zero hnone hattempts) initial reason count

/-- Settings with a first wait and no longest one pass their check, and a stream that broke twice
was opened again at once each time. -/
theorem waits_unless_longest_is_none_of_no_longest :
    let settings := { Settings.ofBaseUrl "http://localhost:8080" with
      reconnection := .backoff ⟨500, 0, 3⟩ }
    settings.check = .ok () ∧
      ¬ (∀ attempt delay, settings.reconnection.wait? attempt = some delay → 0 < delay) ∧
      run settings.reconnection initial [.accepted [] (.broken "a"), .accepted [] (.broken "a")] =
        [.opened, .reconnecting 1 0, .opened, .reconnecting 1 0] := by
  intro settings
  have hcheck : settings.check = .ok () := by decide +kernel
  obtain ⟨hwaits, _, hbreaks⟩ := waits_unless_longest_is_none hcheck rfl
  exact ⟨hcheck, fun hpos => absurd (hwaits.mp hpos) (by decide),
    hbreaks rfl (by decide) "a" 2⟩

end DropRoom.Room.Reader
