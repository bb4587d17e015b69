import DropRoom.Proofs.Scheduler.Record
import DropRoom.Proofs.Scheduler.Tickets

namespace DropRoom

/-!
# Keeping a journal

What a journal says of the tasks that wait is what the scheduler holds, whatever its tasks do.

* `Journal.held`, `Journal.askers` — the tasks that a scheduler holds, and those that may ask for more;
* `Journal.Keeps` — a scheduler and its journal agree;
* `Journal.Keeps.ask`, `Journal.Keeps.runAction`, `Journal.Keeps.steps` — they still do after a task
  was asked for, after a started task ran, and after any number of steps;
* `Journal.Keeps.strike` — they still do after tasks were cancelled.
-/

namespace Journal

variable {κ ε : Type}

/-! ### What a scheduler holds -/

/-- The task that an action says it starts. -/
def starting? : Action κ (Note κ ε) → Option Ticket
  | .emit (.started ticket) _ => some ticket
  | _ => none

/-- Who goes on with an action, and how many tasks it has asked for before. -/
def asker? : Action κ (Note κ ε) → Option (Ticket × Nat)
  | .emit (.started ticket) _ => some (ticket, 0)
  | .emit (.resumed ticket asks) _ => some (ticket, asks)
  | _ => none

/-- The task that a timer holds, if it has not started. -/
def heldByTimer? (timer : Timer κ (Note κ ε)) : Option (Pending κ) :=
  timer.key.bind fun key => (starting? timer.action).map fun ticket => ⟨ticket, key, timer.deadline⟩

/-- The task that is held since some time. -/
def heldAsNew? (now : Nat) (task : Scheduled κ (Note κ ε)) : Option (Pending κ) :=
  (starting? task.action).map fun ticket => ⟨ticket, task.key, now + task.delay⟩

/-- The tasks that a scheduler holds and that have not started. -/
def held (s : Scheduler κ (Note κ ε)) : List (Pending κ) :=
  s.timers.filterMap heldByTimer? ++ s.recent.filterMap (heldAsNew? s.now)

/-- The tasks of a scheduler that may ask for more, with what they have asked for. -/
def askers (s : Scheduler κ (Note κ ε)) : List (Ticket × Nat) :=
  s.timers.filterMap (asker? ·.action) ++ s.recent.filterMap (asker? ·.action)

/-- A scheduler with one more timer. -/
def setTimer (s : Scheduler κ (Note κ ε)) (timer : Timer κ (Note κ ε)) : Scheduler κ (Note κ ε) :=
  { s with timers := Scheduler.insertTimer timer s.timers }

theorem forall_mem_setTimer {P : Timer κ (Note κ ε) → Prop} {s : Scheduler κ (Note κ ε)}
    {timer : Timer κ (Note κ ε)} (htimer : P timer) (hothers : ∀ other ∈ s.timers, P other) :
    ∀ other ∈ (setTimer s timer).timers, P other := by
  intro other hmem
  rcases List.mem_cons.mp ((Scheduler.insertTimer_perm timer s.timers).mem_iff.mp hmem) with
    rfl | hmem
  · exact htimer
  · exact hothers other hmem

theorem held_setTimer (timer : Timer κ (Note κ ε)) (s : Scheduler κ (Note κ ε)) :
    (held (setTimer s timer)).Perm ((heldByTimer? timer).toList ++ held s) := by
  have hperm := (Scheduler.insertTimer_perm timer s.timers).filterMap heldByTimer?
  have := hperm.append_right (s.recent.filterMap (heldAsNew? s.now))
  rw [List.filterMap_cons] at this
  cases htimer : heldByTimer? timer <;> simpa [held, setTimer, htimer] using this

theorem askers_setTimer (timer : Timer κ (Note κ ε)) (s : Scheduler κ (Note κ ε)) :
    (askers (setTimer s timer)).Perm ((asker? timer.action).toList ++ askers s) := by
  have hperm := (Scheduler.insertTimer_perm timer s.timers).filterMap (asker? ·.action)
  have := hperm.append_right (s.recent.filterMap (asker? ·.action))
  rw [List.filterMap_cons] at this
  cases htimer : asker? timer.action <;> simpa [askers, setTimer, htimer] using this

/-- A timer whose task says how it goes on: either the task waits, and says first that it starts, or
it sleeps, and says first that it goes on. -/
inductive TimerFollows : Timer κ (Note κ ε) → Prop
  | waits (deadline : Nat) (key : κ) (action : Action κ ε) (ticket : Ticket) :
    TimerFollows ⟨deadline, some key, begin action ticket⟩
  | sleeps (deadline : Nat) (action : Action κ ε) (ticket : Ticket) (asks : Nat) :
    TimerFollows ⟨deadline, none, .emit (.resumed ticket asks) (follow action ticket asks)⟩

/-- A new task that says when it starts and how it goes on. -/
def NewFollows (task : Scheduled κ (Note κ ε)) : Prop :=
  ∃ (action : Action κ ε) (ticket : Ticket), task.action = begin action ticket

/-- A scheduler and its journal agree, while some tasks run. -/
structure Keeps (journal : List (Entry κ ε)) (s : Scheduler κ (Note κ ε))
    (running : List (Ticket × Nat)) : Prop where
  lawful : Lawful journal
  timers : ∀ timer ∈ s.timers, TimerFollows timer
  recent : ∀ task ∈ s.recent, NewFollows task
  covers : Covers (waiting journal) (held s)
  fresh : Fresh (said Note.asked? journal) (running ++ askers s)

variable {journal : List (Entry κ ε)} {s s' : Scheduler κ (Note κ ε)}
  {running : List (Ticket × Nat)}

theorem keeps_initial : Keeps ([] : List (Entry κ ε)) .initial [([], 0)] where
  lawful := Log.lawful_nil
  timers := by intro timer h; cases h
  recent := by intro task h; cases h
  covers := ⟨.refl _, by intro task h; cases h⟩
  fresh := ⟨by simp [askers, Scheduler.initial], by simp, by simp [askers, Scheduler.initial],
    by simp⟩

/-- The keys that are not free are those of the tasks that wait. -/
theorem Keeps.pendingKeys_perm (h : Keeps journal s running) :
    s.pendingKeys.Perm ((waiting journal).map (·.key)) := by
  have htimers : (s.timers.filterMap heldByTimer?).map (·.key) = s.timers.filterMap (·.key) := by
    rw [List.map_filterMap]
    refine List.filterMap_congr fun timer hmem => ?_
    cases h.timers timer hmem with
    | waits deadline key action ticket => rfl
    | sleeps deadline action ticket asks => rfl
  have hrecent : (s.recent.filterMap (heldAsNew? s.now)).map (·.key) =
      s.recent.map (·.key) := by
    rw [List.map_filterMap, ← List.filterMap_eq_map]
    refine List.filterMap_congr fun task hmem => ?_
    obtain ⟨action, ticket, haction⟩ := h.recent task hmem
    rw [heldAsNew?, haction]
    rfl
  have hkeys := h.covers.keys
  rw [held, List.map_append, htimers, hrecent] at hkeys
  exact hkeys.symm

/-- A scheduler that holds the same tasks in another way, while the same tasks may ask for more,
agrees with the same journal. -/
theorem Keeps.rearrange {others : List (Ticket × Nat)} (h : Keeps journal s running)
    (htimers : ∀ timer ∈ s'.timers, TimerFollows timer)
    (hrecent : ∀ task ∈ s'.recent, NewFollows task)
    (hheld : (held s).Perm (held s'))
    (haskers : (others ++ askers s').Subperm (running ++ askers s)) : Keeps journal s' others where
  lawful := h.lawful
  timers := htimers
  recent := hrecent
  covers := h.covers.of_perm hheld
  fresh := h.fresh.of_subperm haskers

/-- What is noted has nothing to do with the tasks that wait. -/
theorem Keeps.remark (h : Keeps journal s running) (entry : Entry κ ε)
    (hadmits : Admits journal entry) (hsame : entry.after (waiting journal) = waiting journal)
    (hasked : entry.note.asked? = none) : Keeps (journal ++ [entry]) s running where
  lawful := h.lawful.concat hadmits
  timers := h.timers
  recent := h.recent
  covers := by
    rw [waiting_concat, hsame]
    exact h.covers
  fresh := by
    rw [said_concat, hasked]
    simpa using h.fresh

/-- A task that is held starts, once its delay has passed. -/
theorem Keeps.started {task : Pending κ} {time : Nat} (h : Keeps journal s running)
    (hheld : (held s).Perm (task :: held s'))
    (haskers : (askers s).Perm ((task.ticket, 0) :: askers s'))
    (htimers : ∀ timer ∈ s'.timers, timer ∈ s.timers)
    (hrecent : ∀ new ∈ s'.recent, new ∈ s.recent) (hdue : task.due ≤ time) :
    Keeps (journal ++ [⟨time, .started task.ticket⟩]) s' ((task.ticket, 0) :: running) := by
  have hcovers := h.covers.of_perm hheld
  obtain ⟨waits, hwaits, hticket, hearly⟩ := hcovers.mem
  refine ⟨h.lawful.concat ⟨waits, hwaits, hticket, Nat.le_trans hearly hdue⟩,
    fun timer hmem => h.timers timer (htimers timer hmem),
    fun new hmem => h.recent new (hrecent new hmem), ?_, ?_⟩
  · rw [waiting_concat]
    exact hcovers.remove h.lawful.tickets_nodup
  · rw [said_concat]
    have hperm : (running ++ askers s).Perm ((task.ticket, 0) :: running ++ askers s') :=
      (haskers.append_left running).trans List.perm_middle
    have := h.fresh.of_subperm hperm.symm.subperm
    simpa [Note.asked?] using this

/-- What has happened goes on with these notes, and the scheduler after them still agrees with the
journal.  None of the notes is a cancellation. -/
structure Continues (journal : List (Entry κ ε)) (running : List (Ticket × Nat)) (now : Nat)
    (outcome : List (Note κ ε) × Scheduler κ (Note κ ε)) : Prop where
  keeps : Keeps (journal ++ stamped now outcome.1) outcome.2 running
  now_eq : outcome.2.now = now
  spares : outcome.1.filterMap Note.cancelled? = []

/-- Nothing is noted. -/
theorem Keeps.continues (h : Keeps journal s running) : Continues journal running s.now ([], s) where
  keeps := by
    rw [stamped_nil, List.append_nil]
    exact h
  now_eq := rfl
  spares := rfl

/-- One note stands before the others. -/
theorem Continues.cons {note : Note κ ε} {now : Nat}
    {outcome : List (Note κ ε) × Scheduler κ (Note κ ε)}
    (h : Continues (journal ++ [⟨now, note⟩]) running now outcome)
    (hnote : note.cancelled? = none) :
    Continues journal running now (note :: outcome.1, outcome.2) where
  keeps := by
    have hkeeps := h.keeps
    rwa [List.append_assoc] at hkeeps
  now_eq := h.now_eq
  spares := by
    rw [List.filterMap_cons_none hnote]
    exact h.spares

/-- Time passes, and the tasks do nothing. -/
theorem Keeps.wait (h : Keeps journal s running) (milliseconds : Nat) :
    Keeps journal { s with now := s.now + milliseconds } running := by
  have hlabel (task : Scheduled κ (Note κ ε)) :
      (heldAsNew? (s.now + milliseconds) task).map (fun task => (task.ticket, task.key)) =
        (heldAsNew? s.now task).map fun task => (task.ticket, task.key) := by
    rw [heldAsNew?, heldAsNew?, Option.map_map, Option.map_map]
    rfl
  refine ⟨h.lawful, h.timers, h.recent, h.covers.later ?_ fun late hlate => ?_, h.fresh⟩
  · simp only [held, List.map_append, List.map_filterMap, hlabel]
  · rcases List.mem_append.mp hlate with hlate | hlate
    · exact ⟨late, List.mem_append_left _ hlate, rfl, Nat.le_refl _⟩
    · obtain ⟨task, htask, hsome⟩ := List.mem_filterMap.mp hlate
      obtain ⟨ticket, hticket, rfl⟩ := Option.map_eq_some_iff.mp hsome
      refine ⟨⟨ticket, task.key, s.now + task.delay⟩, List.mem_append_right _ ?_, rfl, by simp⟩
      exact List.mem_filterMap.mpr ⟨task, htask, by rw [heldAsNew?, hticket]; rfl⟩

section Keys

variable [DecidableEq κ]

theorem Keeps.isPending_iff (h : Keeps journal s running) (key : κ) :
    s.isPending key = true ↔ ∃ task ∈ waiting journal, task.key = key := by
  rw [Scheduler.isPending, decide_eq_true_eq, h.pendingKeys_perm.mem_iff, List.mem_map]

/-! ### Asking for tasks -/

/-- A task is asked for.  It is accepted exactly if no task waits under its key. -/
theorem Keeps.ask {ticket : Ticket} {asks : Nat} (h : Keeps journal s ((ticket, asks) :: running))
    (key : κ) (delay : Nat) (action : Action κ ε) :
    Keeps
      (journal ++ [⟨s.now, .asked (asks :: ticket) key delay
        (s.schedule key delay (begin action (asks :: ticket))).1⟩])
      (s.schedule key delay (begin action (asks :: ticket))).2 ((ticket, asks + 1) :: running) := by
  have hfresh := h.fresh
  rw [List.cons_append] at hfresh
  obtain ⟨hnew, hfresh⟩ := hfresh.ask
  by_cases hpending : s.isPending key = true
  -- refused: the ticket is used up, and nothing else changes
  · rw [Scheduler.schedule, if_pos hpending]
    obtain ⟨task, htask, hkey⟩ := (h.isPending_iff key).mp hpending
    refine ⟨h.lawful.concat ⟨hnew, by simpa using ⟨task, htask, hkey⟩⟩, h.timers, h.recent, ?_, ?_⟩
    · rw [waiting_concat]
      exact h.covers
    · rw [said_concat]
      exact hfresh.of_subperm (List.sublist_cons_self _ _).subperm
  -- accepted: one more task waits, and it has asked for nothing yet
  · rw [Scheduler.schedule, if_neg hpending]
    have hfree : ∀ task ∈ waiting journal, task.key ≠ key := fun task htask hkey =>
      hpending ((h.isPending_iff key).mpr ⟨task, htask, hkey⟩)
    have hheld : held { s with recent := s.recent ++ [⟨key, delay, begin action (asks :: ticket)⟩] } =
        held s ++ [⟨asks :: ticket, key, s.now + delay⟩] := by
      simp only [held, List.filterMap_append, List.append_assoc]
      rfl
    have haskers :
        askers { s with recent := s.recent ++ [⟨key, delay, begin action (asks :: ticket)⟩] } =
          askers s ++ [(asks :: ticket, 0)] := by
      simp only [askers, List.filterMap_append, List.append_assoc]
      rfl
    refine ⟨h.lawful.concat ⟨hnew, by simpa using hfree⟩, h.timers, fun task htask => ?_, ?_, ?_⟩
    · rcases List.mem_append.mp htask with htask | htask
      · exact h.recent task htask
      · exact ⟨action, asks :: ticket, by rw [List.mem_singleton.mp htask]⟩
    · rw [waiting_concat, hheld]
      refine h.covers.add _ fun task htask (hsame : task.ticket = asks :: ticket) => hnew ?_
      exact hsame ▸ h.lawful.mem_asked htask
    · rw [said_concat, haskers]
      refine hfresh.of_subperm (List.Perm.subperm ?_)
      rw [← List.append_assoc]
      exact List.perm_append_singleton _ _

/-! ### Running tasks -/

/-- A started task runs until it sleeps or ends. -/
theorem Keeps.runAction {ticket : Ticket} {asks : Nat} (action : Action κ ε)
    (h : Keeps journal s ((ticket, asks) :: running)) :
    Continues journal running s.now (Scheduler.runAction s (follow action ticket asks)) := by
  induction action generalizing journal s asks with
  | finish =>
    exact (h.rearrange h.timers h.recent (.refl _) (List.sublist_cons_self _ _).subperm).continues
  | emit event next ih => exact (ih (h.remark ⟨s.now, .made event⟩ trivial rfl rfl)).cons rfl
  | sleep delay next ih =>
    cases delay with
    | zero => exact (ih (h.remark ⟨s.now, .resumed ticket asks⟩ trivial rfl rfl)).cons rfl
    | succ delay =>
      let timer : Timer κ (Note κ ε) :=
        ⟨s.now + (delay + 1), none, .emit (.resumed ticket asks) (follow next ticket asks)⟩
      have hslept : Keeps journal (setTimer s timer) running := by
        refine h.rearrange (forall_mem_setTimer (.sleeps _ next ticket asks) h.timers) h.recent
          (held_setTimer timer s).symm (List.Perm.subperm ?_)
        -- who ran before is now one of those who sleep
        exact ((askers_setTimer timer s).append_left running).trans List.perm_middle
      exact hslept.continues
  | schedule key delay task next _ ih =>
    have hnext := ih (s.schedule key delay (begin task (asks :: ticket))).1 (h.ask key delay task)
    have hnow : (s.schedule key delay (begin task (asks :: ticket))).2.now = s.now := by
      rw [Scheduler.schedule]
      split <;> rfl
    rw [hnow] at hnext
    exact hnext.cons rfl

/-- One step. -/
theorem Keeps.step? {outcome : List (Note κ ε) × Scheduler κ (Note κ ε)}
    (h : Keeps journal s running) (hstep : s.step? = some outcome) :
    Continues journal running s.now outcome := by
  obtain ⟨notes, after⟩ := outcome
  obtain ⟨timer, timers, htimers, hdue, hrun⟩ | ⟨task, recent, hrecent, htake⟩ :=
    Scheduler.step?_cases hstep
  · have hothers : ∀ other ∈ timers, other ∈ s.timers := fun other hmem =>
      htimers ▸ List.mem_cons_of_mem timer hmem
    cases h.timers timer (htimers ▸ List.mem_cons_self) with
    | waits deadline key action ticket =>
      -- a task whose delay has passed starts
      have hheld : held s = ⟨ticket, key, deadline⟩ :: held { s with timers := timers } := by
        rw [held, htimers]
        rfl
      have haskers : askers s = (ticket, 0) :: askers { s with timers := timers } := by
        rw [askers, htimers]
        rfl
      have hstarted := h.started (.of_eq hheld) (.of_eq haskers) hothers (fun _ hmem => hmem) hdue
      rw [← hrun]
      exact (hstarted.runAction action).cons rfl
    | sleeps deadline action ticket asks =>
      -- a task that slept goes on
      have hheld : held s = held { s with timers := timers } := by
        rw [held, htimers]
        rfl
      have haskers : askers s = (ticket, asks) :: askers { s with timers := timers } := by
        rw [askers, htimers]
        rfl
      have hwoken : Keeps journal { s with timers := timers } ((ticket, asks) :: running) := by
        refine h.rearrange (fun other hmem => h.timers other (hothers other hmem)) h.recent
          (.of_eq hheld) (List.Perm.subperm ?_)
        rw [haskers]
        exact List.perm_middle.symm
      rw [← hrun]
      exact ((hwoken.remark ⟨s.now, .resumed ticket asks⟩ trivial rfl rfl).runAction action).cons rfl
  · obtain ⟨key, delay, begun⟩ := task
    obtain ⟨action, ticket, haction⟩ := h.recent _ (hrecent ▸ List.mem_cons_self)
    simp only at haction
    subst haction
    have hothers : ∀ other ∈ recent, other ∈ s.recent := fun other hmem =>
      hrecent ▸ List.mem_cons_of_mem _ hmem
    have hheld : (held s).Perm
        (⟨ticket, key, s.now + delay⟩ :: held { s with recent := recent }) := by
      rw [held, hrecent]
      exact List.perm_middle
    have haskers : (askers s).Perm ((ticket, 0) :: askers { s with recent := recent }) := by
      rw [askers, hrecent]
      exact List.perm_middle
    rw [← htake]
    cases delay with
    | zero =>
      have hstarted := h.started hheld haskers (fun _ hmem => hmem) hothers (Nat.le_refl s.now)
      exact (hstarted.runAction action).cons rfl
    | succ delay =>
      -- a task with a delay is held as a timer from now on
      let timer : Timer κ (Note κ ε) := ⟨s.now + (delay + 1), some key, begin action ticket⟩
      have hset : Keeps journal (setTimer { s with recent := recent } timer) running := by
        refine h.rearrange (forall_mem_setTimer (.waits _ key action ticket) h.timers)
          (fun other hmem => h.recent other (hothers other hmem)) ?_ (List.Perm.subperm ?_)
        · exact hheld.trans (held_setTimer timer { s with recent := recent }).symm
        · have hmoved := askers_setTimer timer { s with recent := recent }
          exact (hmoved.trans haskers.symm).append_left running
      exact hset.continues

/-- Any number of steps. -/
theorem Keeps.steps (h : Keeps journal s running) (limit : Nat) :
    Continues journal running s.now (Scheduler.steps limit s) := by
  refine Scheduler.steps_induction
    (motive := fun past t => Continues journal running s.now (past, t)) ?_ limit [] s h.continues
  intro past t notes t' hpast hstep
  have hmore := hpast.keeps.step? hstep
  rw [hpast.now_eq] at hmore
  refine ⟨?_, hmore.now_eq, ?_⟩
  · rw [stamped_append, ← List.append_assoc]
    exact hmore.keeps
  · rw [List.filterMap_append, hpast.spares, hmore.spares]
    rfl

end Keys

/-! ### Cancelling -/

/-- Tasks that wait are cancelled one after the other, and the others still wait. -/
theorem Lawful.strike {gone : List (Pending κ)} (h : Lawful journal) (time : Nat)
    (hgone : ∀ task ∈ gone, task ∈ waiting journal) (hnodup : (gone.map (·.ticket)).Nodup) :
    Lawful (journal ++ stamped time (cancellations gone)) ∧
      waiting (journal ++ stamped time (cancellations gone)) =
        (waiting journal).filter fun task => task.ticket ∉ gone.map (·.ticket) := by
  induction gone generalizing journal with
  | nil => simpa [cancellations] using h
  | cons first gone ih =>
    rw [List.forall_mem_cons] at hgone
    rw [List.map_cons, List.nodup_cons] at hnodup
    have hfirst : Lawful (journal ++ [⟨time, .cancelled first.ticket⟩]) :=
      h.concat ⟨first, hgone.1, rfl⟩
    have hwaiting : waiting (journal ++ [⟨time, .cancelled first.ticket⟩]) =
        (waiting journal).filter (·.ticket ≠ first.ticket) := waiting_concat _ _
    obtain ⟨hlawful, hrest⟩ := ih hfirst (fun task htask => by
      rw [hwaiting]
      refine List.mem_filter.mpr ⟨hgone.2 task htask, decide_eq_true fun hsame => hnodup.1 ?_⟩
      exact hsame ▸ List.mem_map_of_mem htask) hnodup.2
    rw [List.append_assoc] at hlawful hrest
    refine ⟨hlawful, hrest.trans ?_⟩
    rw [hwaiting, List.filter_filter]
    refine List.filter_congr fun task _ => ?_
    simp only [List.map_cons, List.mem_cons, not_or, Bool.decide_and, ne_eq, decide_not,
      Bool.and_comm]

/-- The tasks under some keys are cancelled. -/
theorem Keeps.strike (h : Keeps journal s running) (time : Nat) (gone : κ → Bool)
    (hheld : held s' = (held s).filter fun task => !gone task.key)
    (haskers : (askers s').Sublist (askers s))
    (htimers : ∀ timer ∈ s'.timers, timer ∈ s.timers)
    (hrecent : ∀ task ∈ s'.recent, task ∈ s.recent) :
    Keeps (journal ++ stamped time
      (cancellations ((waiting journal).filter fun task => gone task.key))) s' running := by
  have htickets := h.lawful.tickets_nodup
  obtain ⟨hlawful, hwaiting⟩ := h.lawful.strike time
    (fun task (htask : task ∈ (waiting journal).filter fun task => gone task.key) =>
      (List.mem_filter.mp htask).1)
    ((List.filter_sublist.map _).nodup htickets)
  -- tickets tell tasks apart, so no task under another key goes
  have hrest : ((waiting journal).filter fun task => task.ticket ∉
      ((waiting journal).filter fun task => gone task.key).map (·.ticket)) =
      (waiting journal).filter fun task => !gone task.key := by
    refine List.filter_congr fun task htask => ?_
    have hiff : task.ticket ∈
        ((waiting journal).filter fun task => gone task.key).map (·.ticket) ↔
        gone task.key = true := by
      constructor
      · intro hmem
        obtain ⟨other, hother, hsame⟩ := List.mem_map.mp hmem
        obtain ⟨hother, hgone⟩ := List.mem_filter.mp hother
        rwa [List.inj_on_of_nodup_map htickets hother htask hsame] at hgone
      · intro hgone
        exact List.mem_map_of_mem (List.mem_filter.mpr ⟨htask, hgone⟩)
    simp only [hiff, Bool.not_eq_true, Bool.decide_eq_false]
  have hasked : said Note.asked? (journal ++ stamped time
      (cancellations ((waiting journal).filter fun task => gone task.key))) =
      said Note.asked? journal := by
    rw [said_append, said_stamped, cancellations, List.filterMap_map]
    simp [Note.asked?, Function.comp_def]
  refine ⟨hlawful, fun timer hmem => h.timers timer (htimers timer hmem),
    fun task hmem => h.recent task (hrecent task hmem), ?_, ?_⟩
  · rw [hwaiting, hrest, hheld]
    exact h.covers.filter fun label => !gone label.2
  · rw [hasked]
    exact h.fresh.of_subperm (haskers.append_left running).subperm

end Journal

end DropRoom
