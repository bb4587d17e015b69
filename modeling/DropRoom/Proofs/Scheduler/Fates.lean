import DropRoom.Proofs.Scheduler.Keeping

namespace DropRoom

/-!
# What becomes of tasks

* `Record.Agrees` — the scheduler of a record holds the tasks that wait by its journal, and
  `Record.Agrees.run`, that it does after any moves;
* `Record.Agrees.cancelled_move` — as many tasks are cancelled as the answers say;
* `Scheduler.every_task_has_one_fate` — accepted tasks wait, start once and not too early, or are
  cancelled and never start.
-/

namespace Journal

variable {κ ε : Type} {journal : List (Entry κ ε)} {s : Scheduler κ (Note κ ε)}
  {running : List (Ticket × Nat)}

theorem said_cancelled_cancellations (tasks : List (Pending κ)) (time : Nat) :
    said Note.cancelled? (stamped time (cancellations tasks : List (Note κ ε))) =
      tasks.map (·.ticket) := by
  rw [said_stamped, cancellations, List.filterMap_map, ← List.filterMap_eq_map]
  rfl

/-- To cancel all tasks leaves none that are held. -/
theorem held_cancelAll (s : Scheduler κ (Note κ ε)) : held s.cancelAll.2 = [] := by
  show (s.timers.filter fun timer => timer.key.isNone).filterMap heldByTimer? ++ [] = []
  rw [List.append_nil, List.filterMap_eq_nil_iff]
  intro timer htimer
  rw [heldByTimer?, Option.isNone_iff_eq_none.mp (List.mem_filter.mp htimer).2]
  rfl

/-- All tasks are cancelled. -/
theorem Keeps.cancelAll (h : Keeps journal s running) :
    Keeps (journal ++ stamped s.now (cancellations (waiting journal))) s.cancelAll.2 running := by
  have hheld : held s.cancelAll.2 = (held s).filter fun _ => !true := by
    rw [held_cancelAll]
    exact (List.filter_false _).symm
  have hall := h.strike s.now (fun _ => true) hheld
    ((List.filter_sublist.filterMap _).append (List.nil_sublist _))
    (fun _ hmem => (List.mem_filter.mp hmem).1) fun _ hmem => absurd hmem List.not_mem_nil
  rwa [List.filter_true] at hall

section Keys

variable [DecidableEq κ]

/-- To cancel the task under a key takes it from those that are held. -/
theorem held_cancel (s : Scheduler κ (Note κ ε)) (key : κ) :
    held (s.cancel key).2 = (held s).filter fun task => !decide (task.key = key) := by
  -- tasks that started are under no key and are not held, so the filters agree on them
  have htimers : (s.timers.filter fun timer => timer.key != some key).filterMap heldByTimer? =
      (s.timers.filterMap heldByTimer?).filter fun task => !decide (task.key = key) := by
    rw [List.filterMap_filter, List.filter_filterMap]
    refine List.filterMap_congr fun timer _ => ?_
    obtain ⟨deadline, key?, action⟩ := timer
    cases key? with
    | none => rfl
    | some other =>
      by_cases hkey : other = key <;>
        cases hticket : starting? action <;> simp [heldByTimer?, hkey, hticket, Option.filter]
  have hrecent : (s.recent.filter fun task => task.key != key).filterMap (heldAsNew? s.now) =
      (s.recent.filterMap (heldAsNew? s.now)).filter fun task => !decide (task.key = key) := by
    rw [List.filterMap_filter, List.filter_filterMap]
    refine List.filterMap_congr fun task _ => ?_
    by_cases hkey : task.key = key <;>
      cases hticket : starting? task.action <;> simp [heldAsNew?, hkey, hticket, Option.filter]
  show (s.timers.filter fun timer => timer.key != some key).filterMap heldByTimer? ++
    (s.recent.filter fun task => task.key != key).filterMap (heldAsNew? s.now) = _
  rw [htimers, hrecent, held, List.filter_append]

/-- The task under a key is cancelled. -/
theorem Keeps.cancel (h : Keeps journal s running) (key : κ) :
    Keeps (journal ++ stamped s.now (cancellations ((waiting journal).filter (·.key = key))))
      (s.cancel key).2 running :=
  h.strike s.now (fun other => decide (other = key)) (held_cancel s key)
    ((List.filter_sublist.filterMap _).append (List.filter_sublist.filterMap _))
    (fun _ hmem => (List.mem_filter.mp hmem).1) fun _ hmem => (List.mem_filter.mp hmem).1

/-- At most one task waits under a key, and one does exactly if the key is not free. -/
theorem Keeps.length_filter_key (h : Keeps journal s running) (key : κ) :
    ((waiting journal).filter (·.key = key)).length = if s.isPending key then 1 else 0 := by
  have hcount : ((waiting journal).filter (·.key = key)).length =
      ((waiting journal).map (·.key)).count key := by
    rw [← List.countP_eq_length_filter, List.count, List.countP_map]
    rfl
  rw [hcount, h.lawful.keys_nodup.count]
  simp only [h.isPending_iff, List.mem_map]

end Keys

end Journal

open Journal (Ticket Note Entry Pending begin follow waiting said stamped cancellations Keeps)

namespace Record

variable {κ ε : Type} {r : Record κ ε}

/-- The scheduler of a record holds the tasks that wait by its journal. -/
def Agrees (r : Record κ ε) : Prop :=
  Keeps r.journal r.scheduler [([], r.calls)]

theorem agrees_initial : (initial : Record κ ε).Agrees :=
  Journal.keeps_initial

/-- The keys that are not free are those of the tasks that wait. -/
theorem Agrees.pendingKeys_perm (h : r.Agrees) :
    r.erased.pendingKeys.Perm ((waiting r.journal).map (·.key)) := by
  rw [erased, Scheduler.pendingKeys_filterMap]
  exact Keeps.pendingKeys_perm h

variable [DecidableEq κ]

theorem Agrees.move (h : r.Agrees) (move : Scheduler.Move κ ε) : (r.move move).Agrees := by
  cases move with
  | schedule key delay action => exact Keeps.ask h key delay action
  | cancel key => exact Keeps.cancel h key
  | cancelAll => exact Keeps.cancelAll h
  | step =>
    show Agrees (r.move .step)
    rw [Record.move]
    cases hstep : r.scheduler.step? with
    | none => exact h
    | some outcome => exact (Keeps.step? h hstep).keeps
  | wait milliseconds => exact Keeps.wait h milliseconds
  | advance milliseconds => exact ((Keeps.wait h milliseconds).steps _).keeps

/-- A record agrees with its journal after any moves. -/
theorem Agrees.run (h : r.Agrees) (moves : List (Scheduler.Move κ ε)) : (r.run moves).Agrees := by
  induction moves generalizing r with
  | nil => exact h
  | cons move moves ih => exact ih (h.move move)

/-- A move cancels as many tasks as its answer says. -/
theorem Agrees.cancelled_move (h : r.Agrees) (move : Scheduler.Move κ ε) :
    (said Note.cancelled? (r.move move).journal).length =
      (said Note.cancelled? r.journal).length + r.erased.cancelledBy move := by
  -- what tasks say of themselves is never that one was cancelled
  have hspares {notes : List (Note κ ε)} {time : Nat}
      (hnotes : notes.filterMap Note.cancelled? = []) :
      (said Note.cancelled? (r.journal ++ stamped time notes)).length =
        (said Note.cancelled? r.journal).length + 0 := by
    rw [Journal.said_append, Journal.said_stamped, hnotes, List.append_nil]
    rfl
  cases move with
  | schedule key delay action =>
    show (said Note.cancelled? (r.journal ++ [_])).length = _ + 0
    rw [Journal.said_concat]
    simp [Note.cancelled?]
  | cancel key =>
    show (said Note.cancelled? (r.journal ++ stamped _ _)).length = _ +
      if (r.erased.cancel key).1 then 1 else 0
    rw [Journal.said_append, Journal.said_cancelled_cancellations, List.length_append,
      List.length_map, Keeps.length_filter_key h key, erased, Scheduler.cancel_filterMap]
    rfl
  | cancelAll =>
    show (said Note.cancelled? (r.journal ++ stamped _ _)).length = _ + r.erased.cancelAll.1
    have hcount : r.scheduler.pendingCount = (waiting r.journal).length := by
      rw [Scheduler.pendingCount, (Keeps.pendingKeys_perm h).length_eq, List.length_map]
    rw [Journal.said_append, Journal.said_cancelled_cancellations, List.length_append,
      List.length_map, ← hcount, erased, Scheduler.cancelAll_filterMap]
    rfl
  | step =>
    show (said Note.cancelled? (r.move .step).journal).length = _ + 0
    rw [Record.move]
    cases hstep : r.scheduler.step? with
    | none => rfl
    | some outcome => exact hspares (Keeps.step? h hstep).spares
  | wait milliseconds => rfl
  | advance milliseconds => exact hspares ((Keeps.wait h milliseconds).steps _).spares

/-- Moves cancel as many tasks as their answers say. -/
theorem Agrees.cancelled_run (h : r.Agrees) (moves : List (Scheduler.Move κ ε)) :
    (said Note.cancelled? (r.run moves).journal).length =
      (said Note.cancelled? r.journal).length + r.erased.cancelled moves := by
  induction moves generalizing r with
  | nil => rfl
  | cons move moves ih =>
    -- the later answers are those of the scheduler after the first move
    have hrest := ih (h.move move)
    rw [h.cancelled_move move, (r.move_erased move).2] at hrest
    rw [Scheduler.cancelled, ← Nat.add_assoc]
    exact hrest

end Record

namespace Scheduler

variable {κ ε : Type} [DecidableEq κ]

/-- **Each task has one fate.** Whatever calls and steps there are, and whatever tasks ask for in
turn, at each moment at most one task waits under a key.  A task is accepted exactly if none waits
under its key, and where it is refused nothing changes.  The tasks that were accepted are those that
have started, those that were cancelled and those that wait, each of them once; none starts before its
delay has passed; and their number is that of the starts, the answers to cancellations and the tasks
that wait. -/
theorem every_task_has_one_fate (moves : List (Move κ ε)) :
    let events := ((initial : Scheduler κ ε).run moves).1
    let s := ((initial : Scheduler κ ε).run moves).2
    let record := (Record.initial : Record κ ε).run moves
    let journal := record.journal
    -- the journal is one of these moves, and to keep it changes nothing
    (record.erased = s ∧ said Note.made? journal = events) ∧
    -- at each moment, also while a task runs, at most one task waits under a key
    (∀ before after, journal = before ++ after → ((waiting before).map (·.key)).Nodup) ∧
    s.pendingKeys.Perm ((waiting journal).map (·.key)) ∧
    -- a task is accepted exactly if none waits under its key, and else nothing changes
    (∀ before time ticket key delay accepted after,
      journal = before ++ ⟨time, .asked ticket key delay accepted⟩ :: after →
        (accepted = true ↔ ∀ task ∈ waiting before, task.key ≠ key)) ∧
    (∀ key delay action, (s.schedule key delay action).1 = true ↔
      ∀ task ∈ waiting journal, task.key ≠ key) ∧
    (∀ (t : Scheduler κ ε) key delay action, (t.schedule key delay action).1 = false →
      (t.schedule key delay action).2 = t) ∧
    -- accepted tasks have started, were cancelled, or wait
    (said Note.accepted? journal).Perm
      (said Note.started? journal ++ said Note.cancelled? journal ++
        (waiting journal).map (·.ticket)) ∧
    (said Note.started? journal ++ said Note.cancelled? journal ++
      (waiting journal).map (·.ticket)).Nodup ∧
    -- no task starts before its delay has passed
    (∀ time later ticket key delay, ⟨time, .asked ticket key delay true⟩ ∈ journal →
      ⟨later, .started ticket⟩ ∈ journal → time + delay ≤ later) ∧
    (said Note.accepted? journal).length =
      (said Note.started? journal).length + (initial : Scheduler κ ε).cancelled moves +
        s.pendingCount := by
  intro events s record journal
  -- the journal agrees with the scheduler after every move, which makes it lawful
  have hagrees : record.Agrees := Record.agrees_initial.run moves
  have hlawful : Journal.Lawful journal := hagrees.lawful
  obtain ⟨hmade, hsame⟩ := (Record.initial : Record κ ε).run_erased moves
  have hkeys : s.pendingKeys.Perm ((waiting journal).map (·.key)) := by
    have := hagrees.pendingKeys_perm
    rwa [hsame] at this
  have hcancelled : (said Note.cancelled? journal).length =
      (initial : Scheduler κ ε).cancelled moves := by
    have := (Record.agrees_initial : (Record.initial : Record κ ε).Agrees).cancelled_run moves
    rwa [show said Note.cancelled? (Record.initial : Record κ ε).journal = [] from rfl,
      List.length_nil, Nat.zero_add] at this
  refine ⟨⟨hsame, hmade⟩, ?_, hkeys, ?_, ?_, ?_, hlawful.fates,
    hlawful.fates.nodup_iff.mp hlawful.accepted_nodup, ?_, ?_⟩
  · intro before after hsplit
    -- what a journal begins with is a lawful journal as well
    have hbefore : Journal.Lawful before := Log.Lawful.of_append (hsplit ▸ hlawful)
    exact hbefore.keys_nodup
  · intro before time ticket key delay accepted after hsplit
    exact (hlawful before _ after hsplit).2
  · intro key delay action
    have hfree : key ∉ s.pendingKeys ↔ ∀ task ∈ waiting journal, task.key ≠ key := by
      rw [hkeys.mem_iff]
      simp
    rw [schedule, isPending, ← hfree]
    by_cases hpending : key ∈ s.pendingKeys <;> simp [hpending]
  · intro t key delay action hrefused
    rw [schedule] at hrefused ⊢
    split
    · rfl
    · rename_i hpending
      rw [if_neg hpending] at hrefused
      cases hrefused
  · intro time later ticket key delay haccepted hstarted
    exact hlawful.started_after_delay haccepted hstarted
  · have hcount := hlawful.fates.length_eq
    rw [List.length_append, List.length_append, List.length_map] at hcount
    rw [hcount, hcancelled, pendingCount, hkeys.length_eq, List.length_map]

end Scheduler

end DropRoom
