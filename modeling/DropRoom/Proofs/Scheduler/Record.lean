import DropRoom.Proofs.Scheduler.Journal
import DropRoom.Proofs.Scheduler.Settle

namespace DropRoom

/-!
# Schedulers that keep a journal

A scheduler whose tasks say how they go on, with all that they say written down.  To keep the journal
changes nothing else.

* `Scheduler.Move`, `Scheduler.move`, `Scheduler.run` — one thing that can happen to a scheduler, and
  many in order;
* `Record`, `Record.move`, `Record.run` — the same with a journal;
* `Record.run_erased` — the journal changes nothing else.
-/

/-! ### Moves -/

namespace Scheduler

/-- One thing that can happen to a scheduler. -/
inductive Move (κ ε : Type) where
  | schedule (key : κ) (delay : Nat) (action : Action κ ε)
  | cancel (key : κ)
  | cancelAll
  /-- The tasks take one step, if there is one. -/
  | step
  /-- Time passes, and the tasks do nothing. -/
  | wait (milliseconds : Nat)
  /-- Time passes, and the tasks take all the steps that there are then. -/
  | advance (milliseconds : Nat)

variable {κ ε : Type} [DecidableEq κ]

/-- What happens at a move, and the scheduler after it. -/
def move (s : Scheduler κ ε) : Move κ ε → List ε × Scheduler κ ε
  | .schedule key delay action => ([], (s.schedule key delay action).2)
  | .cancel key => ([], (s.cancel key).2)
  | .cancelAll => ([], s.cancelAll.2)
  | .step => s.step?.getD ([], s)
  | .wait milliseconds => ([], { s with now := s.now + milliseconds })
  | .advance milliseconds => s.advance milliseconds

/-- What happens at moves in order, and the scheduler after them. -/
def run (s : Scheduler κ ε) : List (Move κ ε) → List ε × Scheduler κ ε
  | [] => ([], s)
  | move :: moves =>
    let (events, s) := s.move move
    let (more, s) := s.run moves
    (events ++ more, s)

/-- How many tasks were cancelled, by the answer to a move. -/
def cancelledBy (s : Scheduler κ ε) : Move κ ε → Nat
  | .cancel key => if (s.cancel key).1 then 1 else 0
  | .cancelAll => s.cancelAll.1
  | _ => 0

/-- How many tasks were cancelled, by the answers to moves in order. -/
def cancelled (s : Scheduler κ ε) : List (Move κ ε) → Nat
  | [] => 0
  | move :: moves => s.cancelledBy move + (s.move move).2.cancelled moves

end Scheduler

namespace Journal

variable {κ ε : Type}

/-- Notes that were taken at a time. -/
def stamped (time : Nat) (notes : List (Note κ ε)) : List (Entry κ ε) :=
  notes.map fun note => ⟨time, note⟩

/-- The notes that tasks were cancelled. -/
def cancellations (tasks : List (Pending κ)) : List (Note κ ε) :=
  tasks.map fun task => .cancelled task.ticket

@[simp] theorem stamped_nil (time : Nat) : stamped time ([] : List (Note κ ε)) = [] := rfl

theorem stamped_append (time : Nat) (notes more : List (Note κ ε)) :
    stamped time (notes ++ more) = stamped time notes ++ stamped time more :=
  List.map_append

theorem said_append {α : Type} (select : Note κ ε → Option α) (journal more : List (Entry κ ε)) :
    said select (journal ++ more) = said select journal ++ said select more :=
  List.filterMap_append

theorem said_stamped {α : Type} (select : Note κ ε → Option α) (time : Nat)
    (notes : List (Note κ ε)) : said select (stamped time notes) = notes.filterMap select := by
  rw [said, stamped, List.filterMap_map]
  rfl

theorem said_made_cancellations (tasks : List (Pending κ)) (time : Nat) :
    said Note.made? (stamped time (cancellations tasks : List (Note κ ε))) = [] := by
  rw [said_stamped, cancellations, List.filterMap_map]
  exact List.filterMap_eq_nil_iff.mpr fun task _ => rfl

end Journal

open Journal (Ticket Note Entry Pending begin follow waiting said stamped cancellations)

/-- A scheduler whose tasks say how they go on, with the number of tasks that were asked for from
outside and all that was said. -/
structure Record (κ ε : Type) where
  scheduler : Scheduler κ (Note κ ε)
  calls : Nat
  journal : List (Entry κ ε)

namespace Record

variable {κ ε : Type}

/-- Nothing has happened. -/
def initial : Record κ ε :=
  ⟨.initial, 0, []⟩

variable [DecidableEq κ]

/-- What a record is after a move. -/
def move (r : Record κ ε) : Scheduler.Move κ ε → Record κ ε
  | .schedule key delay action =>
    let (accepted, s) := r.scheduler.schedule key delay (begin action [r.calls])
    ⟨s, r.calls + 1, r.journal ++ [⟨r.scheduler.now, .asked [r.calls] key delay accepted⟩]⟩
  | .cancel key =>
    ⟨(r.scheduler.cancel key).2, r.calls,
      r.journal ++ stamped r.scheduler.now
        (cancellations ((waiting r.journal).filter (·.key = key)))⟩
  | .cancelAll =>
    ⟨r.scheduler.cancelAll.2, r.calls,
      r.journal ++ stamped r.scheduler.now (cancellations (waiting r.journal))⟩
  | .step =>
    match r.scheduler.step? with
    | none => r
    | some (notes, s) => ⟨s, r.calls, r.journal ++ stamped r.scheduler.now notes⟩
  | .wait milliseconds =>
    { r with scheduler := { r.scheduler with now := r.scheduler.now + milliseconds } }
  | .advance milliseconds =>
    let (notes, s) := r.scheduler.advance milliseconds
    ⟨s, r.calls, r.journal ++ stamped (r.scheduler.now + milliseconds) notes⟩

/-- What a record is after moves in order. -/
def run (r : Record κ ε) (moves : List (Scheduler.Move κ ε)) : Record κ ε :=
  moves.foldl move r

/-! ### The journal changes nothing else -/

/-- The scheduler of a record, without what its tasks say of themselves. -/
def erased (r : Record κ ε) : Scheduler κ ε :=
  r.scheduler.filterMap Note.made?

/-- Where a journal is kept, a move does the same, and the same happens. -/
theorem move_erased (r : Record κ ε) (move : Scheduler.Move κ ε) :
    said Note.made? (r.move move).journal = said Note.made? r.journal ++ (r.erased.move move).1 ∧
      (r.move move).erased = (r.erased.move move).2 := by
  cases move with
  | schedule key delay action =>
    -- the journal is kept with the task that says how it goes on, which is the task apart from that
    have hschedule := Scheduler.schedule_filterMap Note.made? r.scheduler key delay
      (begin action [r.calls])
    rw [Journal.filterMap_begin] at hschedule
    refine ⟨?_, (congrArg Prod.snd hschedule).symm⟩
    show said Note.made? (r.journal ++ [_]) = said Note.made? r.journal ++ []
    rw [Journal.said_concat]
    rfl
  | cancel key =>
    refine ⟨?_, (congrArg Prod.snd (Scheduler.cancel_filterMap Note.made? r.scheduler key)).symm⟩
    show said Note.made? (r.journal ++ _) = said Note.made? r.journal ++ []
    rw [Journal.said_append, Journal.said_made_cancellations]
  | cancelAll =>
    refine ⟨?_, (congrArg Prod.snd (Scheduler.cancelAll_filterMap Note.made? r.scheduler)).symm⟩
    show said Note.made? (r.journal ++ _) = said Note.made? r.journal ++ []
    rw [Journal.said_append, Journal.said_made_cancellations]
  | step =>
    have hstep := Scheduler.step?_filterMap Note.made? r.scheduler
    show said Note.made? (r.move .step).journal =
        said Note.made? r.journal ++ (r.erased.step?.getD ([], r.erased)).1 ∧
      (r.move .step).erased = (r.erased.step?.getD ([], r.erased)).2
    rw [erased, hstep, Record.move]
    cases r.scheduler.step? with
    | none => exact ⟨(List.append_nil _).symm, rfl⟩
    | some outcome =>
      obtain ⟨notes, s⟩ := outcome
      refine ⟨?_, rfl⟩
      show said Note.made? (r.journal ++ _) = said Note.made? r.journal ++ notes.filterMap Note.made?
      rw [Journal.said_append, Journal.said_stamped]
  | wait milliseconds => exact ⟨(List.append_nil _).symm, rfl⟩
  | advance milliseconds =>
    have hadvance := Scheduler.advance_filterMap Note.made? r.scheduler milliseconds
    refine ⟨?_, (congrArg Prod.snd hadvance).symm⟩
    show said Note.made? (r.journal ++ _) =
      said Note.made? r.journal ++ (r.erased.advance milliseconds).1
    rw [Journal.said_append, Journal.said_stamped, erased, hadvance]
    rfl

/-- **The journal changes nothing else.** The same happens where a journal is kept, and apart from what
the tasks say of themselves the scheduler is the same. -/
theorem run_erased (r : Record κ ε) (moves : List (Scheduler.Move κ ε)) :
    said Note.made? (r.run moves).journal = said Note.made? r.journal ++ (r.erased.run moves).1 ∧
      (r.run moves).erased = (r.erased.run moves).2 := by
  induction moves generalizing r with
  | nil => exact ⟨(List.append_nil _).symm, rfl⟩
  | cons move moves ih =>
    obtain ⟨hmade, hsame⟩ := r.move_erased move
    obtain ⟨hmadeLater, hsameLater⟩ := ih (r.move move)
    rw [hsame] at hmadeLater hsameLater
    refine ⟨?_, hsameLater⟩
    show said Note.made? ((r.move move).run moves).journal = _
    rw [hmadeLater, hmade, List.append_assoc]
    rfl

end Record

end DropRoom
