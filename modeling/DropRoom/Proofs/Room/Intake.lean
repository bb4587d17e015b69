import DropRoom.Proofs.Log
import DropRoom.Proofs.Page.Course
import DropRoom.Proofs.Room.Departures
import DropRoom.Proofs.Room.Listening

namespace DropRoom.Room

/-!
# Inputs of readers

Readers bring inputs whenever they like, even when the page has stopped listening to them, and the page
may connect again meanwhile.  All that happens to a visit and its readers is written down as it happens.

* `Intake` — a visit, and what was written down as readers came, brought inputs and went;
* `Intake.Listening` — the page listens to the reader of the latest connection;
* `Intake.Turn`, `Intake.turn`, `Intake.run` — one thing that happens, and many in order;
* `Intake.drain_eq_takeUps` — to take up all that waits is such a run;
* `Intake.Change`, `Intake.change_move` — all that a move can do to the inbox;
* `Intake.run_induction` — what every change keeps, a run keeps.
-/

/-- What is written down as readers come, bring inputs and go. -/
inductive Intake.Entry where
  /-- A connection has attached a reader. -/
  | attached (reader : Nat)
  | sent (reader : Nat) (input : Input)
  | finished (reader : Nat)
  /-- An input was taken from the inbox of a reader. -/
  | taken (reader : Nat) (input : Input)
  /-- The page has stopped listening: there was a cleanup, the room is over, or it was left. -/
  | detached
  deriving DecidableEq

/-- A visit with what was written down of its readers. -/
structure Intake where
  visit : Visit
  log : List Intake.Entry

namespace Intake

/-! ### Logs -/

namespace Entry

/-- The reader that an entry is about. -/
def reader? : Entry → Option Nat
  | .attached reader => some reader
  | .sent reader _ => some reader
  | .finished reader => some reader
  | .taken reader _ => some reader
  | .detached => none

/-- What a reader has sent. -/
def sent? (reader : Nat) : Entry → Option Input
  | .sent other input => if other = reader then some input else none
  | _ => none

/-- What was taken of a reader. -/
def taken? (reader : Nat) : Entry → Option Input
  | .taken other input => if other = reader then some input else none
  | _ => none

/-- Whether the page listens no longer to readers that were attached before. -/
def Stops : Entry → Prop
  | .attached _ => True
  | .detached => True
  | _ => False

end Entry

/-- The inputs that a reader has sent, in order. -/
def sentBy (reader : Nat) (log : List Entry) : List Input :=
  log.filterMap (Entry.sent? reader)

/-- The inputs that were taken of a reader, in order. -/
def takenOf (reader : Nat) (log : List Entry) : List Input :=
  log.filterMap (Entry.taken? reader)

/-- The page listens to a reader: the latest connection has attached it, and nothing has made the page
stop since. -/
def Listening (reader : Nat) (log : List Entry) : Prop :=
  Log.Stands (· = .attached reader) Entry.Stops log

section

variable {log : List Entry} {entry : Entry} {reader : Nat}

/-- An entry is one thing sent at most. -/
theorem sentBy_concat :
    sentBy reader (log ++ [entry]) = sentBy reader log ++ (entry.sent? reader).toList := by
  cases h : entry.sent? reader <;> simp [sentBy, h]

/-- It is one thing taken at most. -/
theorem takenOf_concat :
    takenOf reader (log ++ [entry]) = takenOf reader log ++ (entry.taken? reader).toList := by
  cases h : entry.taken? reader <;> simp [takenOf, h]

/-- The page listens to a reader that was just attached, and goes on to listen unless it is made to
stop. -/
theorem listening_concat :
    Listening reader (log ++ [entry]) ↔
      entry = .attached reader ∨ ¬ entry.Stops ∧ Listening reader log :=
  Log.stands_concat

/-- The page goes on listening until it is made to stop. -/
theorem listening_concat_of_not_stops (h : ¬ entry.Stops) :
    Listening reader (log ++ [entry]) ↔ Listening reader log := by
  rw [listening_concat]
  refine ⟨fun hlistening => ?_, fun hlistening => .inr ⟨h, hlistening⟩⟩
  rcases hlistening with rfl | ⟨_, hlistening⟩
  · exact absurd trivial h
  · exact hlistening

/-- After it is made to stop it listens to none. -/
theorem not_listening_concat_detached : ¬ Listening reader (log ++ [.detached]) := by
  rw [listening_concat]
  rintro (h | ⟨h, _⟩)
  · cases h
  · exact h trivial

/-- After a connection it listens to the new reader alone. -/
theorem listening_concat_attached {other : Nat} :
    Listening reader (log ++ [.attached other]) ↔ reader = other := by
  rw [listening_concat]
  constructor
  · rintro (h | ⟨h, _⟩)
    · exact (Entry.attached.inj h).symm
    · exact absurd trivial h
  · rintro rfl
    exact .inl rfl

/-- It listens only to readers that were attached. -/
theorem Listening.attached_mem (h : Listening reader log) : .attached reader ∈ log := by
  obtain ⟨before, entry, after, rfl, rfl, _⟩ := h
  simp

/-- What an entry says of a reader that it is not about. -/
theorem Entry.sent?_eq_none (h : entry.reader? ≠ some reader) : entry.sent? reader = none := by
  cases entry with
  | sent other input => simpa [sent?, reader?] using h
  | _ => rfl

/-- What is not of a reader is not taken of it. -/
theorem Entry.taken?_eq_none (h : entry.reader? ≠ some reader) : entry.taken? reader = none := by
  cases entry with
  | taken other input => simpa [taken?, reader?] using h
  | _ => rfl

/-- Of a reader that no entry is about nothing is known. -/
theorem sentBy_eq_nil (h : ∀ entry ∈ log, entry.reader? ≠ some reader) : sentBy reader log = [] :=
  List.filterMap_eq_nil_iff.mpr fun entry hentry => Entry.sent?_eq_none (h entry hentry)

/-- Of a reader without entries nothing is taken. -/
theorem takenOf_eq_nil (h : ∀ entry ∈ log, entry.reader? ≠ some reader) :
    takenOf reader log = [] :=
  List.filterMap_eq_nil_iff.mpr fun entry hentry => Entry.taken?_eq_none (h entry hentry)

/-- An entry that is about another reader changes nothing for this one. -/
theorem sentBy_concat_of_other (h : entry.reader? ≠ some reader) :
    sentBy reader (log ++ [entry]) = sentBy reader log := by
  rw [sentBy_concat, Entry.sent?_eq_none h]
  exact List.append_nil _

/-- An entry of another reader does not count. -/
theorem takenOf_concat_of_other (h : entry.reader? ≠ some reader) :
    takenOf reader (log ++ [entry]) = takenOf reader log := by
  rw [takenOf_concat, Entry.taken?_eq_none h]
  exact List.append_nil _

end

/-! ### Turns -/

/-- A reader can bring something: it was attached, and has not finished. -/
def Active (s : Intake) (reader : Nat) : Prop :=
  .attached reader ∈ s.log ∧ .finished reader ∉ s.log

instance (s : Intake) (reader : Nat) : Decidable (s.Active reader) :=
  inferInstanceAs (Decidable (_ ∧ _))

/-- What is written down of a step of the stream.  A reader that was never attached, or has finished,
brings nothing. -/
def noted (s : Intake) : Visit.Step → List Entry
  | .connect =>
    match s.visit.connect with
    | .ok _ => [.attached s.visit.feed.readers]
    | .error _ => []
  | .cleanup => [.detached]
  | .deliver reader input => if s.Active reader then [.sent reader input] else []
  | .finish reader => if s.Active reader then [.finished reader] else []
  | .nextInput =>
    match s.visit.feed.inbox, s.visit.nextInput.1 with
    | some inbox, .input input => [.taken inbox.reader input]
    | _, _ => []
  | step => if s.visit.endsRoom (s.visit.step step) then [.detached] else []

/-- A move, and what is written down of it. -/
def move (s : Intake) (move : Visit.Move) : Intake where
  visit := s.visit.move move
  log := s.log ++
    match move with
    | .stream step => s.noted step
    | .page _ => []
    | .outcome result => if endsVisit result then [.detached] else []
    | .exitRoom => [.detached]

/-- The next input is asked for and, if there is one, taken up at once. -/
def takeUp (s : Intake) : Intake :=
  match s.visit.nextInput.1 with
  | .input input => (s.move (.stream .nextInput)).move (.stream (.handle input))
  | _ => s.move (.stream .nextInput)

/-- One thing that can happen. -/
inductive Turn where
  | move (move : Visit.Move)
  /-- Something happens to the page apart from the room. -/
  | page (move : Page.Move)
  | takeUp
  | shutdown

/-- What there is after a turn. -/
def turn (s : Intake) : Turn → Intake
  | .move move => s.move move
  | .page move => ⟨{ s.visit with page := s.visit.page.move move }, s.log⟩
  | .takeUp => s.takeUp
  | .shutdown => ⟨s.visit.shutdown, s.log ++ [.detached]⟩

/-- What there is after turns in order. -/
def run (s : Intake) (turns : List Turn) : Intake :=
  turns.foldl turn s

/-- To take up all inputs that wait is to take up one after the other. -/
theorem drain_eq_takeUps (s : Intake) :
    ∃ count, (s.run (List.replicate count .takeUp)).visit = s.visit.drain := by
  have hlimit (limit : Nat) (s : Intake) :
      ∃ count, (s.run (List.replicate count .takeUp)).visit = s.visit.drainAtMost limit := by
    induction limit generalizing s with
    | zero => exact ⟨0, rfl⟩
    | succ limit ih =>
      rw [Visit.drainAtMost]
      split
      · rename_i input v hnext
        have hinput : s.visit.nextInput.1 = .input input := congrArg Prod.fst hnext
        have htakeUp : s.takeUp.visit = v.handle input := by
          rw [takeUp, hinput]
          show s.visit.nextInput.2.handle input = _
          rw [hnext]
        obtain ⟨count, hcount⟩ := ih s.takeUp
        exact ⟨count + 1, hcount.trans (by rw [htakeUp])⟩
      · -- without an input, one more question ends it
        rename_i taken v hnone hnext
        have hlast : s.takeUp = s.move (.stream .nextInput) := by
          rw [takeUp]
          split
          · rename_i input hinput
            rw [hnext] at hinput
            exact (hnone input hinput).elim
          · rfl
        refine ⟨1, ?_⟩
        show s.takeUp.visit = v
        rw [hlast]
        exact congrArg Prod.snd hnext
  rw [Visit.drain]
  split
  · exact ⟨0, rfl⟩
  · exact hlimit _ s

/-! ### What a move can do -/

/-- What can happen to the inbox, with what is written down of it. -/
inductive Change (s : Intake) : Intake → Prop where
  | keep {v : Visit} (h : s.visit.feed.SameInbox v.feed) : Change s ⟨v, s.log⟩
  | attach {v : Visit} (h : s.visit.feed.attach = .ok v.feed) :
    Change s ⟨v, s.log ++ [.attached s.visit.feed.readers]⟩
  | bring {v : Visit} {reader : Nat} {input : Input} (hactive : s.Active reader)
    (h : v.feed = s.visit.feed.deliver reader input) : Change s ⟨v, s.log ++ [.sent reader input]⟩
  | finish {v : Visit} {reader : Nat} (hactive : s.Active reader)
    (h : v.feed = s.visit.feed.finish reader) : Change s ⟨v, s.log ++ [.finished reader]⟩
  /-- A reader that was never attached, or has finished, does something. -/
  | stray {v : Visit} {reader : Nat} {change : Inbox → Inbox} (hactive : ¬ s.Active reader)
    (hchange : ∀ inbox, inbox.finished = true → change inbox = inbox)
    (h : v.feed = s.visit.feed.updateInbox reader change) : Change s ⟨v, s.log⟩
  | take {v : Visit} {reader : Nat} {input : Input} {waiting : List Input} {finished : Bool}
    (hinbox : s.visit.feed.inbox = some ⟨reader, input :: waiting, finished⟩)
    (h : v.feed = { s.visit.feed with inbox := some ⟨reader, waiting, finished⟩ }) :
    Change s ⟨v, s.log ++ [.taken reader input]⟩
  /-- Nothing is left, and nothing more will come. -/
  | drain {v : Visit} {reader : Nat} (hinbox : s.visit.feed.inbox = some ⟨reader, [], true⟩)
    (h : v.feed = { s.visit.feed with inbox := none }) : Change s ⟨v, s.log⟩
  | detach {v : Visit} (h : s.visit.feed.Detached v.feed) : Change s ⟨v, s.log ++ [.detached]⟩

/-- To ask for the next input is a change as it may be written down. -/
theorem change_nextInput (s : Intake) : s.Change (s.move (.stream .nextInput)) := by
  have hmove : s.move (.stream .nextInput) = ⟨s.visit.nextInput.2, s.log ++ s.noted .nextInput⟩ := rfl
  rw [hmove, noted]
  unfold Visit.nextInput Feed.takeInput
  cases hinbox : s.visit.feed.inbox with
  | none =>
    simp only [List.append_nil]
    exact .keep ⟨rfl, rfl, rfl⟩
  | some inbox =>
    obtain ⟨reader, waiting, finished⟩ := inbox
    cases waiting with
    | cons input waiting => exact .take hinbox rfl
    | nil =>
      cases finished with
      | true =>
        simp only [if_true, List.append_nil]
        exact .drain hinbox rfl
      | false =>
        simp only [Bool.false_eq_true, if_false, List.append_nil]
        exact .keep ⟨rfl, rfl, rfl⟩

/-- What is brought by a reader that can bring something is written down, and anything else is
stray. -/
theorem change_of_reader (s : Intake) {v : Visit} {reader : Nat} {entry : Entry}
    {change : Inbox → Inbox} (h : v.feed = s.visit.feed.updateInbox reader change)
    (hchange : ∀ inbox, inbox.finished = true → change inbox = inbox)
    (hactive : s.Active reader → s.Change ⟨v, s.log ++ [entry]⟩) :
    s.Change ⟨v, s.log ++ if s.Active reader then [entry] else []⟩ := by
  split
  · rename_i h
    exact hactive h
  · rename_i hstray
    rw [List.append_nil]
    exact .stray hstray hchange h

/-- **What a move can do** to the inbox. -/
theorem change_move (s : Intake) (move : Visit.Move) : s.Change (s.move move) := by
  cases move with
  | page operation =>
    rw [Intake.move, List.append_nil]
    exact .keep ⟨rfl, rfl, rfl⟩
  | exitRoom => exact .detach ⟨rfl, rfl, rfl⟩
  | outcome result =>
    rw [Intake.move, Visit.move]
    split
    · exact .detach ⟨rfl, rfl, rfl⟩
    · rw [List.append_nil]
      exact .keep (.refl _)
  | stream step =>
    have hmove : s.move (.stream step) = ⟨s.visit.step step, s.log ++ s.noted step⟩ := rfl
    -- a step that is not about the inbox does nothing to it, or detaches the reader
    have hother (habout : step.isAboutInbox = false)
        (hnoted : s.noted step = if s.visit.endsRoom (s.visit.step step) then [.detached] else []) :
        s.Change (s.move (.stream step)) := by
      have hlistens := s.visit.listens_step habout
      rw [hmove, hnoted]
      rw [Visit.Listens] at hlistens
      split at hlistens
      · rename_i hends
        rw [if_pos hends]
        exact .detach hlistens
      · rename_i hends
        rw [if_neg hends, List.append_nil]
        exact .keep hlistens
    cases step with
    | connect =>
      rw [hmove, noted, Visit.step]
      unfold Visit.connect
      cases hattach : s.visit.feed.attach with
      | error e =>
        simp only [List.append_nil]
        exact .keep (.refl _)
      | ok feed => exact .attach hattach
    | cleanup => exact .detach ⟨rfl, rfl, rfl⟩
    | deliver reader input =>
      refine s.change_of_reader (v := s.visit.deliver reader input) rfl (fun inbox hfinished => ?_)
        fun hactive => .bring hactive rfl
      rw [if_pos hfinished]
    | finish reader =>
      refine s.change_of_reader (v := s.visit.finish reader) rfl (fun inbox hfinished => ?_)
        fun hactive => .finish hactive rfl
      rw [← hfinished]
    | nextInput => exact s.change_nextInput
    | handle input => exact hother rfl rfl
    | payload text => exact hother rfl rfl
    | signal how => exact hother rfl rfl
    | settle => exact hother rfl rfl
    | advance milliseconds => exact hother rfl rfl

/-- What every change keeps, a turn keeps. -/
theorem turn_induction {motive : Intake → Prop} (change : ∀ s s', Change s s' → motive s → motive s')
    (s : Intake) (turn : Turn) (h : motive s) : motive (s.turn turn) := by
  have hmove (s : Intake) (move : Visit.Move) (h : motive s) : motive (s.move move) :=
    change s _ (s.change_move move) h
  cases turn with
  | move move => exact hmove s move h
  | page move => exact change s _ (.keep ⟨rfl, rfl, rfl⟩) h
  | shutdown => exact change s _ (.detach ⟨rfl, rfl, rfl⟩) h
  | takeUp =>
    show motive s.takeUp
    rw [takeUp]
    split
    · exact hmove _ _ (hmove s _ h)
    · exact hmove s _ h

/-- What every change keeps, a run keeps. -/
theorem run_induction {motive : Intake → Prop} (change : ∀ s s', Change s s' → motive s → motive s')
    (turns : List Turn) {s : Intake} (h : motive s) : motive (s.run turns) := by
  induction turns generalizing s with
  | nil => exact h
  | cons turn turns ih => exact ih (turn_induction change s turn h)

end Intake

end DropRoom.Room
