import DropRoom.Proofs.Room.Run
import Mathlib.Data.List.Induction

namespace DropRoom.Room

/-!
# The state of a closed stream

When the room ends, the page says that its stream is closed.  It does not always stay so: an input
that tells of a connection is taken at its word even then, until the next cleanup.

* `Visit.Step.reopens` — the inputs that tell of a connection;
* `Visit.Reopened` — such an input was taken up after the end, and nothing was cleaned up since;
* `Visit.state_step_of_terminated` — what a step makes of the state after the end;
* `Visit.closed_iff_terminated_and_not_reopened` — when the page says that the stream is closed.
-/

/-! ### States of the feed -/

/-- What readers bring does not show in the state of the stream. -/
@[simp] theorem Feed.state_updateInbox (feed : Feed) (reader : Nat) (change : Inbox → Inbox) :
    (feed.updateInbox reader change).state = feed.state := by
  unfold updateInbox
  split
  · split <;> rfl
  · rfl

/-- Nor does what is taken of it. -/
@[simp] theorem Feed.state_takeInput (feed : Feed) : feed.takeInput.2.state = feed.state := by
  unfold takeInput
  split
  · rfl
  · split
    · rfl
    · split <;> rfl

/-- To a stream that is over no reader can be attached. -/
theorem Feed.attach_of_terminated {feed : Feed} (h : feed.terminated) :
    feed.attach = .error (.terminated "room stream already closed") := by
  rw [attach, if_pos h]

/-- A reader that is attached is connecting. -/
theorem Feed.state_attach {feed feed' : Feed} (h : feed.attach = .ok feed') :
    feed'.state = .connecting := by
  unfold attach at h
  split at h
  · cases h
  · split at h
    · cases h
    · cases h
      rfl

namespace Visit

/-- Whether an input is taken up that tells of a connection. -/
def Step.reopens : Step → Bool
  | .handle .opened => true
  | .handle (.reconnecting _ _) => true
  | _ => false

variable {v : Visit} {step : Step}

/-! ### After the end -/

/-- So a connection then does nothing. -/
theorem connect_of_terminated (h : v.feed.terminated) : v.step .connect = v := by
  rw [Visit.step, connect, Feed.attach_of_terminated h]

/-- After the end, a cleanup makes the stream closed, and an input that tells of a connection makes
it something else.  No other step changes the state. -/
theorem state_step_of_terminated (h : v.feed.terminated) :
    (v.step step).feed.state = .closed ↔
      step = .cleanup ∨ (v.feed.state = .closed ∧ step.reopens = false) := by
  cases step with
  | handle input =>
    cases input with
    | opened => simp [Visit.step, handle, withState, Step.reopens]
    | reconnecting attempt delay => simp [Visit.step, handle, withState, Step.reopens]
    | message payload =>
      rw [Visit.step, handle, applySnapshot_of_terminated h]
      simp [Step.reopens]
    | ended signal =>
      rw [Visit.step, handle, takeSignal_of_terminated h]
      simp [Step.reopens]
  | payload text =>
    rw [Visit.step, applySnapshot_of_terminated h]
    simp [Step.reopens]
  | signal how =>
    rw [Visit.step, takeSignal_of_terminated h]
    simp [Step.reopens]
  | connect =>
    rw [connect_of_terminated h]
    simp [Step.reopens]
  | cleanup => simp [Visit.step, cleanup, Feed.detach, h]
  | deliver reader input => simp [Visit.step, deliver, Feed.deliver, Step.reopens]
  | finish reader => simp [Visit.step, finish, Feed.finish, Step.reopens]
  | nextInput => simp [Visit.step, nextInput, Step.reopens]
  | settle => simp [Visit.step, Visit.settle, Step.reopens]
  | advance milliseconds => simp [Visit.step, Visit.settle, advance, Step.reopens]

/-! ### Before the end -/

/-- The end closes the stream. -/
theorem state_terminate (h : v.feed.terminated = false) (message reason : String) :
    (v.terminate message reason).feed.state = .closed ∧
      (v.terminate message reason).feed.terminated := by
  rw [terminate, if_neg (Bool.eq_false_iff.mp h)]
  exact ⟨rfl, rfl⟩

/-- News of an open room close the stream exactly if they end the room. -/
theorem state_hear (h : v.feed.terminated = false) (hstate : v.feed.state ≠ .closed)
    (news : RoomNews) :
    (v.hear news).feed.state = .closed ↔ (v.hear news).feed.terminated := by
  cases news with
  | closed reason =>
    obtain ⟨hclosed, hover⟩ := state_terminate h closedText reason
    simp only [hear, hclosed, hover]
  | snapshot s =>
    rw [hear, takeSnapshot]
    by_cases hexpired : s.isExpired
    · have hopen : (v.showSnapshot s).feed.terminated = false := h
      obtain ⟨hclosed, hover⟩ := state_terminate hopen expiredText "room expired"
      simp only [if_pos hexpired, hclosed, hover]
    · rw [if_neg hexpired]
      cases s.notification <;> simp [showSnapshot, h, hstate]

/-- A step without news leaves a stream that is not closed as open or interrupted as it may be. -/
theorem state_step_of_unheard (h : v.feed.terminated = false) (hstate : v.feed.state ≠ .closed)
    (hnews : step.news? = none) : (v.step step).feed.state ≠ .closed := by
  cases step with
  -- by the step; the cases that would close the stream are news, against `hnews`
  | handle input =>
    cases input with
    | opened => simp [Visit.step, handle, withState]
    | reconnecting attempt delay => simp [Visit.step, handle, withState]
    | message payload =>
      rw [Visit.step, handle, applySnapshot_of_malformed v (Option.map_eq_none_iff.mp hnews)]
      exact hstate
    | ended signal =>
      cases signal with
      | closed reason => cases hnews
      | interrupted reason => simp [Visit.step, handle, takeSignal, withState, h]
  | payload text =>
    rw [Visit.step, applySnapshot_of_malformed v (Option.map_eq_none_iff.mp hnews)]
    exact hstate
  | signal how =>
    cases how with
    | closed reason => cases hnews
    | interrupted reason => simp [Visit.step, takeSignal, withState, h]
  -- a stream that is attached anew is connecting
  | connect =>
    rw [Visit.step]
    split
    · rename_i connected hconnect
      unfold connect at hconnect
      split at hconnect
      · cases hconnect
      · rename_i feed hattach
        cases hconnect
        simp [Feed.state_attach hattach]
    · exact hstate
  | cleanup => simp [Visit.step, cleanup, Feed.detach, h]
  | deliver reader input => simpa [Visit.step, deliver, Feed.deliver] using hstate
  | finish reader => simpa [Visit.step, finish, Feed.finish] using hstate
  | nextInput => simpa [Visit.step, nextInput] using hstate
  | settle => exact hstate
  | advance milliseconds => exact hstate

/-- A step in an open room closes the stream exactly if it ends the room. -/
theorem state_step_of_open (h : v.feed.terminated = false) (hstate : v.feed.state ≠ .closed) :
    (v.step step).feed.state = .closed ↔ (v.step step).feed.terminated := by
  cases hnews : step.news? with
  | some news =>
    rw [step_of_news hnews, if_neg (Bool.eq_false_iff.mp h)]
    exact state_hear h hstate news
  | none =>
    have hopen : (v.step step).feed.terminated = false :=
      (unheard_step hnews).room.terminated.trans h
    simp only [hopen, state_step_of_unheard h hstate hnews, Bool.false_eq_true]

/-! ### Runs -/

/-- A connection has been told of after the end, and nothing has been cleaned up since. -/
def Reopened (start : Visit) (steps : List Step) : Prop :=
  ∃ before step after, steps = before ++ step :: after ∧
    (start.run before).feed.terminated ∧ step.reopens ∧ Step.cleanup ∉ after

variable {start : Visit} {steps : List Step}

/-- A stream that looks open again is over all the same. -/
theorem Reopened.terminated (h : start.Reopened steps) : (start.run steps).feed.terminated := by
  obtain ⟨before, step, after, rfl, hover, _⟩ := h
  rw [run_append]
  exact (sameRoom_run_of_terminated hover _).terminated.trans hover

/-- Whether a connection has been told of after the end is decided by the last step, and by the
steps before it unless that was a cleanup. -/
theorem reopened_concat (step : Step) :
    start.Reopened (steps ++ [step]) ↔
      (start.Reopened steps ∧ step ≠ .cleanup) ∨
        ((start.run steps).feed.terminated ∧ step.reopens) := by
  constructor
  · rintro ⟨before, opening, after, heq, hover, hopens, hafter⟩
    -- the input is the last step, or the last step came after it
    rcases List.eq_nil_or_concat after with rfl | ⟨after, last, rfl⟩
    · obtain ⟨rfl, hlast⟩ := List.append_inj' heq rfl
      obtain rfl := List.singleton_inj.mp hlast
      exact .inr ⟨hover, hopens⟩
    · have hsplit : steps ++ [step] = (before ++ opening :: after) ++ [last] := by simpa using heq
      obtain ⟨rfl, hlast⟩ := List.append_inj' hsplit rfl
      obtain rfl := List.singleton_inj.mp hlast
      simp only [List.concat_eq_append, List.mem_append, List.mem_singleton, not_or] at hafter
      exact .inl ⟨⟨before, opening, after, rfl, hover, hopens, hafter.1⟩, Ne.symm hafter.2⟩
  · rintro (⟨⟨before, opening, after, rfl, hover, hopens, hafter⟩, hlast⟩ | ⟨hover, hopens⟩)
    · refine ⟨before, opening, after ++ [step], by simp, hover, hopens, ?_⟩
      simp only [List.mem_append, List.mem_singleton, not_or]
      exact ⟨hafter, Ne.symm hlast⟩
    · exact ⟨steps, step, [], rfl, hover, hopens, List.not_mem_nil⟩

/-- In a run from an open room whose stream is not closed, the page says that the stream is closed
exactly if the room is over and no connection was told of since. -/
theorem closed_run_iff (hopen : start.feed.terminated = false) (hstate : start.feed.state ≠ .closed)
    (steps : List Step) :
    (start.run steps).feed.state = .closed ↔
      (start.run steps).feed.terminated ∧ ¬ start.Reopened steps := by
  induction steps using List.reverseRecOn with
  | nil => simp [hopen, hstate]
  | append_singleton steps step ih =>
    rw [run_append, run_cons, run_nil, reopened_concat]
    cases hover : (start.run steps).feed.terminated with
    | false =>
      -- a room that is open has not been reopened, and its stream is not closed
      have hnot : ¬ start.Reopened steps := fun h => by
        have := h.terminated
        rw [hover] at this
        cases this
      have hnotClosed : (start.run steps).feed.state ≠ .closed := by
        simp [ih, hover]
      simp [state_step_of_open hover hnotClosed, hnot]
    | true =>
      have hstays := (sameRoom_step_of_terminated hover step).terminated.trans hover
      rw [state_step_of_terminated hover, ih, hstays]
      by_cases hlast : step = .cleanup
      · simp [hlast, Step.reopens]
      · simp [hlast, hover]

/-- **When the page says that its stream is closed.** In every run of a visit it says so exactly if
the room is over and no connection was told of since.  So it says so of every room that is over
exactly if no connection is told of after the end, save before a cleanup; and from then on an input
that tells of a connection is the only step that makes it say something else. -/
theorem closed_iff_terminated_and_not_reopened (setup : Page.Setup) (url : Url)
    (username : Option String) (delay actionDelay : UInt64) (steps : List Step) :
    let start := initial setup url username delay actionDelay
    let feed := (start.run steps).feed
    (feed.state = .closed ↔ feed.terminated ∧ ¬ start.Reopened steps) ∧
    ((feed.terminated ↔ feed.state = .closed) ↔ ¬ start.Reopened steps) ∧
    (feed.state = .closed → ∀ step : Step,
      ((start.run steps).step step).feed.state = .closed ↔ step.reopens = false) := by
  intro start feed
  have hidle : start.feed.state = .idle := rfl
  have hclosed : feed.state = .closed ↔ feed.terminated ∧ ¬ start.Reopened steps :=
    closed_run_iff rfl (by simp [hidle]) steps
  refine ⟨hclosed, ?_, ?_⟩
  · constructor
    · intro hiff hreopened
      exact (hclosed.mp (hiff.mp hreopened.terminated)).2 hreopened
    · intro hnot
      rw [hclosed]
      exact ⟨fun hover => ⟨hover, hnot⟩, And.left⟩
  · intro hstate step
    rw [state_step_of_terminated (hclosed.mp hstate).1]
    constructor
    · rintro (rfl | ⟨_, hreopens⟩)
      · rfl
      · exact hreopens
    · exact fun hreopens => .inr ⟨hstate, hreopens⟩

/-- After a stream was closed, an input that says it is open again is taken at its word: the room is
over, and the page does not say that the stream is closed. -/
theorem closed_iff_terminated_and_not_reopened_of_opened_late :
    let start := initial ⟨"/create.html", 4000, 8000, 16⟩
      ⟨"http", "", "", none, none, .segments ["rooms"], none, none⟩ none 1000 500
    let steps := [Step.signal (.closed "gone"), .handle .opened]
    (start.run steps).feed.terminated ∧ (start.run steps).feed.state ≠ .closed := by
  intro start steps
  have hreopened : start.Reopened steps :=
    ⟨[.signal (.closed "gone")], .handle .opened, [], rfl, by decide, rfl, List.not_mem_nil⟩
  obtain ⟨hclosed, _⟩ := closed_iff_terminated_and_not_reopened ⟨"/create.html", 4000, 8000, 16⟩
    ⟨"http", "", "", none, none, .segments ["rooms"], none, none⟩ none 1000 500 steps
  exact ⟨hreopened.terminated, fun hstate => (hclosed.mp hstate).2 hreopened⟩

end Visit

end DropRoom.Room
