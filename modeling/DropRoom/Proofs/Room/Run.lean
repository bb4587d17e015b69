import DropRoom.Proofs.Page.Announcements
import DropRoom.Room.Visit

namespace DropRoom.Room

/-!
# Runs of a visit

What can happen to a visit as long as only the stream and time change it, in any order.

* `Visit.Step`, `Visit.step`, `Visit.run` — one thing that happens, and many in order;
* `RoomNews`, `Visit.Step.news?` — what a step says of the room itself: a snapshot, or that the
  stream was closed;
* `Visit.afterNews_step` — news are taken up unless the room is over, and any other step changes
  nothing of the room, and the page only through its timers;
* `Visit.run_induction` — what every step keeps, a run keeps;
* `Visit.terminated_run` — the room is over exactly if a step has ended it.
-/

/-- One thing that can happen to a visit. -/
inductive Visit.Step where
  /-- An input of the stream is taken up. -/
  | handle (input : Input)
  /-- A payload of the stream is taken up. -/
  | payload (text : String)
  /-- The end of the stream is taken up. -/
  | signal (how : Signal)
  | connect
  | cleanup
  /-- A reader brings an input. -/
  | deliver (reader : Nat) (input : Input)
  /-- A reader has finished. -/
  | finish (reader : Nat)
  /-- The next input is asked for, without being taken up. -/
  | nextInput
  /-- The timers do what is due. -/
  | settle
  /-- Time passes, once the timers have done what was due before. -/
  | advance (milliseconds : Nat)

/-- What a visit is after a step.  A refused connection leaves it as it was. -/
def Visit.step (v : Visit) : Visit.Step → Visit
  | .handle input => v.handle input
  | .payload text => (v.applySnapshot text).2
  | .signal how => v.takeSignal how
  | .connect => match v.connect with
    | .ok connected => connected
    | .error _ => v
  | .cleanup => v.cleanup
  | .deliver reader input => v.deliver reader input
  | .finish reader => v.finish reader
  | .nextInput => v.nextInput.2
  | .settle => v.settle
  | .advance milliseconds => v.settle.advance milliseconds

/-- What a visit is after steps in order. -/
def Visit.run (v : Visit) (steps : List Visit.Step) : Visit :=
  steps.foldl Visit.step v

/-! ### News of the room -/

/-- What can be said of the room itself. -/
inductive RoomNews where
  | snapshot (snapshot : Snapshot)
  /-- The server refused or ended the stream. -/
  | closed (reason : String)

/-- Whether nothing more can be said of the room. -/
def RoomNews.isLast : RoomNews → Bool
  | .snapshot s => s.isExpired
  | .closed _ => true

/-- The snapshot of a payload, if it is one. -/
def snapshotOf? (payload : String) : Option Snapshot :=
  match Json.decodeText Snapshot.decoder payload with
  | .ok snapshot => some snapshot
  | .error _ => none

namespace Visit

/-- The news in the end of a stream. -/
def newsOfSignal? : Signal → Option RoomNews
  | .closed reason => some (.closed reason)
  | .interrupted _ => none

/-- What a step says of the room. -/
def Step.news? : Step → Option RoomNews
  | .handle (.message text) => (snapshotOf? text).map .snapshot
  | .payload text => (snapshotOf? text).map .snapshot
  | .handle (.ended how) => newsOfSignal? how
  | .signal how => newsOfSignal? how
  | _ => none

/-- Whether a step ends the room, if nothing has ended it before. -/
def Step.ends (step : Step) : Bool :=
  step.news?.any RoomNews.isLast

/-- Take up news of the room. -/
def hear (v : Visit) : RoomNews → Visit
  | .snapshot s => (v.takeSnapshot s).2
  | .closed reason => v.terminate closedText reason

/-- The room is over only once. -/
theorem terminate_of_terminated {v : Visit} (h : v.feed.terminated) (message reason : String) :
    v.terminate message reason = v := by
  rw [terminate, if_pos h]

/-- A payload that comes after the end changes nothing. -/
theorem applySnapshot_of_terminated {v : Visit} (h : v.feed.terminated) (payload : String) :
    v.applySnapshot payload = (.ignored, v) := by
  rw [applySnapshot, if_pos h]

/-- A payload that is no snapshot changes nothing. -/
theorem applySnapshot_of_malformed (v : Visit) {payload : String}
    (h : snapshotOf? payload = none) : v.applySnapshot payload = (.ignored, v) := by
  rw [applySnapshot]
  unfold snapshotOf? at h
  split at h
  · cases h
  · rename_i hdecode
    simp only [hdecode, ite_self]

/-- When the room is over, signals do nothing. -/
theorem takeSignal_of_terminated {v : Visit} (h : v.feed.terminated) (signal : Signal) :
    v.takeSignal signal = v := by
  cases signal with
  | closed reason => exact terminate_of_terminated h _ _
  | interrupted reason => rw [takeSignal, if_pos h]

/-- Two visits know the same of the room. -/
structure SameRoom (v v' : Visit) : Prop where
  terminated : v'.feed.terminated = v.feed.terminated
  snapshot : v'.feed.snapshot = v.feed.snapshot
  view : v'.feed.view = v.feed.view
  username : v'.feed.username = v.feed.username
  redirectDelay : v'.redirectDelay = v.redirectDelay

/-- A visit knows the same of the room as itself. -/
theorem SameRoom.refl (v : Visit) : SameRoom v v :=
  ⟨rfl, rfl, rfl, rfl, rfl⟩

/-- What leaves the room alone twice leaves it alone. -/
theorem SameRoom.trans {v v' v'' : Visit} (h : SameRoom v v') (h' : SameRoom v' v'') :
    SameRoom v v'' :=
  ⟨h'.terminated.trans h.terminated, h'.snapshot.trans h.snapshot, h'.view.trans h.view,
    h'.username.trans h.username, h'.redirectDelay.trans h.redirectDelay⟩

/-- What a step may do to a page when it says nothing of the room. -/
inductive PageStep (page : Page) : Page → Prop where
  | same : PageStep page page
  | settle : PageStep page page.settle
  | advance (milliseconds : Nat) : PageStep page (page.settle.wait milliseconds).settle

/-- What timers and the clock keep, such a step keeps.  The clock moves only where nothing new is to be
taken up. -/
theorem PageStep.induction {motive : Page → Prop}
    (settle : ∀ {page}, motive page → motive page.settle)
    (wait : ∀ {page}, motive page → page.timers.recent = [] →
      ∀ milliseconds, motive (page.wait milliseconds))
    {page page' : Page} (step : PageStep page page') (h : motive page) : motive page' := by
  cases step with
  | same => exact h
  | settle => exact settle h
  | advance milliseconds => exact settle (wait (settle h) (Page.recent_settle page) milliseconds)

/-- Such a step keeps the news that timers never bring. -/
theorem PageStep.news_eq {page page' : Page} (step : PageStep page page') {α : Type}
    {select : Event → Option α} (h : ∀ event : Event, event.isTimed → select event = none) :
    page'.news select = page.news select := by
  cases step with
  | same => rfl
  | settle => exact Page.news_settle page h
  | advance milliseconds =>
    rw [Page.news_settle _ h]
    exact Page.news_settle page h

/-- A step without news changes nothing of the room, and the page only through its timers. -/
structure Unheard (v v' : Visit) : Prop where
  room : SameRoom v v'
  page : PageStep v.page v'.page

theorem Unheard.refl (v : Visit) : Unheard v v :=
  ⟨.refl v, .same⟩

/-- Changes of an inbox change neither the room nor the page. -/
theorem unheard_updateInbox (v : Visit) (reader : Nat) (change : Inbox → Inbox) :
    Unheard v { v with feed := v.feed.updateInbox reader change } := by
  unfold Feed.updateInbox
  split
  · split
    · exact ⟨⟨rfl, rfl, rfl, rfl, rfl⟩, .same⟩
    · exact .refl v
  · exact .refl v

/-- From a connection nothing is heard yet. -/
theorem unheard_connect (v : Visit) : Unheard v (v.step .connect) := by
  rw [step]
  -- a connection that is refused leaves all as it was
  split
  · rename_i connected hconnect
    unfold connect Feed.attach at hconnect
    split at hconnect
    · cases hconnect
    · rename_i feed hfeed
      split at hfeed
      · cases hfeed
      · split at hfeed
        · cases hfeed
        · cases hfeed
          cases hconnect
          exact ⟨⟨rfl, rfl, rfl, rfl, rfl⟩, .same⟩
  · exact .refl v

/-- Nor is it where the page asks for the next input and there is none. -/
theorem unheard_nextInput (v : Visit) : Unheard v v.nextInput.2 := by
  unfold nextInput Feed.takeInput
  cases v.feed.inbox with
  | none => exact .refl v
  | some inbox =>
    obtain ⟨reader, waiting, finished⟩ := inbox
    cases waiting with
    | cons input waiting => exact ⟨⟨rfl, rfl, rfl, rfl, rfl⟩, .same⟩
    | nil =>
      cases finished
      · exact .refl v
      · exact ⟨⟨rfl, rfl, rfl, rfl, rfl⟩, .same⟩

/-- What a visit is after something that may be news. -/
def afterNews (v : Visit) (news? : Option RoomNews) (v' : Visit) : Prop :=
  match news? with
  | some news => v' = if v.feed.terminated then v else v.hear news
  | none => Unheard v v'

/-- A payload is heard as a snapshot, if it is one. -/
theorem afterNews_applySnapshot (v : Visit) (payload : String) :
    v.afterNews ((snapshotOf? payload).map .snapshot) (v.applySnapshot payload).2 := by
  rw [applySnapshot, snapshotOf?]
  cases Json.decodeText Snapshot.decoder payload with
  | error e => cases v.feed.terminated <;> exact .refl v
  | ok s => cases h : v.feed.terminated <;> simp [afterNews, hear, h]

/-- A signal is heard as its news, if it has any. -/
theorem afterNews_takeSignal (v : Visit) (signal : Signal) :
    v.afterNews (newsOfSignal? signal) (v.takeSignal signal) := by
  cases signal with
  | closed reason =>
    rw [takeSignal]
    simp only [newsOfSignal?, afterNews, hear]
    split
    · rename_i h
      exact terminate_of_terminated h _ _
    · rfl
  | interrupted reason =>
    rw [takeSignal]
    split
    · exact .refl v
    · exact ⟨⟨rfl, rfl, rfl, rfl, rfl⟩, .same⟩

/-- **What a step can do.** News are taken up, unless the room is over; any other step changes
nothing of the room, and the page only through its timers. -/
theorem afterNews_step (v : Visit) (step : Step) : v.afterNews step.news? (v.step step) := by
  cases step with
  | handle input =>
    cases input with
    | message text => exact afterNews_applySnapshot v text
    | ended how => exact afterNews_takeSignal v how
    | opened => exact ⟨⟨rfl, rfl, rfl, rfl, rfl⟩, .same⟩
    | reconnecting attempt delay => exact ⟨⟨rfl, rfl, rfl, rfl, rfl⟩, .same⟩
  | payload text => exact afterNews_applySnapshot v text
  | signal how => exact afterNews_takeSignal v how
  | connect => exact unheard_connect v
  | cleanup => exact ⟨⟨rfl, rfl, rfl, rfl, rfl⟩, .same⟩
  | deliver reader input => exact unheard_updateInbox v reader _
  | finish reader => exact unheard_updateInbox v reader _
  | nextInput => exact unheard_nextInput v
  | settle => exact ⟨⟨rfl, rfl, rfl, rfl, rfl⟩, .settle⟩
  | advance milliseconds => exact ⟨⟨rfl, rfl, rfl, rfl, rfl⟩, .advance milliseconds⟩

/-- A step with news is heard unless the room is over. -/
theorem step_of_news {v : Visit} {step : Step} {news : RoomNews} (h : step.news? = some news) :
    v.step step = if v.feed.terminated then v else v.hear news := by
  have := afterNews_step v step
  rwa [h] at this

/-- From any other step nothing is heard. -/
theorem unheard_step {v : Visit} {step : Step} (h : step.news? = none) :
    Unheard v (v.step step) := by
  have := afterNews_step v step
  rwa [h] at this

/-! ### Runs -/

@[simp] theorem run_nil (v : Visit) : v.run [] = v := rfl

@[simp] theorem run_cons (v : Visit) (step : Step) (steps : List Step) :
    v.run (step :: steps) = (v.step step).run steps := rfl

/-- Steps are taken one after another. -/
theorem run_append (v : Visit) (before after : List Step) :
    v.run (before ++ after) = (v.run before).run after :=
  List.foldl_append

/-- What every step keeps, a run keeps. -/
theorem run_induction {motive : Visit → Prop} (step : ∀ v s, motive v → motive (v.step s))
    (steps : List Step) {v : Visit} (h : motive v) : motive (v.run steps) := by
  induction steps generalizing v with
  | nil => exact h
  | cons s steps ih => exact ih (step v s h)

/-- When the room is over, nothing that is known of it changes any more. -/
theorem sameRoom_step_of_terminated {v : Visit} (h : v.feed.terminated) (step : Step) :
    SameRoom v (v.step step) := by
  cases hnews : step.news? with
  | none => exact (unheard_step hnews).room
  | some news =>
    rw [step_of_news hnews, if_pos h]
    exact .refl v

/-- When the room is over, nothing happens in it any more. -/
theorem sameRoom_run_of_terminated {v : Visit} (h : v.feed.terminated) (steps : List Step) :
    SameRoom v (v.run steps) := by
  refine run_induction (motive := SameRoom v) (fun w s hw => ?_) steps (.refl v)
  exact hw.trans (sameRoom_step_of_terminated (hw.terminated.trans h) s)

/-! ### The end of the room -/

/-- Heard in an open room, news end it exactly if they are the last ones. -/
theorem terminated_hear {v : Visit} (h : v.feed.terminated = false) (news : RoomNews) :
    (v.hear news).feed.terminated = news.isLast := by
  cases news with
  | closed reason =>
    rw [hear, terminate, if_neg (Bool.eq_false_iff.mp h)]
    rfl
  | snapshot s =>
    rw [hear, takeSnapshot, RoomNews.isLast]
    cases hexpired : s.isExpired with
    | true =>
      have hopen : ¬ (v.showSnapshot s).feed.terminated := Bool.eq_false_iff.mp h
      simp only [if_true]
      rw [terminate, if_neg hopen]
      rfl
    | false => cases s.notification <;> exact h

/-- The room is over after a step if it was, or if the step ends it. -/
theorem terminated_step (v : Visit) (step : Step) :
    (v.step step).feed.terminated = (v.feed.terminated || step.ends) := by
  cases hover : v.feed.terminated with
  | true => exact (sameRoom_step_of_terminated hover step).terminated.trans hover
  | false =>
    rw [Step.ends, Bool.false_or]
    cases hnews : step.news? with
    | none => exact (unheard_step hnews).room.terminated.trans hover
    | some news =>
      rw [step_of_news hnews, if_neg (Bool.eq_false_iff.mp hover)]
      exact terminated_hear hover news

/-- The room is over exactly if a step has ended it. -/
theorem terminated_run (v : Visit) (steps : List Step) :
    (v.run steps).feed.terminated = (v.feed.terminated || steps.any Step.ends) := by
  induction steps generalizing v with
  | nil => simp
  | cons step steps ih => rw [run_cons, ih, terminated_step, List.any_cons, Bool.or_assoc]

end Visit

end DropRoom.Room
