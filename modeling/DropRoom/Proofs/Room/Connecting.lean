import DropRoom.Proofs.Log
import DropRoom.Proofs.Room.Listening

namespace DropRoom.Room

/-!
# Connections that succeed

A page has one reader at a time, and none once the room is over.  A reader that has finished is
still attached, even when everything it brought was taken: only after a cleanup may another one
come.

* `Visit.Connected` — a connection has succeeded, and nothing was cleaned up since;
* `Visit.connect_eq` — what becomes of a connection, by what is attached;
* `Visit.Attached`, `Visit.Attached.step`, `Visit.attached_run` — what is attached, after any steps;
* `Visit.connects_once_until_cleanup` — what becomes of a connection after any steps.
-/

/-- To take an input leaves the reader attached. -/
@[simp] theorem Feed.reader_takeInput (feed : Feed) : feed.takeInput.2.reader = feed.reader := by
  unfold takeInput
  split
  · rfl
  · split
    · rfl
    · split <;> rfl

/-- To ask for the next input never makes an inbox. -/
theorem Feed.inbox_of_takeInput {feed : Feed} (h : feed.takeInput.2.inbox.isSome) :
    feed.inbox.isSome := by
  unfold takeInput at h
  split at h
  · exact h
  · rename_i hinbox
    rw [hinbox]
    rfl

namespace Visit

variable {start v v' : Visit} {steps : List Step} {connected : Prop}

/-- A connection is refused once the room is over, and while there is a reader. -/
theorem connect_eq (v : Visit) :
    v.connect =
      if v.feed.terminated then .error (.terminated "room stream already closed")
      else if v.feed.reader.isSome then .error .alreadyConnected
      else .ok { v with feed := { v.feed with
        reader := some v.feed.readers
        inbox := some ⟨v.feed.readers, [], false⟩
        state := .connecting
        readers := v.feed.readers + 1 } } := by
  unfold connect Feed.attach
  by_cases hover : v.feed.terminated
  · simp only [if_pos hover]
  · by_cases hreader : v.feed.reader.isSome
    · simp only [if_neg hover, if_pos hreader]
    · simp only [if_neg hover, if_neg hreader]

/-- A connection succeeds exactly if the room is not over and no reader is attached. -/
theorem connect_eq_ok_iff :
    (∃ v', v.connect = .ok v') ↔
      v.feed.terminated = false ∧ v.feed.reader.isSome = false := by
  rw [connect_eq]
  cases v.feed.terminated <;> cases v.feed.reader <;> simp

/-- It is refused as too late exactly if the room is over. -/
theorem connect_eq_terminated_iff :
    v.connect = .error (.terminated "room stream already closed") ↔ v.feed.terminated = true := by
  rw [connect_eq]
  cases v.feed.terminated <;> cases v.feed.reader <;> simp

/-- It is refused as one too many exactly if a reader is attached to a room that is not over. -/
theorem connect_eq_alreadyConnected_iff :
    v.connect = .error .alreadyConnected ↔
      v.feed.terminated = false ∧ v.feed.reader.isSome = true := by
  rw [connect_eq]
  cases v.feed.terminated <;> cases v.feed.reader <;> simp

/-! ### What is attached -/

/-- There is a reader exactly if the room is open and the page is connected, and an inbox only
beside a reader. -/
structure Attached (v : Visit) (connected : Prop) : Prop where
  reader : v.feed.reader.isSome ↔ v.feed.terminated = false ∧ connected
  inbox : v.feed.inbox.isSome → v.feed.reader.isSome

/-- What changes neither the reader nor whether the room is over changes nothing about connections.
-/
theorem Attached.same (h : v.Attached connected)
    (hover : v'.feed.terminated = v.feed.terminated) (hreader : v'.feed.reader = v.feed.reader)
    (hinbox : v'.feed.inbox.isSome → v.feed.inbox.isSome) : v'.Attached connected := by
  refine ⟨?_, fun hsome => ?_⟩
  · rw [hreader, hover]
    exact h.reader
  · rw [hreader]
    exact h.inbox (hinbox hsome)

/-- Where readers are detached, none is attached. -/
theorem attached_of_detached (hdetached : v.feed.Detached v'.feed)
    (h : v'.feed.terminated = false → ¬ connected) : v'.Attached connected := by
  refine ⟨?_, fun hsome => ?_⟩
  · rw [hdetached.reader]
    simpa using h
  · rw [hdetached.inbox] at hsome
    cases hsome

/-- A step that is not about the inbox leaves a reader attached, unless it ends the room. -/
theorem Attached.of_listens (h : v.Attached connected) (hlistens : v.Listens v')
    (hover : v.feed.terminated = true → v'.feed.terminated = true) : v'.Attached connected := by
  rw [Listens] at hlistens
  split at hlistens
  · rename_i hends
    rw [endsRoom, Bool.and_eq_true] at hends
    exact attached_of_detached hlistens fun hopen => absurd (hopen.symm.trans hends.2) (by decide)
  · rename_i hends
    -- the room was over before, or it is still open
    have hsame : v'.feed.terminated = v.feed.terminated := by
      cases hbefore : v.feed.terminated with
      | true => exact hover hbefore
      | false => simpa [endsRoom, hbefore] using hends
    refine h.same hsame hlistens.reader fun hsome => ?_
    rw [← hlistens.inbox]
    exact hsome

/-- Whether the page is connected after one more step. -/
def ConnectedAfter (v : Visit) (step : Step) (connected : Prop) : Prop :=
  (step = .connect ∧ ∃ v', v.connect = .ok v') ∨ step ≠ .cleanup ∧ connected

/-- Steps other than a connection and a cleanup do not count. -/
theorem connectedAfter_of_other {step : Step} (hconnect : step ≠ .connect)
    (hcleanup : step ≠ .cleanup) : v.ConnectedAfter step connected ↔ connected := by
  simp only [ConnectedAfter, hconnect, false_and, false_or, ne_eq, hcleanup, not_false_eq_true,
    true_and]

/-- After a connection a reader is attached, unless the room is over. -/
theorem Attached.connect (h : v.Attached connected) :
    (v.step .connect).Attached (v.ConnectedAfter .connect connected) := by
  have hafter : v.ConnectedAfter .connect connected ↔
      (∃ v', v.connect = .ok v') ∨ connected := by
    simp [ConnectedAfter]
  rw [hafter, connect_eq_ok_iff, Visit.step, connect_eq]
  by_cases hover : v.feed.terminated
  · rw [if_pos hover]
    refine ⟨?_, h.inbox⟩
    simpa [hover] using h.reader
  · by_cases hreader : v.feed.reader.isSome
    · rw [if_neg hover, if_pos hreader]
      refine ⟨?_, h.inbox⟩
      simpa [hover, hreader] using h.reader
    · rw [if_neg hover, if_neg hreader]
      refine ⟨?_, fun _ => rfl⟩
      simp [hover, hreader]

/-- Any step but a connection and a cleanup leaves a reader attached, unless it ends the room. -/
theorem Attached.other (h : v.Attached connected) {step : Step} (hconnect : step ≠ .connect)
    (hcleanup : step ≠ .cleanup) : (v.step step).Attached connected := by
  cases step with
  | connect => exact absurd rfl hconnect
  | cleanup => exact absurd rfl hcleanup
  | deliver reader input =>
    refine h.same (unheard_updateInbox v reader _).room.terminated
      (v.feed.reader_updateInbox reader _) fun hsome => ?_
    simpa [Visit.step, deliver, Feed.deliver, Feed.inbox_updateInbox] using hsome
  | finish reader =>
    refine h.same (unheard_updateInbox v reader _).room.terminated
      (v.feed.reader_updateInbox reader _) fun hsome => ?_
    simpa [Visit.step, finish, Feed.finish, Feed.inbox_updateInbox] using hsome
  | nextInput =>
    exact h.same (unheard_nextInput v).room.terminated v.feed.reader_takeInput
      Feed.inbox_of_takeInput
  | _ =>
    -- the others are not about the inbox
    refine h.of_listens (v.listens_step rfl) fun hover => ?_
    exact (sameRoom_step_of_terminated hover _).terminated.trans hover

/-- **What a step attaches.** Only a connection attaches a reader, and only a cleanup and the end
of the room detach it. -/
theorem Attached.step (h : v.Attached connected) (step : Step) :
    (v.step step).Attached (v.ConnectedAfter step connected) := by
  by_cases hconnect : step = .connect
  · rw [hconnect]
    exact h.connect
  · by_cases hcleanup : step = .cleanup
    · rw [hcleanup]
      refine attached_of_detached v.feed.detached_detach fun _ hafter => ?_
      simp [ConnectedAfter] at hafter
    · rw [connectedAfter_of_other hconnect hcleanup]
      exact h.other hconnect hcleanup

/-! ### Runs -/

/-- A connection has succeeded, and nothing was cleaned up since. -/
def Connected (start : Visit) (steps : List Step) : Prop :=
  ∃ before after, steps = before ++ .connect :: after ∧
    (∃ v, (start.run before).connect = .ok v) ∧ .cleanup ∉ after

/-- Whether the page is connected is decided by the last step, and by those before it unless that
was a cleanup. -/
theorem connected_concat (step : Step) :
    start.Connected (steps ++ [step]) ↔
      (start.run steps).ConnectedAfter step (start.Connected steps) := by
  constructor
  · rintro ⟨before, after, hsplit, hok, hkept⟩
    rcases Log.concat_eq_append_cons.mp hsplit with ⟨rfl, hlast, _⟩ | ⟨rest, rfl, rfl⟩
    · exact .inl ⟨hlast, hok⟩
    · -- the connection was one of the steps before
      rw [List.mem_append, not_or, List.mem_singleton] at hkept
      exact .inr ⟨Ne.symm hkept.2, before, rest, rfl, hok, hkept.1⟩
  · rintro (⟨rfl, hok⟩ | ⟨hlast, before, after, rfl, hok, hkept⟩)
    · exact ⟨steps, [], rfl, hok, List.not_mem_nil⟩
    · refine ⟨before, after ++ [step], by simp, hok, ?_⟩
      rw [List.mem_append, not_or, List.mem_singleton]
      exact ⟨hkept, Ne.symm hlast⟩

/-- A reader is attached exactly where the history says so, as long as the room is not over. -/
theorem attached_run (hstart : start.feed.reader = none) (hinbox : start.feed.inbox = none)
    (steps : List Step) : (start.run steps).Attached (start.Connected steps) := by
  induction steps using List.reverseRecOn with
  | nil =>
    refine ⟨?_, by simp [hinbox]⟩
    simp [Connected, hstart]
  | append_singleton steps step ih =>
    rw [run_append, run_cons, run_nil, connected_concat]
    exact ih.step step

/-- **When a connection succeeds.** Take any steps of a visit.  A connection then succeeds exactly
if none of them has ended the room, and no connection has succeeded since the last cleanup.  It is
refused as one to a room that is over if a step has ended it, and otherwise because the page is
connected; then all stays as it was.  The page only has an inbox while a reader is attached and the
room is open. -/
theorem connects_once_until_cleanup (setup : Page.Setup) (url : Url) (username : Option String)
    (delay actionDelay : UInt64) (steps : List Step) :
    let start := initial setup url username delay actionDelay
    let v := start.run steps
    let ended := ∃ step ∈ steps, step.ends
    (v.feed.terminated ↔ ended) ∧
    ((∃ v', v.connect = .ok v') ↔ ¬ ended ∧ ¬ start.Connected steps) ∧
    (v.connect = .error (.terminated "room stream already closed") ↔ ended) ∧
    (v.connect = .error .alreadyConnected ↔ ¬ ended ∧ start.Connected steps) ∧
    (∀ e, v.connect = .error e → v.step .connect = v) ∧
    (v.feed.isReceiving → v.feed.reader.isSome ∧ v.feed.terminated = false) := by
  intro start v ended
  have hover : v.feed.terminated ↔ ended := by
    have hends : v.feed.terminated = steps.any Step.ends := terminated_run start steps
    rw [hends, List.any_eq_true]
  have hattached : v.Attached (start.Connected steps) := attached_run rfl rfl steps
  have hreader := hattached.reader
  rw [← hover]
  refine ⟨.rfl, ?_, connect_eq_terminated_iff, ?_, fun e he => ?_, fun hreceiving => ?_⟩
  · rw [connect_eq_ok_iff, ← Bool.not_eq_true, ← Bool.not_eq_true]
    refine and_congr_right fun hopen => not_congr ?_
    rw [hreader, ← Bool.not_eq_true]
    exact and_iff_right hopen
  · rw [connect_eq_alreadyConnected_iff, hreader, ← Bool.not_eq_true]
    exact and_self_left
  · rw [Visit.step, he]
  · have hsome := hattached.inbox hreceiving
    exact ⟨hsome, (hreader.mp hsome).1⟩

/-- A reader has finished, and all that it brought was taken: nothing more can come, but the page is
still connected.  After a cleanup a connection succeeds, and after the end of the room none does. -/
theorem connects_once_until_cleanup_of_finished :
    let url : Url := ⟨"http", "", "", none, none, .segments ["rooms"], none, none⟩
    let start := initial ⟨"/create.html", 4000, 8000, 16⟩ url none 1000 500
    let steps := [.connect, .deliver 0 (.ended (.interrupted "lost")), .finish 0, .nextInput,
      .handle (.ended (.interrupted "lost")), .nextInput]
    (start.run steps).feed.isReceiving = false ∧
      (start.run steps).connect = .error .alreadyConnected ∧
      (∃ v, (start.run (steps ++ [.cleanup])).connect = .ok v) ∧
      (start.run (steps ++ [.cleanup, .signal (.closed "gone"), .cleanup])).connect =
        .error (.terminated "room stream already closed") := by
  intro url start steps
  have hconnects := connects_once_until_cleanup ⟨"/create.html", 4000, 8000, 16⟩ url none 1000 500
  have hopen : ¬ ∃ step ∈ steps, step.ends := by decide
  have hconnected : start.Connected steps :=
    ⟨[], _, rfl, ⟨_, rfl⟩, by simp⟩
  obtain ⟨_, _, _, hrefused, _, _⟩ := hconnects steps
  obtain ⟨_, hok, _⟩ := hconnects (steps ++ [.cleanup])
  obtain ⟨_, _, hover, _⟩ := hconnects (steps ++ [.cleanup, .signal (.closed "gone"), .cleanup])
  refine ⟨by decide, hrefused.mpr ⟨hopen, hconnected⟩, hok.mpr ⟨by decide, fun h => ?_⟩,
    hover.mpr ?_⟩
  · rw [connected_concat] at h
    simp [ConnectedAfter] at h
  · exact ⟨.signal (.closed "gone"), by simp, rfl⟩

end Visit

end DropRoom.Room
