import DropRoom.Proofs.Room.Run

namespace DropRoom.Room

/-!
# Listening to a reader

What happens to a visit leaves the inbox of its reader alone, unless it is about the inbox: a
connection, a cleanup, something that a reader does, or the question for the next input.  When the room
ends, the reader is detached.

* `Feed.SameInbox`, `Feed.Detached` — what is kept of an inbox and its reader, or is lost;
* `Visit.Step.isAboutInbox` — the steps that are about the inbox;
* `Visit.Listens` — the inbox is kept, but for the end of the room;
* `Visit.listens_step` — no other step does anything else to it.
-/

/-- Two feeds have the same reader and the same inbox. -/
structure Feed.SameInbox (feed feed' : Feed) : Prop where
  inbox : feed'.inbox = feed.inbox
  reader : feed'.reader = feed.reader
  readers : feed'.readers = feed.readers

/-- A feed has lost its reader and its inbox. -/
structure Feed.Detached (feed feed' : Feed) : Prop where
  inbox : feed'.inbox = none
  reader : feed'.reader = none
  readers : feed'.readers = feed.readers

theorem Feed.SameInbox.refl (feed : Feed) : feed.SameInbox feed :=
  ⟨rfl, rfl, rfl⟩

/-- To detach readers detaches them. -/
theorem Feed.detached_detach (feed : Feed) : feed.Detached feed.detach :=
  ⟨rfl, rfl, rfl⟩

/-- A reader is attached where there is none, with an empty inbox. -/
theorem Feed.attach_eq_ok {feed feed' : Feed} (h : feed.attach = .ok feed') :
    feed.reader = none ∧ feed'.reader = some feed.readers ∧
      feed'.inbox = some ⟨feed.readers, [], false⟩ ∧ feed'.readers = feed.readers + 1 := by
  unfold attach at h
  split at h
  · cases h
  · split at h
    · cases h
    · rename_i hfree
      cases h
      exact ⟨Option.not_isSome_iff_eq_none.mp hfree, rfl, rfl, rfl⟩

/-- What readers bring does not attach or detach any. -/
@[simp] theorem Feed.reader_updateInbox (feed : Feed) (reader : Nat) (change : Inbox → Inbox) :
    (feed.updateInbox reader change).reader = feed.reader := by
  unfold updateInbox
  split
  · split <;> rfl
  · rfl

/-- It does not make new ones. -/
@[simp] theorem Feed.readers_updateInbox (feed : Feed) (reader : Nat) (change : Inbox → Inbox) :
    (feed.updateInbox reader change).readers = feed.readers := by
  unfold updateInbox
  split
  · split <;> rfl
  · rfl

/-- It changes the inbox of its reader alone. -/
theorem Feed.inbox_updateInbox (feed : Feed) (reader : Nat) (change : Inbox → Inbox) :
    (feed.updateInbox reader change).inbox =
      feed.inbox.map fun inbox => if inbox.reader = reader then change inbox else inbox := by
  unfold updateInbox
  cases hinbox : feed.inbox with
  | none => simpa using hinbox
  | some inbox =>
    simp only [Option.map_some]
    split
    · rfl
    · exact hinbox

namespace Visit

variable {v v' : Visit}

/-- Whether a step is about the inbox. -/
def Step.isAboutInbox : Step → Bool
  | .connect => true
  | .cleanup => true
  | .deliver _ _ => true
  | .finish _ => true
  | .nextInput => true
  | _ => false

/-- Whether the room was open and is over. -/
def endsRoom (v v' : Visit) : Bool :=
  !v.feed.terminated && v'.feed.terminated

/-- The inbox is kept, but for the end of the room. -/
def Listens (v v' : Visit) : Prop :=
  if v.endsRoom v' then v.feed.Detached v'.feed else v.feed.SameInbox v'.feed

/-- What leaves the inbox and the room alone leaves the page listening. -/
theorem listens_of_same (hover : v'.feed.terminated = v.feed.terminated)
    (h : v.feed.SameInbox v'.feed) : v.Listens v' := by
  have hends : v.endsRoom v' = false := by simp [endsRoom, hover]
  rw [Listens, hends]
  exact h

theorem Listens.refl (v : Visit) : v.Listens v :=
  listens_of_same rfl (.refl v.feed)

/-- When the room ends, the reader is detached. -/
theorem listens_terminate (hover : v'.feed.terminated = v.feed.terminated)
    (h : v.feed.SameInbox v'.feed) (message reason : String) :
    v.Listens (v'.terminate message reason) := by
  rw [terminate]
  split
  · exact listens_of_same hover h
  · rename_i hopen
    have hbefore : v.feed.terminated = false := hover ▸ Bool.eq_false_iff.mpr hopen
    rw [Listens, endsRoom, hbefore]
    exact ⟨rfl, rfl, h.readers⟩

/-- What is heard of the room leaves the page listening, or ends the room. -/
theorem listens_hear (v : Visit) (news : RoomNews) : v.Listens (v.hear news) := by
  cases news with
  | closed reason => exact listens_terminate rfl (.refl v.feed) _ _
  | snapshot s =>
    have hshow : v.feed.SameInbox (v.showSnapshot s).feed := ⟨rfl, rfl, rfl⟩
    rw [hear, takeSnapshot]
    split
    · exact @listens_terminate v (v.showSnapshot s) rfl hshow _ _
    · split
      · exact listens_of_same rfl hshow
      · exact listens_of_same rfl hshow

/-- A stream that is interrupted leaves it listening. -/
theorem listens_interrupted (v : Visit) (reason : String) :
    v.Listens (v.takeSignal (.interrupted reason)) := by
  rw [takeSignal]
  split
  · exact .refl v
  · exact listens_of_same rfl ⟨rfl, rfl, rfl⟩

/-- **Other steps.** A step that is not about the inbox keeps it, but for the end of the room. -/
theorem listens_step (v : Visit) {step : Step} (h : step.isAboutInbox = false) :
    v.Listens (v.step step) := by
  cases hnews : step.news? with
  | some news =>
    rw [step_of_news hnews]
    split
    · exact .refl v
    · exact listens_hear v news
  | none =>
    -- without news, only the state of the connection or the page may change
    cases step with
    | connect => cases h
    | cleanup => cases h
    | deliver _ _ => cases h
    | finish _ => cases h
    | nextInput => cases h
    | settle => exact listens_of_same rfl ⟨rfl, rfl, rfl⟩
    | advance milliseconds => exact listens_of_same rfl ⟨rfl, rfl, rfl⟩
    | payload text =>
      rw [Visit.step, applySnapshot_of_malformed v (Option.map_eq_none_iff.mp hnews)]
      exact .refl v
    | signal how =>
      cases how with
      | closed reason => cases hnews
      | interrupted reason => exact listens_interrupted v reason
    | handle input =>
      cases input with
      | opened => exact listens_of_same rfl ⟨rfl, rfl, rfl⟩
      | reconnecting attempt delay => exact listens_of_same rfl ⟨rfl, rfl, rfl⟩
      | message text =>
        rw [Visit.step, handle, applySnapshot_of_malformed v (Option.map_eq_none_iff.mp hnews)]
        exact .refl v
      | ended how =>
        cases how with
        | closed reason => cases hnews
        | interrupted reason => exact listens_interrupted v reason

end Visit

end DropRoom.Room
