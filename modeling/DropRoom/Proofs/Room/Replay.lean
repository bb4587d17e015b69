import DropRoom.Proofs.Room.Run

namespace DropRoom.Room

/-!
# What a visit shows

What a page shows and announces of a room is said by its steps alone, without the state that the
visit is in between: the payloads that are snapshots, up to the end of the room.

* `accepted` — the snapshots that are taken up;
* `sift` — the steps without the payloads that are not taken up;
* `Visit.Replayed` — a visit shows snapshots, in order;
* `Visit.run_sift` — the payloads that are not taken up do not matter;
* `Visit.replays_accepted` — a visit shows the snapshots that are taken up.
-/

namespace Visit

/-- The payload that a step takes up. -/
def Step.payload? : Step → Option String
  | .handle (.message text) => some text
  | .payload text => some text
  | _ => none

end Visit

/-- The snapshots that are taken up in order: those up to the end of the room. -/
def accepted : List Visit.Step → List Snapshot
  | [] => []
  | step :: steps =>
    match step.news? with
    | none => accepted steps
    | some (.snapshot s) => s :: if s.isExpired then [] else accepted steps
    | some (.closed _) => []

/-- Whether the payload of a step is not taken up, if it has one: it is no snapshot, or the room is
over. -/
def isRefused (ended : Bool) (step : Visit.Step) : Bool :=
  step.payload?.any fun text => ended || (snapshotOf? text).isNone

/-- The steps without the payloads that are not taken up. -/
def sift (ended : Bool) : List Visit.Step → List Visit.Step
  | [] => []
  | step :: steps =>
    if isRefused ended step then sift ended steps
    else step :: sift (ended || step.ends) steps

namespace Visit

variable {v v' : Visit} {username : Option String} {snapshots : List Snapshot}
  {messages : List String}

/-! ### Payloads that do not matter -/

/-- A step that brings a payload applies it as a snapshot. -/
theorem step_of_payload {step : Step} {text : String} (h : step.payload? = some text) :
    v.step step = (v.applySnapshot text).2 := by
  cases step with
  | payload text' =>
    cases h
    rfl
  | handle input =>
    cases input with
    | message text' =>
      cases h
      rfl
    | _ => cases h
  | _ => cases h

/-- A payload that is not taken up changes nothing at all. -/
theorem step_of_isRefused {step : Step} (h : isRefused v.feed.terminated step) :
    v.step step = v := by
  obtain ⟨text, hpayload, hrefused⟩ := (Option.any_eq_true _ _).mp h
  rw [step_of_payload hpayload]
  rcases Bool.or_eq_true_iff.mp hrefused with hover | hmalformed
  · rw [applySnapshot_of_terminated hover]
  · rw [applySnapshot_of_malformed v (Option.isNone_iff_eq_none.mp hmalformed)]

/-- **Refused payloads do not matter.** Without the payloads that are no snapshots and those that
come after the end, a run ends in the very same visit. -/
theorem run_sift (v : Visit) (steps : List Step) :
    v.run (sift v.feed.terminated steps) = v.run steps := by
  induction steps generalizing v with
  | nil => rfl
  | cons step steps ih =>
    rw [sift, run_cons]
    split
    · rename_i hrefused
      rw [step_of_isRefused hrefused, ih]
    · rw [run_cons, ← terminated_step, ih]

/-! ### What a visit shows -/

/-- A visit shows snapshots and messages: it has announced the view of each snapshot and each
message, in order, and shows the last snapshot. -/
structure Replayed (username : Option String) (snapshots : List Snapshot) (messages : List String)
    (v : Visit) : Prop where
  username_eq : v.feed.username = username
  snapshot : v.feed.snapshot = snapshots.getLast?
  view : v.feed.view = snapshots.getLast?.map (View.ofSnapshot · username)
  views : v.page.news Event.view? = snapshots.map (View.ofSnapshot · username)
  notices : (v.page.notices .info).map (·.message) = messages

/-- A visit that has just begun shows nothing. -/
theorem initial_replayed (setup : Page.Setup) (url : Url) (username : Option String)
    (delay actionDelay : UInt64) :
    (initial setup url username delay actionDelay).Replayed username [] [] :=
  ⟨rfl, rfl, rfl, rfl, rfl⟩

/-- A snapshot that is shown is replayed after the others. -/
theorem Replayed.showSnapshot (h : v.Replayed username snapshots messages) (s : Snapshot) :
    (v.showSnapshot s).Replayed username (snapshots ++ [s]) messages := by
  constructor
  · exact h.username_eq
  · simp [Visit.showSnapshot]
  · simp [Visit.showSnapshot, h.username_eq]
  · show (v.page.publish _).news Event.view? = _
    rw [Page.news_publish, h.views, h.username_eq, List.map_append]
    rfl
  · show ((v.page.publish _).notices .info).map _ = _
    rw [Page.notices_publish, ← h.notices]
    simp [Event.shown?]

/-- A toast adds its message if it is for information. -/
theorem Replayed.notify (h : v.Replayed username snapshots messages) (message : String)
    (severity : Toast.Severity) :
    { v with page := v.page.notify message severity }.Replayed username snapshots
      (messages ++ if severity = Toast.Severity.info then [message] else []) := by
  refine ⟨h.username_eq, h.snapshot, h.view, ?_, ?_⟩
  · show (v.page.notify message severity).news Event.view? = _
    rw [Page.news_notify, h.views]
    simp [Event.view?]
  · show ((v.page.notify message severity).notices .info).map _ = _
    rw [Page.notices_notify, List.map_append, h.notices]
    by_cases hinfo : severity = .info
    · simp [hinfo, Page.nextToast]
    · simp [hinfo]

/-- The end of a room adds nothing to what is shown of it. -/
theorem Replayed.terminate (h : v.Replayed username snapshots messages) (message reason : String) :
    (v.terminate message reason).Replayed username snapshots messages := by
  rw [Visit.terminate]
  split
  · exact h
  · have htold := h.notify message .error
    refine ⟨h.username_eq, h.snapshot, h.view, ?_, ?_⟩
    · show ((v.page.notify message .error).publish _).news Event.view? = _
      rw [Page.news_publish, htold.views]
      simp [Event.view?]
    · show (((v.page.notify message .error).publish _).notices .info).map _ = _
      rw [Page.notices_publish, List.map_append, htold.notices]
      simp [Event.shown?]

/-- The messages of snapshots that are not expired, in order. -/
def messagesOf (snapshots : List Snapshot) : List String :=
  (snapshots.filter (!·.isExpired)).filterMap (·.notification)

/-- Messages come in the order of their snapshots. -/
theorem messagesOf_cons (s : Snapshot) (rest : List Snapshot) :
    messagesOf (s :: rest) = messagesOf [s] ++ messagesOf rest := by
  rw [messagesOf, messagesOf, messagesOf, ← List.filterMap_append, ← List.filter_append,
    List.singleton_append]

/-- A snapshot that is taken up is shown, and its message unless it is expired. -/
theorem Replayed.takeSnapshot (h : v.Replayed username snapshots messages) (s : Snapshot) :
    (v.takeSnapshot s).2.Replayed username (snapshots ++ [s]) (messages ++ messagesOf [s]) := by
  have hshown := h.showSnapshot s
  rw [Visit.takeSnapshot, messagesOf]
  cases hexpired : s.isExpired with
  | true =>
    have hend := hshown.terminate expiredText "room expired"
    simpa [hexpired] using hend
  | false =>
    cases hmessage : s.notification with
    | none => simpa [hexpired, hmessage] using hshown
    | some message =>
      have htold := hshown.notify message .info
      simpa [hexpired, hmessage] using htold

/-- A step without news shows nothing. -/
theorem Replayed.unheard (h : v.Replayed username snapshots messages) (hstep : Unheard v v') :
    v'.Replayed username snapshots messages := by
  obtain ⟨hroom, hpage⟩ := hstep
  constructor
  · rw [hroom.username, h.username_eq]
  · rw [hroom.snapshot, h.snapshot]
  · rw [hroom.view, h.view]
  · rw [hpage.news_eq fun _ => Event.view?_of_isTimed, h.views]
  · rw [Page.notices, hpage.news_eq fun _ => Event.shown?_of_isTimed, ← Page.notices, h.notices]

/-- When the room is over, nothing more is shown of it. -/
theorem Replayed.run_of_terminated (h : v.Replayed username snapshots messages)
    (hover : v.feed.terminated) (steps : List Step) :
    (v.run steps).Replayed username snapshots messages := by
  refine (run_induction (motive := fun w => w.feed.terminated ∧ w.Replayed username snapshots
    messages) ?_ steps ⟨hover, h⟩).2
  rintro w step ⟨hover, h⟩
  refine ⟨(sameRoom_step_of_terminated hover step).terminated.trans hover, ?_⟩
  cases hnews : step.news? with
  | none => exact h.unheard (unheard_step hnews)
  | some news =>
    rw [step_of_news hnews, if_pos hover]
    exact h

/-- A run in an open room shows the snapshots that are taken up. -/
theorem Replayed.run (h : v.Replayed username snapshots messages)
    (hopen : v.feed.terminated = false) (steps : List Step) :
    (v.run steps).Replayed username (snapshots ++ accepted steps)
      (messages ++ messagesOf (accepted steps)) := by
  induction steps generalizing v snapshots messages with
  | nil => simpa [accepted, messagesOf] using h
  | cons step steps ih =>
    rw [run_cons, accepted]
    cases hnews : step.news? with
    | none =>
      have hunheard := unheard_step (v := v) hnews
      exact ih (h.unheard hunheard) (hunheard.room.terminated.trans hopen)
    | some news =>
      rw [step_of_news hnews, if_neg (Bool.eq_false_iff.mp hopen)]
      have hlast := terminated_hear hopen news
      cases news with
      | closed reason =>
        have hend := (h.terminate closedText reason).run_of_terminated hlast steps
        simpa [hear, messagesOf] using hend
      | snapshot s =>
        have hshown := h.takeSnapshot s
        show ((v.takeSnapshot s).2.run steps).Replayed username
          (snapshots ++ s :: if s.isExpired then [] else accepted steps)
          (messages ++ messagesOf (s :: if s.isExpired then [] else accepted steps))
        by_cases hexpired : s.isExpired
        · -- the snapshot was the last news, so the rest of the run shows nothing
          rw [if_pos hexpired]
          exact hshown.run_of_terminated (hlast.trans hexpired) steps
        · have hrest := ih hshown (hlast.trans (Bool.eq_false_iff.mpr hexpired))
          rw [List.append_assoc, List.append_assoc] at hrest
          rw [if_neg hexpired, messagesOf_cons]
          exact hrest

/-- **A visit shows the snapshots that are taken up.** In every run of a visit the room is over
exactly if a step has ended it, the page knows the last snapshot that was taken up and shows its
view, and what has been announced are the view of each, and the notification of each that is not
expired, in order.  Payloads that are no snapshots or come after the end may as well be left out:
the run ends in the very same visit, with all its events, toasts and timers. -/
theorem replays_accepted (setup : Page.Setup) (url : Url) (username : Option String)
    (delay actionDelay : UInt64) (steps : List Step) :
    let start := initial setup url username delay actionDelay
    let v := start.run steps
    v.feed.terminated = steps.any Step.ends ∧
    v.feed.snapshot = (accepted steps).getLast? ∧
    v.feed.view = (accepted steps).getLast?.map (View.ofSnapshot · username) ∧
    v.page.news Event.view? = (accepted steps).map (View.ofSnapshot · username) ∧
    (v.page.notices .info).map (·.message) = messagesOf (accepted steps) ∧
    start.run (sift false steps) = v := by
  intro start v
  have hstart : start.Replayed username [] [] :=
    initial_replayed setup url username delay actionDelay
  have hover : v.feed.terminated = steps.any Step.ends := terminated_run start steps
  have hrun : v.Replayed username (accepted steps) (messagesOf (accepted steps)) := by
    simpa using hstart.run rfl steps
  exact ⟨hover, hrun.snapshot, hrun.view, hrun.views,
    hrun.notices, run_sift start steps⟩

end Visit

end DropRoom.Room
