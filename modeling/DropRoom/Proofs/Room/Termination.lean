import DropRoom.Proofs.Room.Run

namespace DropRoom

/-!
# The end of a room

A visit is open until news are the last ones, and over from then on.  What has been announced, and
what still waits, is fixed by which of the two it is.

* `Page.Staying`, `Page.Leaving` — what has been announced on a page before the end of the room,
  and after it;
* `Visit.Open`, `Visit.Over` — the same of a visit;
* `Visit.Open.step`, `Visit.Over.step` — what a step makes of them;
* `Visit.leaves_once` — the room ends at most once, its end is told once, and the page is left once,
  when the delay of the redirect has passed.
-/

namespace Page

/-- After the end of the room, no view is announced and no toast is shown. -/
def QuietAfter (earlier later : Event) : Prop :=
  earlier.termination?.isSome → later.view? = none ∧ later.shown? = none

/-- Nothing has been announced of the end of the room, and no redirect waits. -/
structure Staying (setup : Setup) (page : Page) : Prop where
  setup_eq : page.setup = setup
  orderly : page.Orderly
  terminations : page.news Event.termination? = []
  alarms : page.notices .error = []
  redirects : page.news Event.redirectLocation? = []
  deadlines : page.timers.deadlines .redirect = []

/-- The end of the room has been announced, and the redirect is due at a time: it waits until then,
and has been announced after that. -/
structure Leaving (setup : Setup) (due : Nat) (page : Page) : Prop where
  setup_eq : page.setup = setup
  orderly : page.Orderly
  terminations : (page.news Event.termination?).length = 1
  alarms : (page.notices .error).length = 1
  quiet : page.published.Pairwise QuietAfter
  redirect :
    (page.news Event.redirectLocation? = [] ∧ page.timers.deadlines .redirect = [due]) ∨
    (page.news Event.redirectLocation? = [setup.createPage] ∧
      page.timers.deadlines .redirect = [] ∧ due ≤ page.timers.now)

variable {setup : Setup} {page : Page} {due : Nat}

/-- A page that shows nothing has nothing announced. -/
theorem initial_staying (setup : Setup) : (initial setup).Staying setup :=
  ⟨rfl, initial_orderly setup, rfl, rfl, rfl, rfl⟩

/-! ### Before the end -/

/-- A page that stays does so when it settles. -/
theorem Staying.settle (h : page.Staying setup) : page.settle.Staying setup := by
  obtain ⟨hredirects, hdeadlines⟩ := redirects_settle_of_none h.orderly h.deadlines
  constructor
  · rw [setup_settle, h.setup_eq]
  · exact h.orderly.settle.1
  · rw [news_settle page fun _ => Event.termination?_of_isTimed, h.terminations]
  · rw [notices_settle, h.alarms]
  · exact hredirects.trans h.redirects
  · exact hdeadlines

/-- It does so while time passes. -/
theorem Staying.wait (h : page.Staying setup) (hrecent : page.timers.recent = [])
    (milliseconds : Nat) : (page.wait milliseconds).Staying setup :=
  ⟨h.setup_eq, h.orderly.wait milliseconds, h.terminations, h.alarms, h.redirects,
    (deadlines_wait hrecent milliseconds _).trans h.deadlines⟩

/-- Before the end of the room, a view may be announced. -/
theorem Staying.publish (h : page.Staying setup) (view : Room.View) :
    (page.publish (.room (.viewUpdated view))).Staying setup := by
  constructor
  · exact h.setup_eq
  · exact h.orderly.publish _
  · rw [news_publish, h.terminations]
    rfl
  · rw [notices_publish, h.alarms]
    rfl
  · rw [news_publish, h.redirects]
    rfl
  · exact h.deadlines

/-- Before the end of the room, a toast may be shown that does not tell of an error. -/
theorem Staying.notify (h : page.Staying setup) (message : String) {severity : Toast.Severity}
    (hseverity : severity ≠ .error) : (page.notify message severity).Staying setup := by
  constructor
  · rw [setup_notify, h.setup_eq]
  · exact h.orderly.notify message severity
  · rw [news_notify, h.terminations]
    rfl
  · rw [notices_notify, h.alarms, if_neg hseverity]
    rfl
  · rw [news_notify, h.redirects]
    rfl
  · rw [deadlines_notify, h.deadlines]

/-- **The end.** Once the end of the room is told, the redirect is due after its delay. -/
theorem Staying.leave (h : page.Staying setup) (message reason : String) (delay : Nat) :
    (((page.notify message .error).publish (.room (.terminated reason))).redirect delay).2.Leaving
      setup (page.timers.now + delay) := by
  have hdeadlines : ((page.notify message .error).publish
      (.room (.terminated reason))).timers.deadlines .redirect = [] := by
    rw [timers_publish, deadlines_notify, h.deadlines]
  have hnone : ∀ event ∈ page.published, event.termination? = none :=
    List.filterMap_eq_nil_iff.mp h.terminations
  constructor
  · rw [setup_redirect, setup_publish, setup_notify, h.setup_eq]
  · exact ((h.orderly.notify message .error).publish _).redirect delay
  · rw [news_redirect, news_publish, news_notify, h.terminations]
    rfl
  · rw [notices, news_redirect, ← notices, notices_publish, notices_notify, h.alarms]
    rfl
  · -- the only event of the end is the last one
    rw [published_redirect, published_publish, published_notify, List.append_assoc]
    refine List.pairwise_append.mpr ⟨?_, ?_, ?_⟩
    · refine List.pairwise_of_forall_mem_list ?_
      intro earlier hmem later _ hend
      rw [hnone earlier hmem] at hend
      cases hend
    · refine List.pairwise_pair.mpr ?_
      intro hend
      cases hend
    · intro earlier hmem later _ hend
      rw [hnone earlier hmem] at hend
      cases hend
  · refine .inl ⟨?_, ?_⟩
    · rw [news_redirect, news_publish, news_notify, h.redirects]
      rfl
    · rw [deadlines_redirect hdeadlines, timers_publish, now_notify]

/-! ### After the end -/

/-- A page that is to be left is so when it settles. -/
theorem Leaving.settle (h : page.Leaving setup due) : page.settle.Leaving setup due := by
  obtain ⟨later, hlater, htimed, _⟩ := published_settle page
  obtain ⟨horderly, hnow⟩ := h.orderly.settle
  constructor
  · rw [setup_settle, h.setup_eq]
  · exact horderly
  · rw [news_settle page fun _ => Event.termination?_of_isTimed, h.terminations]
  · rw [notices_settle, h.alarms]
  · have hquiet : ∀ earlier, ∀ event ∈ later, QuietAfter earlier event := fun _ event hmem _ =>
      ⟨Event.view?_of_isTimed (htimed event hmem), Event.shown?_of_isTimed (htimed event hmem)⟩
    rw [hlater]
    refine List.pairwise_append.mpr ⟨h.quiet, ?_, fun earlier _ => hquiet earlier⟩
    exact List.pairwise_of_forall_mem_list fun earlier _ => hquiet earlier
  · rw [hnow]
    rcases h.redirect with ⟨hnews, hdue⟩ | ⟨hnews, hdue, hle⟩
    · -- the redirect waits: it is announced now if it is due
      by_cases hle : due ≤ page.timers.now
      · obtain ⟨hredirects, hdeadlines⟩ := redirects_settle_of_due h.orderly hdue hle
        refine .inr ⟨?_, hdeadlines, hle⟩
        rw [hredirects, hnews, h.setup_eq, List.nil_append]
      · obtain ⟨hredirects, hdeadlines⟩ :=
          redirects_settle_of_early h.orderly hdue (Nat.lt_of_not_le hle)
        exact .inl ⟨hredirects.trans hnews, hdeadlines⟩
    · -- it was announced before, and no other waits
      obtain ⟨hredirects, hdeadlines⟩ := redirects_settle_of_none h.orderly hdue
      exact .inr ⟨hredirects.trans hnews, hdeadlines, hle⟩

/-- It is so while time passes, until the redirect is due. -/
theorem Leaving.wait (h : page.Leaving setup due) (hrecent : page.timers.recent = [])
    (milliseconds : Nat) : (page.wait milliseconds).Leaving setup due := by
  refine ⟨h.setup_eq, h.orderly.wait milliseconds, h.terminations, h.alarms, h.quiet, ?_⟩
  rw [deadlines_wait hrecent]
  rcases h.redirect with hwaiting | ⟨hnews, hdue, hle⟩
  · exact .inl hwaiting
  · exact .inr ⟨hnews, hdue, Nat.le_trans hle (Nat.le_add_right _ _)⟩

/-- Before the redirect is due, none has been announced. -/
theorem Leaving.redirects_eq_nil (h : page.Leaving setup due) (hnow : page.timers.now < due) :
    page.news Event.redirectLocation? = [] := by
  rcases h.redirect with ⟨hnews, _⟩ | ⟨_, _, hle⟩
  · exact hnews
  · omega

/-- Once the redirect is due, `settle` has it announced. -/
theorem Leaving.redirects_settle (h : page.Leaving setup due) (hnow : due ≤ page.timers.now) :
    page.settle.news Event.redirectLocation? = [setup.createPage] := by
  rcases h.settle.redirect with ⟨_, hdue⟩ | ⟨hnews, _⟩
  · have := h.orderly.lt_of_mem_settle (hdue ▸ List.mem_singleton_self due)
    omega
  · exact hnews

end Page

namespace Room.Visit

variable {setup : Page.Setup} {delay : UInt64} {due : Nat} {v : Visit}

/-- The room is open: nothing has been announced of its end. -/
structure Open (setup : Page.Setup) (delay : UInt64) (v : Visit) : Prop where
  terminated : v.feed.terminated = false
  redirectDelay : v.redirectDelay = delay
  page : v.page.Staying setup

/-- The room is over, and the redirect is due at a time. -/
structure Over (setup : Page.Setup) (due : Nat) (v : Visit) : Prop where
  terminated : v.feed.terminated = true
  page : v.page.Leaving setup due

/-- A visit begins in an open room. -/
theorem initial_open (setup : Page.Setup) (url : Url) (username : Option String)
    (delay actionDelay : UInt64) :
    (initial setup url username delay actionDelay).Open setup delay :=
  ⟨rfl, rfl, Page.initial_staying setup⟩

/-! ### News -/

/-- The end of the room. -/
theorem Open.terminate (h : v.Open setup delay) (message reason : String) :
    (v.terminate message reason).Over setup (v.page.timers.now + delay.toNat) := by
  rw [Visit.terminate, if_neg (Bool.eq_false_iff.mp h.terminated)]
  refine ⟨rfl, ?_⟩
  rw [← h.redirectDelay]
  exact h.page.leave message reason _

/-- A snapshot that is shown leaves the room open. -/
theorem Open.showSnapshot (h : v.Open setup delay) (s : Snapshot) :
    (v.showSnapshot s).Open setup delay :=
  ⟨h.terminated, h.redirectDelay, h.page.publish _⟩

/-- The last news of a room are its end. -/
theorem Open.hear_last (h : v.Open setup delay) {news : RoomNews} (hlast : news.isLast) :
    (v.hear news).Over setup (v.page.timers.now + delay.toNat) := by
  cases news with
  | snapshot s =>
    have hexpired : s.isExpired = true := hlast
    rw [hear, takeSnapshot, if_pos hexpired]
    exact (h.showSnapshot s).terminate _ _
  | closed reason => exact h.terminate _ _

/-- After other news the room is still open. -/
theorem Open.hear (h : v.Open setup delay) {news : RoomNews} (hlast : news.isLast = false) :
    (v.hear news).Open setup delay := by
  cases news with
  | snapshot s =>
    have hlive : s.isExpired = false := hlast
    have hshow := h.showSnapshot s
    rw [Visit.hear, takeSnapshot, if_neg (Bool.eq_false_iff.mp hlive)]
    cases s.notification with
    | none => exact hshow
    | some message => exact ⟨hshow.terminated, hshow.redirectDelay, hshow.page.notify _ (by decide)⟩
  | closed reason => cases hlast

/-! ### Steps and runs -/

/-- A page that stays does so after a step of the page. -/
theorem PageStep.staying {page page' : Page} (step : PageStep page page')
    (h : page.Staying setup) : page'.Staying setup :=
  step.induction (fun h => h.settle) (fun h hrecent => h.wait hrecent) h

/-- So does one that is to be left. -/
theorem PageStep.leaving {page page' : Page} (step : PageStep page page')
    (h : page.Leaving setup due) : page'.Leaving setup due :=
  step.induction (fun h => h.settle) (fun h hrecent => h.wait hrecent) h

/-- A step leaves the room open, or ends it: then the redirect is due after its delay. -/
theorem Open.step (h : v.Open setup delay) (step : Step) :
    (v.step step).Open setup delay ∨
      (v.step step).Over setup (v.page.timers.now + delay.toNat) := by
  cases hnews : step.news? with
  | none =>
    obtain ⟨hroom, hpage⟩ := unheard_step (v := v) hnews
    exact .inl ⟨hroom.terminated.trans h.terminated,
      hroom.redirectDelay.trans h.redirectDelay, hpage.staying h.page⟩
  | some news =>
    rw [step_of_news hnews, if_neg (Bool.eq_false_iff.mp h.terminated)]
    cases hlast : news.isLast with
    | false => exact .inl (h.hear hlast)
    | true => exact .inr (h.hear_last hlast)

/-- When the room is over, it stays so, and the redirect stays due at its time. -/
theorem Over.step (h : v.Over setup due) (step : Step) : (v.step step).Over setup due := by
  cases hnews : step.news? with
  | none =>
    obtain ⟨hroom, hpage⟩ := unheard_step (v := v) hnews
    exact ⟨hroom.terminated.trans h.terminated, hpage.leaving h.page⟩
  | some news =>
    rw [step_of_news hnews, if_pos h.terminated]
    exact h

/-- A room that is over stays over. -/
theorem Over.run (h : v.Over setup due) (steps : List Step) : (v.run steps).Over setup due :=
  run_induction (motive := Over setup due) (fun _ step h => h.step step) steps h

/-- A run in an open room leaves it open, or ends it. -/
theorem Open.run (h : v.Open setup delay) (steps : List Step) :
    (v.run steps).Open setup delay ∨ ∃ due, (v.run steps).Over setup due := by
  refine run_induction (motive := fun w => w.Open setup delay ∨ ∃ due, w.Over setup due)
    ?_ steps (.inl h)
  rintro w step (hopen | ⟨due, hover⟩)
  · exact (hopen.step step).imp_right fun hover => ⟨_, hover⟩
  · exact .inr ⟨due, hover.step step⟩

/-- In a run from an open room, the step that ends the room decides when the redirect is due. -/
theorem Open.over_of_step (h : v.Open setup delay) {before : List Step} {last : Step}
    (hopen : (v.run before).feed.terminated = false)
    (hover : ((v.run before).step last).feed.terminated) (after : List Step) :
    (v.run (before ++ last :: after)).Over setup
      ((v.run before).page.timers.now + delay.toNat) := by
  have hbefore : (v.run before).Open setup delay := by
    rcases h.run before with h | ⟨_, h⟩
    · exact h
    · rw [h.terminated] at hopen
      cases hopen
  have hlast : ((v.run before).step last).Over setup
      ((v.run before).page.timers.now + delay.toNat) := by
    rcases hbefore.step last with h | h
    · rw [h.terminated] at hover
      cases hover
    · exact h
  rw [run_append, run_cons]
  exact hlast.run after

/-! ### Once and for all -/

/-- **The end of a room is told once, and the page is left once.** In every run of a visit at most
one end of the room, one toast of an error and one redirect are announced, the first two exactly if
the room is over.  After the end no view is announced, no toast is shown, and what is known of the
room stays as it is.  The redirect leads to the page where rooms are made, and is announced when its
delay has passed since the step that ended the room, and not before. -/
theorem leaves_once (setup : Page.Setup) (url : Url) (username : Option String)
    (delay actionDelay : UInt64) (steps : List Step) :
    let start := initial setup url username delay actionDelay
    let v := start.run steps
    ((v.page.news Event.termination?).length = if v.feed.terminated then 1 else 0) ∧
    ((v.page.notices .error).length = if v.feed.terminated then 1 else 0) ∧
    (v.page.news Event.redirectLocation?).length ≤ 1 ∧
    v.page.published.Pairwise Page.QuietAfter ∧
    (∀ before after, steps = before ++ after → (start.run before).feed.terminated →
      v.feed.snapshot = (start.run before).feed.snapshot ∧
      v.feed.view = (start.run before).feed.view) ∧
    (∀ before last after, steps = before ++ last :: after →
      (start.run before).feed.terminated = false →
      ((start.run before).step last).feed.terminated →
      let due := (start.run before).page.timers.now + delay.toNat
      (v.page.timers.now < due → v.page.news Event.redirectLocation? = []) ∧
      (due ≤ v.page.timers.now →
        v.settle.page.news Event.redirectLocation? = [setup.createPage])) := by
  intro start v
  have hstart : start.Open setup delay := initial_open setup url username delay actionDelay
  have hknown : ∀ before after, steps = before ++ after → (start.run before).feed.terminated →
      v.feed.snapshot = (start.run before).feed.snapshot ∧
      v.feed.view = (start.run before).feed.view := by
    rintro before after rfl hover
    have hroom := sameRoom_run_of_terminated hover after
    rw [← run_append] at hroom
    exact ⟨hroom.snapshot, hroom.view⟩
  rcases hstart.run steps with h | ⟨due, h⟩
  · -- the room is still open, so there was no step that ended it
    refine ⟨?_, ?_, ?_, ?_, hknown, ?_⟩
    · rw [h.terminated, h.page.terminations]
      rfl
    · rw [h.terminated, h.page.alarms]
      rfl
    · rw [h.page.redirects]
      exact Nat.zero_le 1
    · have hnone := List.filterMap_eq_nil_iff.mp h.page.terminations
      refine List.pairwise_of_forall_mem_list fun earlier hmem later _ hend => ?_
      rw [hnone earlier hmem] at hend
      cases hend
    · rintro before last after rfl hopen hover
      have hend := (hstart.over_of_step hopen hover after).terminated
      rw [h.terminated] at hend
      cases hend
  · refine ⟨?_, ?_, ?_, h.page.quiet, hknown, ?_⟩
    · rw [h.terminated, h.page.terminations]
      rfl
    · rw [h.terminated, h.page.alarms]
      rfl
    · rcases h.page.redirect with ⟨hnews, _⟩ | ⟨hnews, _⟩
      · rw [hnews]
        exact Nat.zero_le 1
      · rw [hnews]
        exact Nat.le_refl 1
    · -- the step that ended the room fixes when the redirect is due
      rintro before last after rfl hopen hover
      have hend := (hstart.over_of_step hopen hover after).page
      exact ⟨hend.redirects_eq_nil, hend.redirects_settle⟩

/-- A stream that is closed a second time, after a wait of 999 milliseconds, does not put off the
redirect: it is announced one millisecond later. -/
theorem leaves_once_of_closed_twice :
    let start := initial ⟨"/create.html", 4000, 8000, 16⟩
      ⟨"http", "", "", none, none, .segments ["rooms"], none, none⟩ none 1000 500
    let before := [Step.connect, .handle .opened]
    let last := Step.signal (.closed "gone")
    let after := [Step.advance 999, .handle (.ended (.closed "late")), .advance 1]
    let v := start.run (before ++ last :: after)
    (start.run before).feed.terminated = false ∧
    ((start.run before).step last).feed.terminated = true ∧
    (start.run before).page.timers.now + (1000 : UInt64).toNat ≤ v.page.timers.now ∧
    v.settle.page.news Event.redirectLocation? = ["/create.html"] := by
  intro start before last after v
  have hopen : (start.run before).feed.terminated = false := by decide
  have hover : ((start.run before).step last).feed.terminated = true := by decide
  have hdue : (start.run before).page.timers.now + (1000 : UInt64).toNat ≤
      v.page.timers.now := by decide +kernel
  obtain ⟨_, _, _, _, _, hredirect⟩ := leaves_once ⟨"/create.html", 4000, 8000, 16⟩
    ⟨"http", "", "", none, none, .segments ["rooms"], none, none⟩ none 1000 500
    (before ++ last :: after)
  exact ⟨hopen, hover, hdue, (hredirect before last after rfl hopen hover).2 (by decide +kernel)⟩

end Room.Visit

end DropRoom
