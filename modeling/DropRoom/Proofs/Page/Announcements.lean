import DropRoom.Page.Navigation
import DropRoom.Page.Toasts
import DropRoom.Proofs.Scheduler.Deadlines

namespace DropRoom

/-!
# What a page announces

Each operation of a page adds to the events that were published.  What it adds is said once here,
together with what becomes of the timer of the redirect.

* `Event.view?`, `Event.termination?`, `Event.shown?` — what an event brings;
* `Page.news`, `Page.notices` — what the events of a page bring, in order, and the toasts of a
  severity among it;
* `Page.Orderly` — the timers of a page do what their keys say;
* `Page.news_notify`, `Page.published_settle` — what a toast adds, and what the timers may add;
* `Page.redirects_settle` — redirects are announced as their deadlines come.
-/

/-! ### What an event brings -/

namespace Event

/-- The view that an event brings. -/
def view? : Event → Option Room.View
  | .room (.viewUpdated view) => some view
  | _ => none

/-- The reason why the room is over, if an event says that it is. -/
def termination? : Event → Option String
  | .room (.terminated reason) => some reason
  | _ => none

/-- The toast that an event shows. -/
def shown? : Event → Option Toast
  | .toast (.shown appeared) => some appeared
  | _ => none

/-- Whether an event is one that timers announce. -/
def isTimed : Event → Bool
  | .toast (.dismissed _) => true
  | .navigation (.redirect _) => true
  | _ => false

/-- What timers announce is no view. -/
theorem view?_of_isTimed {event : Event} (h : event.isTimed) : event.view? = none := by
  cases event with
  | room event => cases h
  | toast event => rfl
  | navigation event => rfl

/-- Nor is it the end of the room. -/
theorem termination?_of_isTimed {event : Event} (h : event.isTimed) :
    event.termination? = none := by
  cases event with
  | room event => cases h
  | toast event => rfl
  | navigation event => rfl

/-- Nor does it show a toast. -/
theorem shown?_of_isTimed {event : Event} (h : event.isTimed) : event.shown? = none := by
  cases event with
  | room event => rfl
  | toast event =>
    cases event with
    | shown _ => cases h
    | dismissed _ => rfl
  | navigation event => rfl

end Event

namespace Page

variable {α : Type}

/-- What the events of a page bring, in order. -/
def news (page : Page) (select : Event → Option α) : List α :=
  page.published.filterMap select

/-- What is published later is news after the rest. -/
theorem news_eq_of_published_append {page page' : Page} {events : List Event}
    (h : page'.published = page.published ++ events) (select : Event → Option α) :
    page'.news select = page.news select ++ events.filterMap select := by
  rw [news, h, List.filterMap_append, news]

/-- The toasts of a severity that were shown, in order. -/
def notices (page : Page) (severity : Toast.Severity) : List Toast :=
  (page.news Event.shown?).filter fun toast => toast.severity = severity

/-! ### Publishing -/

/-- An event is published after the others, and the rest of the page stays. -/
@[simp] theorem published_publish (page : Page) (event : Event) :
    (page.publish event).published = page.published ++ [event] := by
  simp [publish, published, Bus.publish, Bus.published]

@[simp] theorem timers_publish (page : Page) (event : Event) :
    (page.publish event).timers = page.timers := rfl

@[simp] theorem setup_publish (page : Page) (event : Event) :
    (page.publish event).setup = page.setup := rfl

/-- It is news if it is selected. -/
@[simp] theorem news_publish (page : Page) (event : Event) (select : Event → Option α) :
    (page.publish event).news select = page.news select ++ (select event).toList := by
  rw [news_eq_of_published_append (published_publish page event)]
  cases h : select event <;> simp [h]

/-- It is a notice if it shows a toast of the severity. -/
theorem notices_publish (page : Page) (event : Event) (severity : Toast.Severity) :
    (page.publish event).notices severity = page.notices severity ++
      event.shown?.toList.filter fun toast => toast.severity = severity := by
  rw [notices, news_publish, List.filter_append, notices]

/-! ### Timers that do what their keys say -/

/-- What happens when the timer of a key ends. -/
def TimerKey.effect : TimerKey → Effect
  | .toast id => .dismiss id
  | .redirect => .redirect

/-- Timers of different keys have different effects. -/
theorem TimerKey.effect_injective : Function.Injective TimerKey.effect := by
  intro a b h
  cases a <;> cases b <;> simp_all [effect]

/-- The timers of a page do what their keys say, and stand in the order of their deadlines. -/
structure Orderly (page : Page) : Prop where
  plain : page.timers.Plain TimerKey.effect
  sorted : page.timers.Sorted

/-- A new page is orderly. -/
theorem initial_orderly (setup : Setup) : (initial setup).Orderly :=
  ⟨Scheduler.initial_plain _, List.Pairwise.nil⟩

/-- It stays so whatever is published. -/
theorem Orderly.publish {page : Page} (h : page.Orderly) (event : Event) :
    (page.publish event).Orderly :=
  ⟨h.plain, h.sorted⟩

/-! ### Toasts -/

/-- The toast that appears next. -/
def nextToast (page : Page) (message : String) (severity : Toast.Severity) : Toast :=
  ⟨Uuid.ofNat page.toastCount, message, severity, .sinceEpoch page.timers.now,
    .timed page.setup.toastLifetime⟩

/-- A notice is a toast that is shown. -/
theorem published_notify (page : Page) (message : String) (severity : Toast.Severity) :
    (page.notify message severity).published =
      page.published ++ [.toast (.shown (page.nextToast message severity))] :=
  published_publish _ _

@[simp] theorem setup_notify (page : Page) (message : String) (severity : Toast.Severity) :
    (page.notify message severity).setup = page.setup := rfl

/-- Its toast has a timer, which takes it away after the lifetime. -/
theorem timers_notify (page : Page) (message : String) (severity : Toast.Severity) :
    (page.notify message severity).timers =
      (page.timers.schedule (.toast (Uuid.ofNat page.toastCount))
        page.setup.toastLifetime.toNat (.emit (.dismiss (Uuid.ofNat page.toastCount)) .finish)).2 :=
  rfl

@[simp] theorem now_notify (page : Page) (message : String) (severity : Toast.Severity) :
    (page.notify message severity).timers.now = page.timers.now := by
  rw [timers_notify, Scheduler.schedule_now]

/-- It is news where toasts that are shown are. -/
@[simp] theorem news_notify (page : Page) (message : String) (severity : Toast.Severity)
    (select : Event → Option α) :
    (page.notify message severity).news select = page.news select ++
      (select (.toast (.shown (page.nextToast message severity)))).toList := by
  rw [news_eq_of_published_append (published_notify page message severity)]
  cases h : select (.toast (.shown (page.nextToast message severity))) <;> simp [h]

/-- It is a notice of its severity alone. -/
theorem notices_notify (page : Page) (message : String) (severity other : Toast.Severity) :
    (page.notify message severity).notices other = page.notices other ++
      if severity = other then [page.nextToast message severity] else [] := by
  rw [notices, news_notify, List.filter_append, ← notices]
  simp [Event.shown?, nextToast, List.filter_cons]

/-- A notice leaves the page orderly. -/
theorem Orderly.notify {page : Page} (h : page.Orderly) (message : String)
    (severity : Toast.Severity) : (page.notify message severity).Orderly := by
  constructor
  · rw [timers_notify]
    exact h.plain.schedule (.toast _) _
  · rw [timers_notify]
    exact h.sorted.schedule _ _ _

/-- A toast has nothing to do with the redirect. -/
@[simp] theorem deadlines_notify (page : Page) (message : String) (severity : Toast.Severity) :
    (page.notify message severity).timers.deadlines .redirect =
      page.timers.deadlines .redirect := by
  rw [timers_notify]
  exact Scheduler.deadlines_schedule_of_ne _ (by simp) _ _

/-! ### The redirect -/

@[simp] theorem news_redirect (page : Page) (delay : Nat) (select : Event → Option α) :
    (page.redirect delay).2.news select = page.news select := rfl

/-- A redirect that is asked for is not announced yet. -/
@[simp] theorem published_redirect (page : Page) (delay : Nat) :
    (page.redirect delay).2.published = page.published := rfl

@[simp] theorem setup_redirect (page : Page) (delay : Nat) :
    (page.redirect delay).2.setup = page.setup := rfl

/-- It leaves the page orderly. -/
theorem Orderly.redirect {page : Page} (h : page.Orderly) (delay : Nat) :
    (page.redirect delay).2.Orderly :=
  ⟨h.plain.schedule .redirect delay, h.sorted.schedule _ _ _⟩

/-- Without a redirect that is pending, a new one is due after its delay. -/
theorem deadlines_redirect {page : Page} (h : page.timers.deadlines .redirect = [])
    (delay : Nat) :
    (page.redirect delay).2.timers.deadlines .redirect = [page.timers.now + delay] :=
  Scheduler.deadlines_schedule h delay _

/-- While a redirect is pending, another changes nothing. -/
theorem redirect_of_pending {page : Page} (h : page.timers.deadlines .redirect ≠ [])
    (delay : Nat) : (page.redirect delay).2 = page := by
  rw [redirect, Scheduler.schedule_of_deadlines_ne_nil h]

/-- No time passes when it is asked for. -/
@[simp] theorem now_redirect (page : Page) (delay : Nat) :
    (page.redirect delay).2.timers.now = page.timers.now :=
  Scheduler.schedule_now _ _ _ _

/-- A redirect is pending exactly if it has a deadline. -/
theorem redirectPending_iff {page : Page} :
    page.redirectPending = true ↔ page.timers.deadlines .redirect ≠ [] := by
  refine ⟨fun hpending hnone => ?_, Scheduler.isPending_of_deadlines_ne_nil⟩
  rw [redirectPending, Scheduler.isPending_of_deadlines_eq_nil hnone] at hpending
  cases hpending

/-- Without one it has no deadline. -/
theorem deadlines_eq_nil_of_not_pending {page : Page} (h : page.redirectPending = false) :
    page.timers.deadlines .redirect = [] :=
  Decidable.not_not.mp (mt redirectPending_iff.mpr (Bool.eq_false_iff.mp h))

/-! ### What timers announce -/

/-- The effect of a timer leaves the timers as they are. -/
@[simp] theorem timers_apply (page : Page) (effect : Effect) :
    (page.apply effect).timers = page.timers := by
  cases effect with
  | dismiss id =>
    simp only [apply, dismiss]
    split <;> rfl
  | redirect => rfl

@[simp] theorem setup_apply (page : Page) (effect : Effect) :
    (page.apply effect).setup = page.setup := by
  cases effect with
  | dismiss id =>
    simp only [apply, dismiss]
    split <;> rfl
  | redirect => rfl

/-- It announces only what timers do, and one redirect if that is what it is. -/
theorem published_apply (page : Page) (effect : Effect) :
    ∃ later, (page.apply effect).published = page.published ++ later ∧
      (∀ event ∈ later, event.isTimed) ∧
      later.filterMap Event.redirectLocation? =
        List.replicate ([effect].count .redirect) page.setup.createPage := by
  cases effect with
  | dismiss id =>
    simp only [apply, dismiss]
    split
    · refine ⟨[.toast (.dismissed id)], published_publish _ _, ?_, rfl⟩
      intro event hmem
      rw [List.mem_singleton.mp hmem]
      rfl
    · exact ⟨[], by simp, by simp, rfl⟩
  | redirect =>
    refine ⟨[.navigation (.redirect page.setup.createPage)], published_publish _ _, ?_, rfl⟩
    intro event hmem
    rw [List.mem_singleton.mp hmem]
    rfl

/-- What is announced when things happen are events of timers, among them as many redirects as
there were among the things. -/
theorem published_foldl_apply (effects : List Effect) (page : Page) :
    (effects.foldl apply page).timers = page.timers ∧
    (effects.foldl apply page).setup = page.setup ∧
    ∃ later, (effects.foldl apply page).published = page.published ++ later ∧
      (∀ event ∈ later, event.isTimed) ∧
      later.filterMap Event.redirectLocation? =
        List.replicate (effects.count .redirect) page.setup.createPage := by
  induction effects generalizing page with
  | nil => exact ⟨rfl, rfl, [], by simp, by simp, rfl⟩
  | cons effect effects ih =>
    obtain ⟨htimers, hsetup, rest, hrest, hrestTimed, hrestRedirects⟩ := ih (page.apply effect)
    -- what happens first is announced before the rest
    obtain ⟨first, hfirst, hfirstTimed, hfirstRedirects⟩ := published_apply page effect
    refine ⟨htimers.trans (timers_apply page effect), hsetup.trans (setup_apply page effect),
      first ++ rest, ?_, ?_, ?_⟩
    · rw [List.foldl_cons, hrest, hfirst, List.append_assoc]
    · intro event hmem
      exact (List.mem_append.mp hmem).elim (hfirstTimed event) (hrestTimed event)
    · rw [List.filterMap_append, hfirstRedirects, hrestRedirects, setup_apply,
        List.replicate_append_replicate, ← List.count_append, List.singleton_append]

/-- When a page settles, so do its timers. -/
theorem timers_settle (page : Page) : page.settle.timers = page.timers.settle.2 :=
  (published_foldl_apply _ _).1

@[simp] theorem setup_settle (page : Page) : page.settle.setup = page.setup :=
  (published_foldl_apply _ _).2.1

/-- `settle` adds events that timers announce, among them a redirect for each one that happens. -/
theorem published_settle (page : Page) :
    ∃ later, page.settle.published = page.published ++ later ∧ (∀ event ∈ later, event.isTimed) ∧
      later.filterMap Event.redirectLocation? =
        List.replicate (page.timers.settle.1.count .redirect) page.setup.createPage :=
  (published_foldl_apply page.timers.settle.1 { page with timers := page.timers.settle.2 }).2.2

/-- News that timers never bring stay the same. -/
theorem news_settle (page : Page) {select : Event → Option α}
    (h : ∀ event : Event, event.isTimed → select event = none) :
    page.settle.news select = page.news select := by
  obtain ⟨later, hlater, htimed, _⟩ := published_settle page
  have hnone : later.filterMap select = [] :=
    List.filterMap_eq_nil_iff.mpr fun event hmem => h event (htimed event hmem)
  rw [news_eq_of_published_append hlater, hnone, List.append_nil]

/-- No notice appears then. -/
theorem notices_settle (page : Page) (severity : Toast.Severity) :
    page.settle.notices severity = page.notices severity := by
  rw [notices, news_settle page fun _ => Event.shown?_of_isTimed, notices]

/-- An orderly page stays so when it settles, and no time passes. -/
theorem Orderly.settle {page : Page} (h : page.Orderly) :
    page.settle.Orderly ∧ page.settle.timers.now = page.timers.now := by
  obtain ⟨hnow, hplain, hsorted⟩ := h.plain.settle h.sorted
  exact ⟨⟨timers_settle page ▸ hplain, timers_settle page ▸ hsorted⟩, timers_settle page ▸ hnow⟩

/-- **Redirects by deadlines.** `settle` announces one redirect for each deadline of a redirect that
has come, and keeps the deadlines that are still to come. -/
theorem redirects_settle {page : Page} (h : page.Orderly) :
    page.settle.news Event.redirectLocation? = page.news Event.redirectLocation? ++
      List.replicate ((page.timers.deadlines .redirect).countP (· ≤ page.timers.now))
        page.setup.createPage ∧
    (page.settle.timers.deadlines .redirect).Perm
      ((page.timers.deadlines .redirect).filter (page.timers.now < ·)) := by
  obtain ⟨hcount, hperm⟩ :=
    h.plain.settle_deadlines TimerKey.effect_injective h.sorted .redirect
  obtain ⟨later, hlater, _, hredirects⟩ := published_settle page
  refine ⟨?_, timers_settle page ▸ hperm⟩
  rw [news_eq_of_published_append hlater, hredirects, ← hcount, TimerKey.effect]

/-- Without a redirect that waits, `settle` announces none. -/
theorem redirects_settle_of_none {page : Page} (h : page.Orderly)
    (hnone : page.timers.deadlines .redirect = []) :
    page.settle.news Event.redirectLocation? = page.news Event.redirectLocation? ∧
      page.settle.timers.deadlines .redirect = [] := by
  obtain ⟨hnews, hdeadlines⟩ := redirects_settle h
  rw [hnone] at hnews hdeadlines
  exact ⟨hnews.trans (List.append_nil _), hdeadlines.eq_nil⟩

/-- The only redirect that waits is announced if it is due. -/
theorem redirects_settle_of_due {page : Page} (h : page.Orderly) {due : Nat}
    (hsingle : page.timers.deadlines .redirect = [due]) (hdue : due ≤ page.timers.now) :
    page.settle.news Event.redirectLocation? =
        page.news Event.redirectLocation? ++ [page.setup.createPage] ∧
      page.settle.timers.deadlines .redirect = [] := by
  obtain ⟨hnews, hdeadlines⟩ := redirects_settle h
  rw [hsingle] at hnews hdeadlines
  rw [List.filter_cons_of_neg (by simpa using hdue)] at hdeadlines
  refine ⟨?_, hdeadlines.eq_nil⟩
  rw [hnews]
  simp [hdue]

/-- The only redirect that waits goes on waiting if it is not due. -/
theorem redirects_settle_of_early {page : Page} (h : page.Orderly) {due : Nat}
    (hsingle : page.timers.deadlines .redirect = [due]) (hdue : page.timers.now < due) :
    page.settle.news Event.redirectLocation? = page.news Event.redirectLocation? ∧
      page.settle.timers.deadlines .redirect = [due] := by
  obtain ⟨hnews, hdeadlines⟩ := redirects_settle h
  rw [hsingle] at hnews hdeadlines
  rw [List.filter_cons_of_pos (by simpa using hdue)] at hdeadlines
  refine ⟨?_, List.perm_singleton.mp hdeadlines⟩
  rw [hnews]
  simp [hdue]

/-- A redirect that waits after `settle` is not due. -/
theorem Orderly.lt_of_mem_settle {page : Page} (h : page.Orderly) {due : Nat}
    (hwaits : due ∈ page.settle.timers.deadlines .redirect) : page.timers.now < due := by
  obtain ⟨horderly, hnow⟩ := h.settle
  have hdone : page.settle.timers.step? = none := by
    rw [timers_settle]
    exact Scheduler.step?_settle page.timers
  exact hnow ▸ horderly.sorted.lt_of_mem_deadlines hdone _ due hwaits

/-! ### The clock -/

/-- Let time pass while nothing happens. -/
def wait (page : Page) (milliseconds : Nat) : Page :=
  { page with timers := { page.timers with now := page.timers.now + milliseconds } }

/-- It stays so while time passes. -/
theorem Orderly.wait {page : Page} (h : page.Orderly) (milliseconds : Nat) :
    (page.wait milliseconds).Orderly :=
  ⟨⟨h.plain.timers, h.plain.recent⟩, h.sorted⟩

/-- While nothing new is to be taken up, deadlines stay as they are when time passes. -/
theorem deadlines_wait {page : Page} (h : page.timers.recent = []) (milliseconds : Nat)
    (key : TimerKey) :
    (page.wait milliseconds).timers.deadlines key = page.timers.deadlines key := by
  simp [Page.wait, Scheduler.deadlines, h]

/-- A settled page has no timer that was just made. -/
theorem recent_settle (page : Page) : page.settle.timers.recent = [] := by
  rw [timers_settle]
  exact Scheduler.recent_eq_nil (Scheduler.step?_settle page.timers)

end Page

end DropRoom
