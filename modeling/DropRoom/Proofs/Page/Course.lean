import DropRoom.Proofs.Page.Announcements

namespace DropRoom.Page

/-!
# The course of a page

A page shares its timers between toasts and the redirect.  What can happen to it is one of a few
moves, down to the single steps of the timers.

* `Move`, `move`, `play` — one thing that can happen to a page, and many in order;
* `issued?`, `issued` — the identifiers that are given to toasts;
* `settle_induction` — what each step of the timers keeps, all of them keep;
* `move_induction` — what the few kinds of changes keep, each move keeps;
* `play_induction` — what each move keeps, many of them keep.
-/

/-! ### Moves -/

/-- One thing that can happen to a page. -/
inductive Move where
  | push (message : String) (severity : Toast.Severity)
  | pushPrompt (message : String) (severity : Toast.Severity)
  | pushPersistent (message : String) (severity : Toast.Severity)
  | remove (id : Uuid)
  | clear
  | redirect (delay : Nat)
  | cancelRedirect
  | openDownload (url : String)
  /-- The timers take one step, if there is one. -/
  | tick
  /-- Time passes, once the timers have done what was due before, and they do nothing yet. -/
  | wait (milliseconds : Nat)
  /-- Time passes, once the timers have done what was due before, and they do what is due then. -/
  | advance (milliseconds : Nat)

/-- What a page is after the timers have taken one step, if there is one. -/
def tick (page : Page) : Page :=
  match page.timers.step? with
  | none => page
  | some outcome => page.applyAll outcome

/-- What a page is after a move. -/
def move (page : Page) : Move → Page
  | .push message severity => (page.push message severity).2
  | .pushPrompt message severity => (page.pushPrompt message severity).2
  | .pushPersistent message severity => (page.pushPersistent message severity).2
  | .remove id => (page.remove id).2
  | .clear => page.clear
  | .redirect delay => (page.redirect delay).2
  | .cancelRedirect => page.cancelRedirect.2
  | .openDownload url => page.openDownload url
  | .tick => page.tick
  | .wait milliseconds => page.settle.wait milliseconds
  | .advance milliseconds => page.settle.advance milliseconds

/-- What a page is after moves in order. -/
def play (page : Page) (moves : List Move) : Page :=
  moves.foldl move page

/-- The identifier that a move gives to a toast, if it shows one. -/
def issued? (page : Page) : Move → Option Uuid
  | .push message severity => some (page.push message severity).1
  | .pushPrompt message severity => some (page.pushPrompt message severity).1
  | .pushPersistent message severity => some (page.pushPersistent message severity).1
  | _ => none

/-- The identifiers that moves give to toasts, in order. -/
def issued (page : Page) : List Move → List Uuid
  | [] => []
  | move :: moves => (page.issued? move).toList ++ (page.move move).issued moves

/-- How long the toast of a move is shown, if it shows one. -/
def Move.lifetime? (setup : Setup) : Move → Option Toast.Lifetime
  | .push _ _ => some (.timed setup.toastLifetime)
  | .pushPrompt _ _ => some (.timed setup.promptLifetime)
  | .pushPersistent _ _ => some .untilRemoved
  | _ => none

/-- Whether a move takes a toast off the page, if it is there. -/
def Move.takesOff (id : Uuid) : Move → Bool
  | .remove other => other = id
  | .clear => true
  | _ => false

/-- Moves are made one after another. -/
theorem play_append (page : Page) (moves more : List Move) :
    page.play (moves ++ more) = (page.play moves).play more :=
  List.foldl_append

/-! ### Steps of the timers -/

/-- What timers make happen does not depend on the timers. -/
theorem foldl_apply_withTimers (effects : List Effect) (page : Page)
    (timers : Scheduler TimerKey Effect) :
    effects.foldl apply { page with timers := timers } =
      { effects.foldl apply page with timers := timers } := by
  induction effects generalizing page with
  | nil => rfl
  | cons effect effects ih =>
    have happly : ({ page with timers := timers } : Page).apply effect =
        { page.apply effect with timers := timers } := by
      cases effect with
      | dismiss id =>
        simp only [apply, dismiss]
        split <;> rfl
      | redirect => rfl
    rw [List.foldl_cons, List.foldl_cons, happly, ih]

/-- What happens in two turns happens in one. -/
theorem applyAll_applyAll (page : Page) (effects more : List Effect)
    (timers later : Scheduler TimerKey Effect) :
    (page.applyAll (effects, timers)).applyAll (more, later) =
      page.applyAll (effects ++ more, later) := by
  simp only [applyAll, List.foldl_append, foldl_apply_withTimers]

/-- Effects leave the timers as the scheduler did. -/
theorem timers_applyAll (page : Page) (outcome : List Effect × Scheduler TimerKey Effect) :
    (page.applyAll outcome).timers = outcome.2 :=
  (published_foldl_apply outcome.1 { page with timers := outcome.2 }).1

/-- What each step of the timers keeps, all steps keep. -/
theorem settle_induction {P : Page → Prop} {page : Page} (h : P page)
    (tick : ∀ page outcome, P page → page.timers.step? = some outcome → P (page.applyAll outcome)) :
    P page.settle := by
  -- all that happens is applied at the end, which is the same as to apply it step by step
  refine Scheduler.steps_induction (motive := fun past t => P (page.applyAll (past, t))) ?_
    page.timers.weight [] page.timers h
  intro past t events t' hpast hstep
  rw [← applyAll_applyAll page past events t]
  exact tick _ _ hpast (by rwa [timers_applyAll])

/-- After `settle` there is no step left. -/
theorem step?_settle (page : Page) : page.settle.timers.step? = none := by
  rw [timers_settle]
  exact Scheduler.step?_settle page.timers

/-! ### Inductions -/

/-- What toasts, redirects, downloads, steps of the timers and the clock keep, each move keeps.  The
clock moves only where no step is left. -/
theorem move_induction {P : Page → Prop} {page : Page} (move : Move) (h : P page)
    (display : ∀ page message severity lifetime, move.lifetime? page.setup = some lifetime → P page →
      P (page.display message severity lifetime).2)
    (remove : ∀ page id, move.takesOff id → P page → P (page.remove id).2)
    (redirect : ∀ page delay, P page → P (page.redirect delay).2)
    (cancelRedirect : ∀ page, P page → P page.cancelRedirect.2)
    (openDownload : ∀ page url, P page → P (page.openDownload url))
    (tick : ∀ page outcome, P page → page.timers.step? = some outcome → P (page.applyAll outcome))
    (wait : ∀ page milliseconds, P page → page.timers.step? = none → P (page.wait milliseconds)) :
    P (page.move move) := by
  have hsettle {page : Page} (h : P page) : P page.settle := settle_induction h tick
  have hwait {page : Page} (h : P page) (milliseconds : Nat) : P (page.settle.wait milliseconds) :=
    wait _ _ (hsettle h) (step?_settle page)
  cases move with
  | push message severity => exact display page message severity _ rfl h
  | pushPrompt message severity => exact display page message severity _ rfl h
  | pushPersistent message severity => exact display page message severity _ rfl h
  | remove id => exact remove page id (decide_eq_true rfl) h
  | clear =>
    show P ((page.toasts.map (·.id)).foldl (fun page id => (page.remove id).2) page)
    -- to clear a page is to remove one toast after the other
    generalize page.toasts.map (·.id) = ids
    induction ids generalizing page with
    | nil => exact h
    | cons id ids ih => exact ih (remove page id rfl h)
  | redirect delay => exact redirect page delay h
  | cancelRedirect => exact cancelRedirect page h
  | openDownload url => exact openDownload page url h
  | tick =>
    show P page.tick
    rw [Page.tick]
    cases hstep : page.timers.step? with
    | none => exact h
    | some outcome => exact tick page outcome h hstep
  | wait milliseconds => exact hwait h milliseconds
  | advance milliseconds => exact hsettle (hwait h milliseconds)

/-- What each of some moves keeps, all of them keep. -/
theorem play_induction {P : Page → Prop} {page : Page} (moves : List Move) (h : P page)
    (move : ∀ page, ∀ move ∈ moves, P page → P (page.move move)) : P (page.play moves) := by
  induction moves generalizing page with
  | nil => exact h
  | cons first moves ih =>
    exact ih (move page first List.mem_cons_self h) fun page other hother =>
      move page other (List.mem_cons_of_mem _ hother)

end DropRoom.Page
