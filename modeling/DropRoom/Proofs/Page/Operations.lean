import DropRoom.Proofs.Page.Announcements

namespace DropRoom.Page

/-!
# What has nothing to do with redirects

Toasts come and go, and downloads are opened, without a change to the redirects that have been
announced or wait.

* `SameRedirects` — nothing that concerns redirects has changed;
* `Operation`, `operate` — what the actions of the user do to a page;
* `sameRedirects_operate` — none of it concerns redirects;
* `Operated` — what many operations make of a page.
-/

/-- Nothing that concerns redirects has changed. -/
structure SameRedirects (page page' : Page) : Prop where
  setup_eq : page'.setup = page.setup
  orderly : page.Orderly → page'.Orderly
  now_eq : page'.timers.now = page.timers.now
  news_eq : page'.news Event.redirectLocation? = page.news Event.redirectLocation?
  under_eq : page'.timers.under .redirect = page.timers.under .redirect

variable {page page' page'' : Page}

/-- Where redirects are the same, so are their deadlines. -/
theorem SameRedirects.deadlines_eq (h : SameRedirects page page') :
    page'.timers.deadlines .redirect = page.timers.deadlines .redirect :=
  Scheduler.deadlines_of_under_eq h.now_eq h.under_eq

theorem SameRedirects.refl (page : Page) : SameRedirects page page :=
  ⟨rfl, id, rfl, rfl, rfl⟩

/-- What leaves redirects alone twice leaves them alone. -/
theorem SameRedirects.trans (h : SameRedirects page page') (h' : SameRedirects page' page'') :
    SameRedirects page page'' :=
  ⟨h'.setup_eq.trans h.setup_eq, fun horderly => h'.orderly (h.orderly horderly),
    h'.now_eq.trans h.now_eq, h'.news_eq.trans h.news_eq, h'.under_eq.trans h.under_eq⟩

/-- To publish anything but a redirect leaves them alone. -/
theorem sameRedirects_publish (page : Page) {event : Event}
    (h : event.redirectLocation? = none) : SameRedirects page (page.publish event) := by
  refine ⟨rfl, fun horderly => horderly.publish event, rfl, ?_, rfl⟩
  rw [news_publish, h]
  exact List.append_nil _

/-! ### Toasts -/

/-- So does any change to the toasts. -/
theorem sameRedirects_setToasts (page : Page) (toasts : List Toast) (count : Nat) :
    SameRedirects page { page with toasts := toasts, toastCount := count } :=
  ⟨rfl, fun h => ⟨h.plain, h.sorted⟩, rfl, rfl, rfl⟩

/-- The timer of a toast is none of a redirect. -/
theorem sameRedirects_timeToast (page : Page) (id : Uuid) (delay : Nat) :
    SameRedirects page { page with
      timers := (page.timers.schedule (.toast id) delay (.emit (.dismiss id) .finish)).2 } :=
  ⟨rfl, fun h => ⟨h.plain.schedule (.toast id) delay, h.sorted.schedule _ _ _⟩,
    Scheduler.schedule_now _ _ _ _, rfl, Scheduler.under_schedule_of_ne _ (by simp) _ _⟩

/-- So does taking the timer of a toast away. -/
theorem sameRedirects_cancelToast (page : Page) (id : Uuid) :
    SameRedirects page { page with timers := (page.timers.cancel (.toast id)).2 } :=
  ⟨rfl, fun h => ⟨h.plain.cancel _, h.sorted.cancel _⟩, rfl, rfl,
    Scheduler.under_cancel_of_ne _ (by simp)⟩

/-- So does displaying a toast. -/
theorem sameRedirects_display (page : Page) (message : String) (severity : Toast.Severity)
    (lifetime : Toast.Lifetime) :
    SameRedirects page (page.display message severity lifetime).2 := by
  let toast : Toast :=
    ⟨Uuid.ofNat page.toastCount, message, severity, .sinceEpoch page.timers.now, lifetime⟩
  have hshown : SameRedirects page
      ({ page with toasts := page.toasts ++ [toast], toastCount := page.toastCount + 1 }.publish
        (.toast (.shown toast))) :=
    (sameRedirects_setToasts page _ _).trans (sameRedirects_publish _ rfl)
  cases lifetime with
  | untilRemoved => exact hshown
  | timed milliseconds => exact hshown.trans (sameRedirects_timeToast _ _ _)

/-- So does a notice. -/
theorem sameRedirects_notify (page : Page) (message : String) (severity : Toast.Severity) :
    SameRedirects page (page.notify message severity) :=
  sameRedirects_display page message severity _

/-- So does dismissing a toast. -/
theorem sameRedirects_dismiss (page : Page) (id : Uuid) :
    SameRedirects page (page.dismiss id).2 := by
  rw [dismiss]
  split
  · exact (sameRedirects_setToasts page _ _).trans (sameRedirects_publish _ rfl)
  · exact .refl page

/-- So does removing one. -/
theorem sameRedirects_remove (page : Page) (id : Uuid) :
    SameRedirects page (page.remove id).2 :=
  (sameRedirects_cancelToast page id).trans (sameRedirects_dismiss _ id)

/-! ### Operations -/

/-- What the actions of the user do to a page. -/
inductive Operation where
  | display (message : String) (severity : Toast.Severity) (lifetime : Toast.Lifetime)
  | remove (id : Uuid)
  | openDownload (url : String)

/-- What a page is after an operation. -/
def operate (page : Page) : Operation → Page
  | .display message severity lifetime => (page.display message severity lifetime).2
  | .remove id => (page.remove id).2
  | .openDownload url => page.openDownload url

/-- **Other operations.** Nothing that the actions of the user do to a page concerns redirects. -/
theorem sameRedirects_operate (page : Page) (operation : Operation) :
    SameRedirects page (page.operate operation) := by
  cases operation with
  | display message severity lifetime => exact sameRedirects_display page message severity lifetime
  | remove id => exact sameRedirects_remove page id
  | openDownload url => exact sameRedirects_publish page rfl

/-- One page becomes another by operations in order. -/
def Operated (page page' : Page) : Prop :=
  ∃ operations : List Operation, page' = operations.foldl operate page

theorem Operated.refl (page : Page) : Operated page page :=
  ⟨[], rfl⟩

/-- One operation more is still a matter of operations. -/
theorem Operated.operate (h : Operated page page') (operation : Operation) :
    Operated page (page'.operate operation) := by
  obtain ⟨operations, rfl⟩ := h
  exact ⟨operations ++ [operation], by rw [List.foldl_append]; rfl⟩

/-- A notice is an operation. -/
theorem Operated.notify (h : Operated page page') (message : String) (severity : Toast.Severity) :
    Operated page (page'.notify message severity) :=
  h.operate (.display message severity (.timed page'.setup.toastLifetime))

/-- Many operations do not concern redirects either. -/
theorem Operated.sameRedirects (h : Operated page page') : SameRedirects page page' := by
  obtain ⟨operations, rfl⟩ := h
  induction operations generalizing page with
  | nil => exact .refl page
  | cons operation operations ih => exact (sameRedirects_operate page operation).trans ih

end DropRoom.Page
