import DropRoom.Proofs.Page.Mirror
import DropRoom.Proofs.Page.Operations
import DropRoom.Proofs.Scheduler.Firing

namespace DropRoom

/-!
# Toasts and their timers

Each toast that is shown for a time has one timer, and no other timer is one of a toast.

* `Page.timedIds` — the identifiers of the toasts that are shown for a time;
* `Page.Matched` — each of them has one timer that waits, and no other toast has one;
* `Page.matched_move` — a move keeps it so;
* `Page.timers_clear` — to clear a page leaves the timer of the redirect as it was, and no other.
-/

/-- Whether a toast is shown for a time only. -/
def Toast.Lifetime.isTimed : Toast.Lifetime → Bool
  | .timed _ => true
  | .untilRemoved => false

namespace Page

/-- The toast that a timer is for, if it is for one. -/
def TimerKey.toast? : TimerKey → Option Uuid
  | .toast id => some id
  | .redirect => none

/-- The identifiers of the toasts that are shown for a time. -/
def timedIds (toasts : List Toast) : List Uuid :=
  (toasts.filter (·.lifetime.isTimed)).map (·.id)

/-- A toast with a lifetime that ends is one of the toasts. -/
theorem timedIds_subset (toasts : List Toast) {id : Uuid} (h : id ∈ timedIds toasts) :
    id ∈ toasts.map (·.id) :=
  (List.filter_sublist.map _).subset h

/-- Without the toasts of an identifier, it is not the identifier of one, and all others stay. -/
theorem count_timedIds_filter (toasts : List Toast) (id other : Uuid) :
    (timedIds (toasts.filter (·.id ≠ id))).count other =
      if other = id then 0 else (timedIds toasts).count other := by
  rw [timedIds, List.filter_filter]
  split
  · rename_i hsame
    rw [List.count_eq_zero]
    intro hmem
    obtain ⟨toast, htoast, hid⟩ := List.mem_map.mp hmem
    simp [hid, hsame] at htoast
  · rename_i hother
    simp only [timedIds, List.count_eq_countP, List.countP_map, List.countP_filter]
    refine List.countP_congr fun toast _ => ?_
    by_cases hid : toast.id = other
    · simp [hid, hother]
    · simp [hid]

/-- Each toast that is shown for a time has one timer, and no other toast has one. -/
structure Matched (page : Page) : Prop where
  mirrored : page.Mirrored
  orderly : page.Orderly
  matched : ∀ id,
    (page.timers.deadlines (.toast id)).length = (timedIds page.toasts).count id

variable {page page' : Page}

/-- A new page has neither toasts nor timers. -/
theorem matched_initial (setup : Setup) : (initial setup).Matched :=
  ⟨mirrored_initial setup, initial_orderly setup, fun _ => rfl⟩

/-- A toast that is not shown has no timer. -/
theorem Matched.deadlines_eq_nil (h : page.Matched) {id : Uuid}
    (hid : id ∉ page.toasts.map (·.id)) : page.timers.deadlines (.toast id) = [] := by
  refine List.eq_nil_of_length_eq_zero ?_
  rw [h.matched id, List.count_eq_zero]
  exact fun hmem => hid (timedIds_subset _ hmem)

/-- No toast has two timers. -/
theorem Matched.length_le_one (h : page.Matched) (id : Uuid) :
    (page.timers.deadlines (.toast id)).length ≤ 1 := by
  rw [h.matched id]
  exact List.nodup_iff_count_le_one.mp ((List.filter_sublist.map _).nodup h.mirrored.ids_nodup) id

/-- The toasts whose timers wait are those that are shown for a time. -/
theorem Matched.pendingKeys_perm (h : page.Matched) :
    (page.timers.pendingKeys.filterMap TimerKey.toast?).Perm (timedIds page.toasts) := by
  rw [List.perm_iff_count]
  intro id
  rw [← h.matched id, ← Scheduler.count_pendingKeys, List.count, List.countP_filterMap, List.count]
  refine List.countP_congr fun key _ => ?_
  cases key with
  | toast other => simp [TimerKey.toast?]
  | redirect => simp [TimerKey.toast?]

/-! ### Changes -/

/-- A toast that is dismissed is no longer there. -/
@[simp] theorem toasts_dismiss (page : Page) (id : Uuid) :
    (page.dismiss id).2.toasts = page.toasts.filter (·.id ≠ id) := by
  rw [dismiss]
  split
  · rfl
  · rename_i hthere
    refine (List.filter_eq_self.mpr fun toast htoast => ?_).symm
    rw [decide_eq_true_eq]
    exact fun hid => hthere (List.any_eq_true.mpr ⟨toast, htoast, decide_eq_true hid⟩)

/-- Its timer is left alone. -/
@[simp] theorem timers_dismiss (page : Page) (id : Uuid) :
    (page.dismiss id).2.timers = page.timers :=
  timers_apply page (.dismiss id)

/-- Nothing but the toasts, the events and the timers matters, and of the timers only those of
toasts. -/
theorem Matched.of_eq (h : page.Matched) (hmirrored : page'.Mirrored) (horderly : page'.Orderly)
    (htoasts : page'.toasts = page.toasts)
    (hdeadlines : ∀ id, (page'.timers.deadlines (.toast id)).length =
      (page.timers.deadlines (.toast id)).length) : page'.Matched :=
  ⟨hmirrored, horderly, fun id => by rw [hdeadlines id, htoasts, h.matched id]⟩

/-- A toast is taken off the page once its timer is gone. -/
theorem Matched.dismiss {timers : Scheduler TimerKey Effect} {id : Uuid} (h : page.Matched)
    (horderly : ({ page with timers := timers } : Page).Orderly)
    (hgone : timers.deadlines (.toast id) = [])
    (hothers : ∀ other, other ≠ id → (timers.deadlines (.toast other)).length =
      (page.timers.deadlines (.toast other)).length) :
    (({ page with timers := timers } : Page).dismiss id).2.Matched := by
  have hstart : ({ page with timers := timers } : Page).Mirrored := h.mirrored.of_eq rfl rfl rfl
  refine ⟨hstart.dismiss id, (sameRedirects_dismiss _ id).orderly horderly, fun other => ?_⟩
  rw [timers_dismiss, toasts_dismiss, count_timedIds_filter]
  split
  · rename_i hsame
    rw [hsame, hgone]
    rfl
  · rename_i hother
    rw [hothers other hother, h.matched other]

/-- A new toast is shown. -/
theorem Matched.display (h : page.Matched) (hcount : page.toastCount < Uuid.size)
    (message : String) (severity : Toast.Severity) (lifetime : Toast.Lifetime) :
    (page.display message severity lifetime).2.Matched := by
  -- nothing waits under the new identifier, so the timer of the toast is accepted
  have hfree := h.deadlines_eq_nil (h.mirrored.next_not_mem_ids hcount)
  have htimed : (timedIds page.toasts).count (Uuid.ofNat page.toastCount) = 0 := by
    rw [← h.matched, hfree]
    rfl
  refine ⟨h.mirrored.display hcount message severity lifetime,
    (sameRedirects_display page message severity lifetime).orderly h.orderly, fun id => ?_⟩
  rw [toasts_display, timedIds, List.filter_append, List.map_append, List.count_append]
  cases lifetime with
  | untilRemoved => exact h.matched id
  | timed milliseconds =>
    show ((page.timers.schedule (.toast (Uuid.ofNat page.toastCount)) milliseconds.toNat
      _).2.deadlines (.toast id)).length = (timedIds page.toasts).count id +
        List.count id [Uuid.ofNat page.toastCount]
    by_cases hid : id = Uuid.ofNat page.toastCount
    · rw [hid, Scheduler.deadlines_schedule hfree, htimed, List.count_singleton_self]
      rfl
    · rw [Scheduler.deadlines_schedule_of_ne _ (by simpa using hid), h.matched id,
        List.count_singleton, if_neg (by simpa using Ne.symm hid), Nat.add_zero]

/-- A toast is taken off the page before its time. -/
theorem Matched.remove (h : page.Matched) (id : Uuid) : (page.remove id).2.Matched :=
  Matched.dismiss h ((sameRedirects_cancelToast page id).orderly h.orderly)
    (Scheduler.deadlines_cancel _ _)
    fun other hother =>
      congrArg List.length (Scheduler.deadlines_cancel_of_ne _ (by simpa using hother))

/-- The timers take a step: a toast whose time is over goes with its timer. -/
theorem Matched.applyAll {outcome : List Effect × Scheduler TimerKey Effect} (h : page.Matched)
    (hstep : page.timers.step? = some outcome) : (page.applyAll outcome).Matched := by
  obtain ⟨events, timers⟩ := outcome
  obtain ⟨_, hplain, hsorted⟩ := h.orderly.plain.step?_keeps h.orderly.sorted hstep
  have horderly : ({ page with timers := timers } : Page).Orderly := ⟨hplain, hsorted⟩
  have hmirrored : ({ page with timers := timers } : Page).Mirrored :=
    h.mirrored.of_eq rfl rfl rfl
  obtain ⟨rfl, hsame⟩ | ⟨key, due, rfl, _, hfired, hothers⟩ :=
    h.orderly.plain.step?_fires TimerKey.effect_injective hstep
  · exact h.of_eq hmirrored horderly rfl fun id => (hsame (.toast id)).length_eq.symm
  · cases key with
    | toast id =>
      -- the timer was the only one of the toast
      have hone := h.length_le_one id
      rw [hfired.length_eq, List.length_cons] at hone
      exact h.dismiss horderly (List.eq_nil_of_length_eq_zero (by omega))
        fun other hother => (hothers (.toast other) (by simpa using hother)).length_eq.symm
    | redirect =>
      exact h.of_eq (hmirrored.publish rfl rfl) (horderly.publish _) rfl
        fun id => (hothers (.toast id) (by simp)).length_eq.symm

/-- A redirect has nothing to do with toasts. -/
theorem Matched.redirect (h : page.Matched) (delay : Nat) : (page.redirect delay).2.Matched :=
  h.of_eq (h.mirrored.of_eq rfl rfl rfl) (h.orderly.redirect delay) rfl
    fun _ => congrArg List.length (Scheduler.deadlines_schedule_of_ne _ (by simp) _ _)

/-- Nor has one that is cancelled. -/
theorem Matched.cancelRedirect (h : page.Matched) : page.cancelRedirect.2.Matched :=
  h.of_eq (h.mirrored.of_eq rfl rfl rfl) ⟨h.orderly.plain.cancel _, h.orderly.sorted.cancel _⟩ rfl
    fun _ => congrArg List.length (Scheduler.deadlines_cancel_of_ne _ (by simp))

/-- Nor has a download. -/
theorem Matched.openDownload (h : page.Matched) (url : String) : (page.openDownload url).Matched :=
  h.of_eq (h.mirrored.publish rfl rfl) (h.orderly.publish _) rfl fun _ => rfl

/-- Timers match toasts while time passes in which nothing is due. -/
theorem Matched.wait (h : page.Matched) (hstep : page.timers.step? = none) (milliseconds : Nat) :
    (page.wait milliseconds).Matched :=
  h.of_eq (h.mirrored.of_eq rfl rfl rfl) (h.orderly.wait milliseconds) rfl fun id =>
    congrArg List.length (deadlines_wait (Scheduler.recent_eq_nil hstep) milliseconds (.toast id))

/-- **Timers match toasts.** As long as identifiers last, a move leaves each toast that is shown for a
time with one timer, and all others without. -/
theorem matched_move (page : Page) (move : Move)
    (h : page.toastCount ≤ Uuid.size → page.Matched) :
    (page.move move).toastCount ≤ Uuid.size → (page.move move).Matched := by
  refine move_induction (P := fun page => page.toastCount ≤ Uuid.size → page.Matched) move h
    ?_ ?_ ?_ ?_ ?_ ?_ ?_
  · intro page message severity lifetime _ h hcount
    rw [toastCount_display] at hcount
    exact (h (by omega)).display (by omega) message severity lifetime
  · intro page id _ h hcount
    rw [toastCount_remove] at hcount
    exact (h hcount).remove id
  · exact fun page delay h hcount => (h hcount).redirect delay
  · exact fun page h hcount => (h hcount).cancelRedirect
  · exact fun page url h hcount => (h hcount).openDownload url
  · intro page outcome h hstep hcount
    rw [toastCount_applyAll] at hcount
    exact (h hcount).applyAll hstep
  · exact fun page milliseconds h hstep hcount => (h hcount).wait hstep milliseconds

/-! ### Clearing a page -/

/-- To take toasts off the page one after the other leaves the others, and the timers that are for
none of them. -/
theorem foldl_remove (ids : List Uuid) (page : Page) :
    let cleared := ids.foldl (fun page id => (page.remove id).2) page
    cleared.toasts = page.toasts.filter (fun toast => toast.id ∉ ids) ∧
    cleared.timers = ⟨page.timers.now,
      page.timers.timers.filter fun timer => ∀ id ∈ ids, timer.key ≠ some (.toast id),
      page.timers.recent.filter fun task => ∀ id ∈ ids, task.key ≠ .toast id⟩ := by
  induction ids generalizing page with
  | nil => simp
  | cons id ids ih =>
    obtain ⟨htoasts, htimers⟩ := ih (page.remove id).2
    have hremoved : (page.remove id).2.toasts = page.toasts.filter (·.id ≠ id) := toasts_dismiss _ id
    have hcancelled : (page.remove id).2.timers = (page.timers.cancel (.toast id)).2 :=
      timers_dismiss _ id
    refine ⟨htoasts.trans ?_, htimers.trans ?_⟩
    · rw [hremoved, List.filter_filter]
      refine List.filter_congr fun toast _ => ?_
      simp only [List.mem_cons, not_or, Bool.decide_and, ne_eq, decide_not, Bool.and_comm]
    · rw [hcancelled]
      simp only [Scheduler.cancel, List.filter_filter]
      congr 1
      · refine List.filter_congr fun timer _ => ?_
        by_cases hkey : timer.key = some (.toast id) <;> simp [hkey]
      · refine List.filter_congr fun task _ => ?_
        by_cases hkey : task.key = .toast id <;> simp [hkey]

/-- **A clear page.** To clear a page leaves no toast and no timer of one, and the timer of the redirect
as it was. -/
theorem Matched.clear (h : page.Matched) :
    page.clear.toasts = [] ∧
    page.clear.timers = ⟨page.timers.now,
      page.timers.timers.filter fun timer => timer.key = some .redirect,
      page.timers.recent.filter fun task => task.key = .redirect⟩ := by
  obtain ⟨htoasts, htimers⟩ := foldl_remove (page.toasts.map (·.id)) page
  -- a timer of a toast is one of a toast that is shown
  have hshown (id : Uuid) (hpending : page.timers.deadlines (.toast id) ≠ []) :
      id ∈ page.toasts.map (·.id) :=
    Decidable.not_not.mp fun hnot => hpending (h.deadlines_eq_nil hnot)
  refine ⟨htoasts.trans ?_, htimers.trans ?_⟩
  · refine List.filter_eq_nil_iff.mpr fun toast htoast => ?_
    simpa using ⟨toast, htoast, rfl⟩
  · congr 1
    · refine List.filter_congr fun timer htimer => ?_
      obtain ⟨key, hkey, _⟩ := h.orderly.plain.timers timer htimer
      cases key with
      | toast id =>
        have hid := hshown id (Scheduler.deadlines_ne_nil_of_timer htimer hkey)
        simpa [hkey, eq_comm] using hid
      | redirect => simp [hkey]
    · refine List.filter_congr fun task htask => ?_
      cases hkey : task.key with
      | toast id =>
        have hid := hshown id (Scheduler.deadlines_ne_nil_of_new htask hkey)
        simpa [hkey, eq_comm] using hid
      | redirect => simp

end Page

end DropRoom
