import DropRoom.Proofs.Page.Matching
import DropRoom.Proofs.Room.Departures

namespace DropRoom

/-!
# Leaving a page at once

A page that is left at once is torn down: nothing that was under way may come back to it.

* `Page.Onward` — what all that happens during a visit can make of a page;
* `Page.Onward.orderly`, `Page.Onward.matched` — its timers stay in order, and match its toasts;
* `Page.quit` — what a shutdown does to a page, and `Page.Mirrored.published_clear`, what that
  announces;
* `Visit.Reached` — anything has happened to a visit, shutdowns included;
* `Visit.shutdown_leaves_nothing` — what is left of a visit after a shutdown, and what can come of it.
-/

namespace Page

variable {page page' : Page}

/-! ### Without toasts and timers -/

/-- No timers are in order. -/
theorem orderly_of_timers_eq {now : Nat} (h : page.timers = ⟨now, [], []⟩) : page.Orderly := by
  constructor
  · rw [h]
    exact ⟨fun timer htimer => absurd htimer List.not_mem_nil,
      fun task htask => absurd htask List.not_mem_nil⟩
  · rw [h]
    exact List.Pairwise.nil

/-- No timers do nothing. -/
theorem settle_of_timers_eq {now : Nat} (h : page.timers = ⟨now, [], []⟩) :
    page.settle = page := by
  have hnothing : page.timers.settle = ([], page.timers) := by
    rw [h]
    rfl
  rw [settle, hnothing]
  rfl

/-- A page that is cleared has no toasts. -/
theorem toasts_clear (page : Page) : page.clear.toasts = [] := by
  rw [clear, (foldl_remove (page.toasts.map (·.id)) page).1]
  refine List.filter_eq_nil_iff.mpr fun toast htoast => ?_
  simpa using ⟨toast, htoast, rfl⟩

/-- Its toasts are still counted. -/
theorem toastCount_clear (page : Page) : page.clear.toastCount = page.toastCount := by
  rw [clear]
  generalize page.toasts.map (·.id) = ids
  induction ids generalizing page with
  | nil => rfl
  | cons id ids ih => exact (ih (page.remove id).2).trans (toastCount_remove page id)

/-- To take toasts with identifiers of their own off a page announces the end of each, in order. -/
theorem published_foldl_remove {ids : List Uuid} (hnodup : ids.Nodup) {page : Page}
    (h : ∀ id ∈ ids, id ∈ page.toasts.map (·.id)) :
    (ids.foldl (fun page id => (page.remove id).2) page).published =
      page.published ++ ids.map fun id => .toast (.dismissed id) := by
  induction ids generalizing page with
  | nil => exact (List.append_nil _).symm
  | cons id ids ih =>
    obtain ⟨hnew, hrest⟩ := List.nodup_cons.mp hnodup
    have hthere : (page.remove id).1 = true := by
      have hany : page.toasts.any (fun toast => toast.id = id) = true := by
        simpa using h id List.mem_cons_self
      show (Page.dismiss { page with timers := _ } id).1 = true
      rw [dismiss]
      exact congrArg Prod.fst (if_pos hany)
    -- the other toasts are still there
    have hothers (other : Uuid) (hother : other ∈ ids) :
        other ∈ (page.remove id).2.toasts.map (·.id) := by
      obtain ⟨toast, htoast, rfl⟩ := List.mem_map.mp (h other (List.mem_cons_of_mem _ hother))
      refine List.mem_map_of_mem ?_
      rw [remove, toasts_dismiss]
      exact List.mem_filter.mpr ⟨htoast, decide_eq_true fun hsame => hnew (hsame ▸ hother)⟩
    rw [List.foldl_cons, ih hrest hothers, published_remove, hthere, List.map_cons,
      List.append_assoc]
    rfl

/-- To clear a page announces the end of each of its toasts, in order. -/
theorem Mirrored.published_clear (h : page.Mirrored) :
    page.clear.published =
      page.published ++ page.toasts.map fun toast => .toast (.dismissed toast.id) := by
  rw [clear, published_foldl_remove h.ids_nodup fun _ hid => hid, List.map_map]
  rfl

/-- Every toast that was shown, and is not shown any more, was dismissed once. -/
theorem Mirrored.count_dismissed (h : page.Mirrored) (hempty : page.toasts = []) {toast : Toast}
    (htoast : toast ∈ page.news Event.shown?) :
    (page.news Event.dismissed?).count toast.id = 1 := by
  have hshown : toast.id ∈ Event.shownIds page.published := List.mem_map_of_mem htoast
  refine List.count_eq_one_of_mem (Event.dismissed_nodup h.lawful) ?_
  by_contra hkept
  have hthere : toast.id ∈ (onScreen page.published).map (·.id) :=
    mem_onScreen_ids.mpr ⟨hshown, hkept⟩
  rw [← h.toasts_eq, hempty] at hthere
  cases hthere

/-- Take all toasts off a page, and cancel all timers. -/
def quit (page : Page) : Page :=
  { page.clear with timers := page.clear.timers.cancelAll.2 }

/-- Where every timer is under a key, none is left. -/
theorem timers_quit (h : page.clear.Orderly) :
    page.quit.timers = ⟨page.clear.timers.now, [], []⟩ := by
  have hnone : page.clear.timers.timers.filter (fun timer => timer.key.isNone) = [] := by
    refine List.filter_eq_nil_iff.mpr fun timer htimer => ?_
    obtain ⟨key, hkey, _⟩ := h.plain.timers timer htimer
    simp [hkey]
  show page.clear.timers.cancelAll.2 = _
  rw [Scheduler.cancelAll, hnone]

/-- Timers match toasts when the page is left. -/
theorem Matched.quit (h : page.clear.Matched) : page.quit.Matched := by
  have hnone := timers_quit h.orderly
  refine ⟨h.mirrored.of_eq rfl rfl rfl, orderly_of_timers_eq hnone, fun id => ?_⟩
  have htoasts : page.quit.toasts = [] := toasts_clear page
  rw [hnone, htoasts]
  rfl

/-! ### What happens during a visit -/

/-- One page becomes another by moves, by toasts of any lifetime, by news of the room, and by being
left at once. -/
inductive Onward (page : Page) : Page → Prop where
  | refl : Onward page page
  | move {page' : Page} (h : Onward page page') (move : Move) : Onward page (page'.move move)
  | display {page' : Page} (h : Onward page page') (message : String) (severity : Toast.Severity)
    (lifetime : Toast.Lifetime) : Onward page (page'.display message severity lifetime).2
  | tell {page' : Page} (h : Onward page page') (event : RoomEvent) :
    Onward page (page'.publish (.room event))
  | quit {page' : Page} (h : Onward page page') : Onward page page'.quit

/-- A notice leads onward. -/
theorem Onward.notify (h : Onward page page') (message : String) (severity : Toast.Severity) :
    Onward page (page'.notify message severity) :=
  h.move (.push message severity)

/-- So does any operation. -/
theorem Onward.operate (h : Onward page page') (operation : Operation) :
    Onward page (page'.operate operation) := by
  cases operation with
  | display message severity lifetime => exact h.display message severity lifetime
  | remove id => exact h.move (.remove id)
  | openDownload url => exact h.move (.openDownload url)

/-- The timers of a page stay in order, whatever move is made. -/
theorem orderly_move (h : page.Orderly) (move : Move) : (page.move move).Orderly := by
  refine move_induction (P := Orderly) move h ?_ ?_ ?_ ?_ ?_ ?_ ?_
  · exact fun page message severity lifetime _ h =>
      (sameRedirects_display page message severity lifetime).orderly h
  · exact fun page id _ h => (sameRedirects_remove page id).orderly h
  · exact fun page delay h => h.redirect delay
  · exact fun page h => ⟨h.plain.cancel _, h.sorted.cancel _⟩
  · exact fun page url h => h.publish _
  · intro page outcome h hstep
    obtain ⟨_, hplain, hsorted⟩ := h.plain.step?_keeps h.sorted hstep
    exact ⟨timers_applyAll page outcome ▸ hplain, timers_applyAll page outcome ▸ hsorted⟩
  · exact fun page milliseconds h _ => h.wait milliseconds

/-- **Timers in order.** Whatever happens during a visit, the timers of its page do what their keys
say and stand in the order of their deadlines. -/
theorem Onward.orderly (h : Onward page page') (hstart : page.Orderly) : page'.Orderly := by
  induction h with
  | refl => exact hstart
  | move _ move ih => exact orderly_move ih move
  | display _ message severity lifetime ih =>
    exact (sameRedirects_display _ message severity lifetime).orderly ih
  | tell _ event ih => exact ih.publish _
  | quit _ ih => exact orderly_of_timers_eq (timers_quit (orderly_move ih .clear))

/-- **Timers match toasts.** As long as identifiers last, whatever happens during a visit leaves each
toast that is shown for a time with one timer, and all others without. -/
theorem Onward.matched (h : Onward page page') (hstart : page.Matched)
    (hcount : page'.toastCount ≤ Uuid.size) : page'.Matched := by
  induction h with
  | refl => exact hstart
  | move _ move ih => exact matched_move _ move ih hcount
  | display _ message severity lifetime ih =>
    rw [toastCount_display] at hcount
    exact (ih (by omega)).display (by omega) message severity lifetime
  | tell _ event ih =>
    have h := ih hcount
    exact h.of_eq (h.mirrored.publish rfl rfl) (h.orderly.publish _) rfl fun _ => rfl
  | quit _ ih => exact (matched_move _ .clear ih hcount).quit

end Page

namespace Room

variable {start v : Visit}

namespace Visit

/-! ### States that a visit can be in -/

/-- Anything has happened to a visit: moves, commands, toasts that were shown or removed by others,
single steps of the timers, and shutdowns. -/
inductive Reached [File.MediaTypes] (start : Visit) : Visit → Prop where
  | start : Reached start start
  | move {v : Visit} (h : Reached start v) (move : Move) : Reached start (v.move move)
  | page {v : Visit} (h : Reached start v) (move : Page.Move) :
    Reached start { v with page := v.page.move move }
  | perform {v : Visit} (h : Reached start v) (server : Api.Server) (base : Url)
    (command : Command) : Reached start (v.perform server base command).2
  | shutdown {v : Visit} (h : Reached start v) : Reached start v.shutdown

/-- So does a step of the page. -/
theorem onward_pageStep {page page' page'' : Page} (h : page.Onward page')
    (step : PageStep page' page'') : page.Onward page'' := by
  cases step with
  | same => exact h
  | settle => exact h.move (.wait 0)
  | advance milliseconds => exact h.move (.advance milliseconds)

/-- So does the end of the room. -/
theorem onward_terminate {page : Page} (h : page.Onward v.page) (message reason : String) :
    page.Onward (v.terminate message reason).page := by
  rw [terminate]
  split
  · exact h
  · exact ((h.notify message .error).tell (.terminated reason)).move
      (.redirect v.redirectDelay.toNat)

/-- So does what is heard of the room. -/
theorem onward_hear {page : Page} (h : page.Onward v.page) (news : RoomNews) :
    page.Onward (v.hear news).page := by
  cases news with
  | closed reason => exact onward_terminate h _ _
  | snapshot s =>
    have hshow : page.Onward (v.showSnapshot s).page := h.tell _
    rw [hear, takeSnapshot]
    split
    · exact onward_terminate hshow _ _
    · split
      · exact hshow
      · exact hshow.notify _ _

/-- So does every move. -/
theorem onward_move {page : Page} (h : page.Onward v.page) (move : Move) :
    page.Onward (v.move move).page := by
  cases move with
  | page operation => exact h.operate operation
  | exitRoom => exact h.move (.redirect _)
  | outcome result =>
    rw [Visit.move]
    split
    · exact h.move (.redirect _)
    · exact h
  | stream step =>
    show page.Onward (v.step step).page
    cases hnews : step.news? with
    | none => exact onward_pageStep h (unheard_step hnews).page
    | some news =>
      rw [step_of_news hnews]
      split
      · exact h
      · exact onward_hear h news

/-- So do many moves. -/
theorem onward_play {page : Page} (moves : List Move) {v : Visit} (h : page.Onward v.page) :
    page.Onward (v.play moves).page := by
  induction moves generalizing v with
  | nil => exact h
  | cons move moves ih => exact ih (onward_move h move)

/-- All that happens to a visit is something that happens to its page. -/
theorem Reached.onward [File.MediaTypes] (h : Reached start v) : start.page.Onward v.page := by
  induction h with
  | start => exact .refl
  | move _ move ih => exact onward_move ih move
  | page _ move ih => exact ih.move move
  | @perform v _ server base command ih =>
    obtain ⟨operations, hperform⟩ := perform_eq_play v server base command
    rw [hperform]
    exact onward_play _ ih
  | shutdown _ ih => exact ih.quit

/-! ### After a shutdown -/

/-- Whether a step is none that the page takes by itself: time passes, a reader does something, or
somebody asks for an input. -/
def Step.isPassive : Step → Bool
  | .deliver _ _ => true
  | .finish _ => true
  | .nextInput => true
  | .settle => true
  | .advance _ => true
  | _ => false

/-- A visit without timers that does not listen to its stream. -/
structure Quiet (v : Visit) : Prop where
  timers : ∃ now, v.page.timers = ⟨now, [], []⟩
  inbox : v.feed.inbox = none

/-- On a quiet page nothing changes but the clock. -/
theorem Quiet.step (h : v.Quiet) {step : Step} (hstep : step.isPassive = true) :
    (v.step step).Quiet ∧ (v.step step).page.published = v.page.published ∧
      (v.step step).feed = v.feed := by
  obtain ⟨⟨now, htimers⟩, hinbox⟩ := h
  have hupdate (reader : Nat) (change : Inbox → Inbox) :
      v.feed.updateInbox reader change = v.feed := by
    rw [Feed.updateInbox, hinbox]
  have hsettle : v.page.settle = v.page := Page.settle_of_timers_eq htimers
  -- no step but these lets time pass, listens or asks for an input
  cases step with
  | deliver reader input =>
    rw [Visit.step, deliver, Feed.deliver, hupdate]
    exact ⟨⟨⟨now, htimers⟩, hinbox⟩, rfl, rfl⟩
  | finish reader =>
    rw [Visit.step, finish, Feed.finish, hupdate]
    exact ⟨⟨⟨now, htimers⟩, hinbox⟩, rfl, rfl⟩
  | nextInput =>
    have htake : v.feed.takeInput = (.ended, v.feed) := by
      rw [Feed.takeInput, hinbox]
    rw [Visit.step, nextInput, htake]
    exact ⟨⟨⟨now, htimers⟩, hinbox⟩, rfl, rfl⟩
  | settle =>
    rw [Visit.step, Visit.settle, hsettle]
    exact ⟨⟨⟨now, htimers⟩, hinbox⟩, rfl, rfl⟩
  | advance milliseconds =>
    have hwait : (v.page.wait milliseconds).timers = ⟨now + milliseconds, [], []⟩ := by
      rw [Page.wait, htimers]
    have hpage : (v.step (.advance milliseconds)).page = v.page.wait milliseconds := by
      show (v.page.settle.wait milliseconds).settle = _
      rw [hsettle, Page.settle_of_timers_eq hwait]
    exact ⟨⟨⟨now + milliseconds, hpage ▸ hwait⟩, hinbox⟩, by rw [hpage]; rfl, rfl⟩
  | _ => cases hstep

/-- A page that is quiet announces nothing in passive steps, and its stream stays as it is. -/
theorem Quiet.run (h : v.Quiet) {steps : List Step} (hsteps : ∀ step ∈ steps, step.isPassive = true) :
    (v.run steps).page.published = v.page.published ∧ (v.run steps).feed = v.feed := by
  induction steps generalizing v with
  | nil => exact ⟨rfl, rfl⟩
  | cons step steps ih =>
    obtain ⟨hquiet, hpublished, hfeed⟩ := h.step (hsteps step List.mem_cons_self)
    obtain ⟨hlater, hfeed'⟩ := ih hquiet fun other hmem => hsteps other (List.mem_cons_of_mem _ hmem)
    exact ⟨hlater.trans hpublished, hfeed'.trans hfeed⟩

/-- **A shutdown.** Whatever has happened to a visit, a shutdown leaves no toast, no timer, and nothing
that listens to the stream, which is idle or closed for good; and it announces the end of each toast
that was shown, so that each one has been dismissed once.  Whatever time passes then, and whatever a
reader may still bring, nothing is announced any more.  Where toasts are counted there are to be no more
of them than identifiers. -/
theorem shutdown_leaves_nothing [File.MediaTypes] (setup : Page.Setup) (url : Url)
    (username : Option String) (delay actionDelay : UInt64) {v : Visit}
    (h : Reached (initial setup url username delay actionDelay) v) :
    let left := v.shutdown
    (left.page.toasts = [] ∧ left.page.timers.pendingCount = 0 ∧
      left.feed.reader = none ∧ left.feed.inbox = none ∧
      left.feed.state = if v.feed.terminated then .closed else .idle) ∧
    (v.page.toastCount ≤ Uuid.size →
      left.page.published =
        v.page.published ++ v.page.toasts.map (fun toast => .toast (.dismissed toast.id)) ∧
      ∀ toast ∈ v.page.news Event.shown?, (left.page.news Event.dismissed?).count toast.id = 1) ∧
    ∀ steps : List Step, (∀ step ∈ steps, step.isPassive = true) →
      (left.run steps).page.published = left.page.published ∧
        (left.run steps).feed = left.feed := by
  intro left
  have honward := h.onward
  have horderly : v.page.Orderly := honward.orderly (Page.initial_orderly setup)
  have htoasts : left.page.toasts = [] := Page.toasts_clear v.page
  have htimers : left.page.timers = ⟨v.page.clear.timers.now, [], []⟩ :=
    Page.timers_quit (Page.orderly_move horderly .clear)
  refine ⟨⟨htoasts, ?_, rfl, rfl, rfl⟩, fun hcount => ?_, fun steps hsteps => ?_⟩
  · rw [htimers]
    rfl
  · have hmatched : v.page.Matched := honward.matched (Page.matched_initial setup) hcount
    have hpublished : left.page.published = _ := hmatched.mirrored.published_clear
    have hleft : left.page.Matched :=
      honward.quit.matched (Page.matched_initial setup) (Page.toastCount_clear v.page ▸ hcount)
    refine ⟨hpublished, fun toast htoast => hleft.mirrored.count_dismissed htoasts ?_⟩
    -- what was shown before has been shown
    rw [Page.news_eq_of_published_append hpublished]
    exact List.mem_append_left _ htoast
  · exact Quiet.run ⟨⟨_, htimers⟩, rfl⟩ hsteps

/-- A shutdown when the stream has just been closed, with a toast of each lifetime and the redirect
still to come: the reader's last input and a minute later nothing more has been announced. -/
theorem shutdown_leaves_nothing_of_closed :
    let start := initial ⟨"/create.html", 4000, 8000, 16⟩
      ⟨"http", "", "", none, none, .segments ["rooms"], none, none⟩ none 1000 500
    let shown := ({ start with
      page := start.page.play [.pushPersistent "Uploading" .info, .pushPrompt "Install?" .info] })
    let v := (shown.move (.stream .connect)).move (.stream (.signal (.closed "gone")))
    let left := v.shutdown
    Reached start v ∧ v.page.redirectPending = true ∧ v.page.toasts.length = 3 ∧
      v.page.toastCount ≤ Uuid.size ∧
      left.page.toasts = [] ∧ left.page.timers.pendingCount = 0 ∧ left.feed.state = .closed ∧
      (left.page.news Event.dismissed?).length = 3 ∧
      (left.run [.deliver 0 .opened, .advance 60000]).page.published = left.page.published := by
  intro start shown v left
  have hshown : Reached start shown :=
    (Reached.start.page (.pushPersistent "Uploading" .info)).page (.pushPrompt "Install?" .info)
  have hreached : Reached start v := (hshown.move _).move _
  have hcount : v.page.toastCount ≤ Uuid.size := by decide +kernel
  obtain ⟨⟨htoasts, htimers, _, _, hstate⟩, hdismissed, hquiet⟩ :=
    shutdown_leaves_nothing ⟨"/create.html", 4000, 8000, 16⟩
      ⟨"http", "", "", none, none, .segments ["rooms"], none, none⟩ none 1000 500 hreached
  have hpassive : ∀ step ∈ [Step.deliver 0 .opened, .advance 60000], step.isPassive = true := by
    decide
  refine ⟨hreached, by decide +kernel, by decide +kernel, hcount, htoasts, htimers, hstate, ?_,
    (hquiet _ hpassive).1⟩
  rw [Page.news_eq_of_published_append (hdismissed hcount).1]
  decide +kernel

end Visit

end Room

end DropRoom
