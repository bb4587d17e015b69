import DropRoom.Proofs.Log
import DropRoom.Proofs.Page.Course

namespace DropRoom

/-!
# The toasts of a page and its events

Whoever renders a page knows its toasts from the events alone.

* `Event.MayFollow` — a toast is shown once, and dismissed once after that;
* `Page.onScreen` — the toasts that events have shown and not dismissed;
* `Page.Mirrored` — the toasts of a page are those that its events say;
* `Page.mirrored_play` — they are after any moves;
* `Page.events_mirror_toasts` — all that the events say of the toasts.
-/

/-! ### What events say of toasts -/

namespace Event

/-- The identifier of the toast that an event takes off the page. -/
def dismissed? : Event → Option Uuid
  | .toast (.dismissed id) => some id
  | _ => none

/-- The identifiers of the toasts that events have shown. -/
def shownIds (log : List Event) : List Uuid :=
  (log.filterMap shown?).map (·.id)

/-- A toast is shown under an identifier that was not used before, and one that is dismissed was shown
before and has not been dismissed. -/
def MayFollow (log : List Event) : Event → Prop
  | .toast (.shown appeared) => appeared.id ∉ shownIds log
  | .toast (.dismissed id) => id ∈ shownIds log ∧ id ∉ log.filterMap dismissed?
  | _ => True

variable {log : List Event}

/-- An event shows one toast at most. -/
theorem shownIds_concat (log : List Event) (event : Event) :
    shownIds (log ++ [event]) = shownIds log ++ (event.shown?.map (·.id)).toList := by
  rw [shownIds, List.filterMap_append, List.map_append, shownIds]
  cases h : event.shown? <;> simp [h]

/-- A toast that was dismissed was shown. -/
theorem mem_shownIds_of_dismissed (h : Log.Lawful MayFollow log) {id : Uuid}
    (hid : id ∈ log.filterMap dismissed?) : id ∈ shownIds log := by
  obtain ⟨event, hevent, hdismissed⟩ := List.mem_filterMap.mp hid
  obtain ⟨before, after, rfl⟩ := List.append_of_mem hevent
  have hmay : MayFollow before event := h before event after rfl
  have hearlier : id ∈ shownIds before := by
    cases event with
    | toast event =>
      cases event with
      | shown toast => cases hdismissed
      | dismissed other =>
        have hsame : other = id := Option.some.inj hdismissed
        exact hsame ▸ hmay.1
    | room event => cases hdismissed
    | navigation event => cases hdismissed
  rw [shownIds, List.filterMap_append, List.map_append]
  exact List.mem_append_left _ hearlier

/-- No toast is dismissed twice. -/
theorem dismissed_nodup (h : Log.Lawful MayFollow log) : (log.filterMap dismissed?).Nodup := by
  refine h.filterMap_nodup fun log event id hmay hdismissed => ?_
  cases event with
  | toast event =>
    cases event with
    | shown toast => cases hdismissed
    | dismissed other =>
      have hsame : other = id := Option.some.inj hdismissed
      exact hsame ▸ hmay.2
  | room event => cases hdismissed
  | navigation event => cases hdismissed

end Event

open Event (shownIds)

namespace Page

/-- The toasts that events have shown and not dismissed, in the order in which they were shown. -/
def onScreen (log : List Event) : List Toast :=
  (log.filterMap Event.shown?).filter fun toast => toast.id ∉ log.filterMap Event.dismissed?

/-- A toast that is shown is on the screen, unless it was dismissed before. -/
theorem onScreen_shown {log : List Event} {toast : Toast}
    (h : toast.id ∉ log.filterMap Event.dismissed?) :
    onScreen (log ++ [.toast (.shown toast)]) = onScreen log ++ [toast] := by
  have hnone : [Event.toast (.shown toast)].filterMap Event.dismissed? = [] := rfl
  have hsome : [Event.toast (.shown toast)].filterMap Event.shown? = [toast] := rfl
  rw [onScreen, List.filterMap_append, List.filterMap_append, hnone, hsome, List.append_nil,
    List.filter_append]
  simpa [onScreen, List.filter_cons] using h

/-- A toast that is dismissed leaves it. -/
theorem onScreen_dismissed (log : List Event) (id : Uuid) :
    onScreen (log ++ [.toast (.dismissed id)]) = (onScreen log).filter (·.id ≠ id) := by
  simp only [onScreen, List.filterMap_append]
  simp [Event.shown?, Event.dismissed?, List.filter_filter, and_comm]

/-- No other event changes what is on the screen. -/
theorem onScreen_other {log : List Event} {event : Event} (hshown : event.shown? = none)
    (hdismissed : event.dismissed? = none) : onScreen (log ++ [event]) = onScreen log := by
  simp only [onScreen, List.filterMap_append]
  simp [hshown, hdismissed]

/-- The toasts that are on screen were shown and not dismissed. -/
theorem mem_onScreen_ids {log : List Event} {id : Uuid} :
    id ∈ (onScreen log).map (·.id) ↔ id ∈ shownIds log ∧ id ∉ log.filterMap Event.dismissed? := by
  simp only [onScreen, shownIds, List.mem_map, List.mem_filter, decide_eq_true_eq]
  constructor
  · rintro ⟨toast, ⟨hshown, hkept⟩, rfl⟩
    exact ⟨⟨toast, hshown, rfl⟩, hkept⟩
  · rintro ⟨⟨toast, hshown, rfl⟩, hkept⟩
    exact ⟨toast, ⟨hshown, hkept⟩, rfl⟩

/-! ### Pages that mirror their events -/

/-- The toasts of a page are those that its events have shown and not dismissed, and its identifiers
were given in order. -/
structure Mirrored (page : Page) : Prop where
  ids : shownIds page.published = (List.range page.toastCount).map Uuid.ofNat
  lawful : Log.Lawful Event.MayFollow page.published
  toasts_eq : page.toasts = onScreen page.published

variable {page page' : Page}

/-- On a new page nothing is shown. -/
theorem mirrored_initial (setup : Setup) : (initial setup).Mirrored :=
  ⟨rfl, Log.lawful_nil, rfl⟩

/-- Nothing but the toasts and the events matters. -/
theorem Mirrored.of_eq (h : page.Mirrored) (hpublished : page'.published = page.published)
    (htoasts : page'.toasts = page.toasts) (hcount : page'.toastCount = page.toastCount) :
    page'.Mirrored := by
  obtain ⟨hids, hlawful, htoasts'⟩ := h
  refine ⟨?_, ?_, ?_⟩
  · rw [hpublished, hcount, hids]
  · rw [hpublished]
    exact hlawful
  · rw [htoasts, hpublished, htoasts']

/-- The identifier of the toast that appears next was not used before. -/
theorem Mirrored.next_not_mem (h : page.Mirrored) (hcount : page.toastCount < Uuid.size) :
    Uuid.ofNat page.toastCount ∉ shownIds page.published := by
  rw [h.ids]
  intro hmem
  obtain ⟨n, hn, hsame⟩ := List.mem_map.mp hmem
  have hlt : n < page.toastCount := List.mem_range.mp hn
  -- identifiers are numbers that wrap around, and there are still some left
  have hvalue : n % Uuid.size = page.toastCount % Uuid.size := congrArg Uuid.value hsame
  rw [Nat.mod_eq_of_lt (Nat.lt_trans hlt hcount), Nat.mod_eq_of_lt hcount] at hvalue
  omega

/-- As long as identifiers last, the next one is that of no toast. -/
theorem Mirrored.next_not_mem_ids (h : page.Mirrored) (hcount : page.toastCount < Uuid.size) :
    Uuid.ofNat page.toastCount ∉ page.toasts.map (·.id) := by
  rw [h.toasts_eq]
  exact fun hmem => h.next_not_mem hcount (mem_onScreen_ids.mp hmem).1

/-- Toasts have identifiers of their own. -/
theorem Mirrored.shownIds_nodup (h : page.Mirrored) : (shownIds page.published).Nodup := by
  have hnodup : ((page.published.filterMap fun event => event.shown?.map (·.id))).Nodup := by
    refine h.lawful.filterMap_nodup fun log event id hmay hshown => ?_
    cases event with
    | toast event =>
      cases event with
      | shown toast =>
        have hsame : toast.id = id := Option.some.inj hshown
        rw [← List.map_filterMap]
        exact hsame ▸ hmay
      | dismissed other => cases hshown
    | room event => cases hshown
    | navigation event => cases hshown
  rwa [← List.map_filterMap] at hnodup

/-- No two toasts have one identifier. -/
theorem Mirrored.ids_nodup (h : page.Mirrored) : (page.toasts.map (·.id)).Nodup := by
  rw [h.toasts_eq]
  exact (List.filter_sublist.map _).nodup h.shownIds_nodup

/-! ### Changes -/

/-- A toast that is displayed is announced. -/
theorem published_display (page : Page) (message : String) (severity : Toast.Severity)
    (lifetime : Toast.Lifetime) :
    (page.display message severity lifetime).2.published = page.published ++
      [.toast (.shown ⟨Uuid.ofNat page.toastCount, message, severity,
        .sinceEpoch page.timers.now, lifetime⟩)] := by
  cases lifetime <;> exact published_publish _ _

/-- It comes after the others. -/
theorem toasts_display (page : Page) (message : String) (severity : Toast.Severity)
    (lifetime : Toast.Lifetime) :
    (page.display message severity lifetime).2.toasts = page.toasts ++
      [⟨Uuid.ofNat page.toastCount, message, severity, .sinceEpoch page.timers.now, lifetime⟩] := by
  cases lifetime <;> rfl

/-- It is counted. -/
@[simp] theorem toastCount_display (page : Page) (message : String) (severity : Toast.Severity)
    (lifetime : Toast.Lifetime) :
    (page.display message severity lifetime).2.toastCount = page.toastCount + 1 := by
  cases lifetime <;> rfl

/-- It has the next identifier. -/
theorem display_fst (page : Page) (message : String) (severity : Toast.Severity)
    (lifetime : Toast.Lifetime) :
    (page.display message severity lifetime).1 = Uuid.ofNat page.toastCount := by
  cases lifetime <;> rfl

/-- What is dismissed has been counted. -/
@[simp] theorem toastCount_dismiss (page : Page) (id : Uuid) :
    (page.dismiss id).2.toastCount = page.toastCount := by
  rw [dismiss]
  split <;> rfl

@[simp] theorem toastCount_remove (page : Page) (id : Uuid) :
    (page.remove id).2.toastCount = page.toastCount :=
  toastCount_dismiss { page with timers := (page.timers.cancel (.toast id)).2 } id

@[simp] theorem toastCount_apply (page : Page) (effect : Effect) :
    (page.apply effect).toastCount = page.toastCount := by
  cases effect with
  | dismiss id => exact toastCount_dismiss page id
  | redirect => rfl

@[simp] theorem toastCount_applyAll (page : Page)
    (outcome : List Effect × Scheduler TimerKey Effect) :
    (page.applyAll outcome).toastCount = page.toastCount := by
  obtain ⟨effects, timers⟩ := outcome
  show (effects.foldl apply { page with timers := timers }).toastCount = page.toastCount
  rw [foldl_apply_withTimers]
  show (effects.foldl apply page).toastCount = page.toastCount
  induction effects generalizing page with
  | nil => rfl
  | cons effect effects ih => rw [List.foldl_cons, ih, toastCount_apply]

/-- No toast is made while time passes. -/
theorem toastCount_advance (page : Page) (milliseconds : Nat) :
    (page.move (.advance milliseconds)).toastCount = page.toastCount := by
  show ((page.applyAll page.timers.settle).applyAll _).toastCount = _
  rw [toastCount_applyAll, toastCount_applyAll]

/-- A new toast is shown. -/
theorem Mirrored.display (h : page.Mirrored) (hcount : page.toastCount < Uuid.size)
    (message : String) (severity : Toast.Severity) (lifetime : Toast.Lifetime) :
    (page.display message severity lifetime).2.Mirrored := by
  have hnew := h.next_not_mem hcount
  -- what was never shown was never dismissed
  have hkept : Uuid.ofNat page.toastCount ∉ page.published.filterMap Event.dismissed? :=
    fun hmem => hnew (Event.mem_shownIds_of_dismissed h.lawful hmem)
  refine ⟨?_, ?_, ?_⟩
  · rw [published_display, toastCount_display, Event.shownIds_concat, h.ids, List.range_succ,
      List.map_append]
    rfl
  · rw [published_display]
    exact h.lawful.concat hnew
  · rw [published_display, toasts_display, onScreen_shown hkept, h.toasts_eq]

/-- A toast is taken off the page, if it is there. -/
theorem Mirrored.dismiss (h : page.Mirrored) (id : Uuid) : (page.dismiss id).2.Mirrored := by
  rw [Page.dismiss]
  split
  · rename_i hthere
    have hmem : id ∈ page.toasts.map (·.id) := by simpa using hthere
    -- the toast is on the page, so by its events it was shown and not dismissed
    have hmay := mem_onScreen_ids.mp (h.toasts_eq ▸ hmem)
    refine ⟨?_, ?_, ?_⟩
    · show shownIds (Page.publish _ _).published = (List.range page.toastCount).map Uuid.ofNat
      rw [published_publish, Event.shownIds_concat]
      exact (List.append_nil _).trans h.ids
    · rw [published_publish]
      exact h.lawful.concat hmay
    · show page.toasts.filter (·.id ≠ id) = onScreen (Page.publish _ _).published
      rw [published_publish, onScreen_dismissed, h.toasts_eq]
      rfl
  · exact h

/-- What has nothing to do with toasts is announced. -/
theorem Mirrored.publish (h : page.Mirrored) {event : Event} (hshown : event.shown? = none)
    (hdismissed : event.dismissed? = none) : (page.publish event).Mirrored := by
  have hmay : Event.MayFollow page.published event := by
    cases event with
    | toast event => cases event <;> simp [Event.shown?, Event.dismissed?] at hshown hdismissed
    | room event => exact True.intro
    | navigation event => exact True.intro
  refine ⟨?_, ?_, ?_⟩
  · rw [published_publish, Event.shownIds_concat, hshown]
    exact (List.append_nil _).trans h.ids
  · rw [published_publish]
    exact h.lawful.concat hmay
  · rw [published_publish, onScreen_other hshown hdismissed]
    exact h.toasts_eq

/-- The effect of a timer takes from the screen what it takes from the page. -/
theorem Mirrored.apply (h : page.Mirrored) (effect : Effect) : (page.apply effect).Mirrored := by
  cases effect with
  | dismiss id => exact h.dismiss id
  | redirect => exact h.publish rfl rfl

/-- So do many effects. -/
theorem Mirrored.applyAll (h : page.Mirrored) (outcome : List Effect × Scheduler TimerKey Effect) :
    (page.applyAll outcome).Mirrored := by
  obtain ⟨effects, timers⟩ := outcome
  have hstart : ({ page with timers := timers } : Page).Mirrored := h.of_eq rfl rfl rfl
  show (effects.foldl Page.apply { page with timers := timers }).Mirrored
  generalize ({ page with timers := timers } : Page) = start at hstart
  induction effects generalizing start with
  | nil => exact hstart
  | cons effect effects ih => exact ih (start.apply effect) (hstart.apply effect)

/-- **Events mirror toasts.** As long as identifiers last, a move leaves the toasts of a page those
that its events say. -/
theorem mirrored_move (page : Page) (move : Move)
    (h : page.toastCount ≤ Uuid.size → page.Mirrored) :
    (page.move move).toastCount ≤ Uuid.size → (page.move move).Mirrored := by
  -- the number of toasts only grows, so what suffices after a change sufficed before it
  refine move_induction (P := fun page => page.toastCount ≤ Uuid.size → page.Mirrored) move h
    ?_ ?_ ?_ ?_ ?_ ?_ ?_
  · intro page message severity lifetime _ h hcount
    rw [toastCount_display] at hcount
    exact (h (by omega)).display (by omega) message severity lifetime
  · intro page id _ h hcount
    rw [toastCount_remove] at hcount
    have hstart : ({ page with timers := (page.timers.cancel (.toast id)).2 } : Page).Mirrored :=
      (h hcount).of_eq rfl rfl rfl
    exact hstart.dismiss id
  · intro page delay h hcount
    exact (h hcount).of_eq rfl rfl rfl
  · intro page h hcount
    exact (h hcount).of_eq rfl rfl rfl
  · intro page url h hcount
    exact (h hcount).publish rfl rfl
  · intro page outcome h _ hcount
    rw [toastCount_applyAll] at hcount
    exact (h hcount).applyAll outcome
  · intro page milliseconds h _ hcount
    exact (h hcount).of_eq rfl rfl rfl

/-- After any moves the toasts of a page are those that its events say. -/
theorem mirrored_play (setup : Setup) (moves : List Move)
    (hcount : ((initial setup).play moves).toastCount ≤ Uuid.size) :
    ((initial setup).play moves).Mirrored := by
  have hplay := play_induction (P := fun page => page.toastCount ≤ Uuid.size → page.Mirrored) moves
    (fun _ => mirrored_initial setup) fun page move _ h => mirrored_move page move h
  exact hplay hcount

/-! ### Identifiers -/

/-- A dismissal shows nothing. -/
theorem shownIds_dismiss (page : Page) (id : Uuid) :
    shownIds (page.dismiss id).2.published = shownIds page.published := by
  rw [dismiss]
  split
  · rw [published_publish, Event.shownIds_concat]
    exact List.append_nil _
  · rfl

/-- Nor do the effects of timers. -/
theorem shownIds_applyAll (page : Page) (outcome : List Effect × Scheduler TimerKey Effect) :
    shownIds (page.applyAll outcome).published = shownIds page.published := by
  obtain ⟨_, _, later, hlater, htimed, _⟩ :=
    published_foldl_apply outcome.1 { page with timers := outcome.2 }
  have hnone : later.filterMap Event.shown? = [] :=
    List.filterMap_eq_nil_iff.mpr fun event hmem => Event.shown?_of_isTimed (htimed event hmem)
  rw [applyAll, hlater, shownIds, List.filterMap_append, hnone, List.append_nil]
  rfl

/-- A move shows a toast under the identifier that it gives, and no other. -/
theorem shownIds_move (page : Page) (move : Move) :
    shownIds (page.move move).published =
      shownIds page.published ++ (page.issued? move).toList := by
  have hdisplay (page : Page) (message : String) (severity : Toast.Severity)
      (lifetime : Toast.Lifetime) :
      shownIds (page.display message severity lifetime).2.published =
        shownIds page.published ++ [(page.display message severity lifetime).1] := by
    rw [published_display, Event.shownIds_concat, display_fst]
    rfl
  -- a move without a lifetime shows nothing, by the steps that it is made of
  have hsilent (hsilent : ∀ setup, move.lifetime? setup = none) :
      shownIds (page.move move).published = shownIds page.published := by
    refine move_induction (P := fun other => shownIds other.published = shownIds page.published)
      move rfl ?_ ?_ ?_ ?_ ?_ ?_ ?_
    · intro other message severity lifetime hshows
      rw [hsilent] at hshows
      cases hshows
    · exact fun other id _ h => (shownIds_dismiss _ id).trans h
    · exact fun other delay h => h
    · exact fun other h => h
    · intro other url h
      rw [openDownload, published_publish, Event.shownIds_concat]
      exact (List.append_nil _).trans h
    · exact fun other outcome h _ => (shownIds_applyAll other outcome).trans h
    · exact fun other milliseconds h _ => h
  cases move with
  | push message severity => exact hdisplay page message severity _
  | pushPrompt message severity => exact hdisplay page message severity _
  | pushPersistent message severity => exact hdisplay page message severity _
  | _ => exact (hsilent fun _ => rfl).trans (List.append_nil _).symm

/-- Moves show toasts under the identifiers that they give, and no others. -/
theorem shownIds_play (page : Page) (moves : List Move) :
    shownIds (page.play moves).published = shownIds page.published ++ page.issued moves := by
  induction moves generalizing page with
  | nil => exact (List.append_nil _).symm
  | cons move moves ih =>
    rw [issued, ← List.append_assoc, ← shownIds_move]
    exact ih (page.move move)

/-- To take a toast off the page succeeds exactly if this is announced. -/
theorem published_dismiss (page : Page) (id : Uuid) :
    (page.dismiss id).2.published = page.published ++
      if (page.dismiss id).1 then [.toast (.dismissed id)] else [] := by
  rw [dismiss]
  split
  · exact published_publish _ _
  · exact (List.append_nil _).symm

/-- A toast that is removed is announced as gone if it was there. -/
theorem published_remove (page : Page) (id : Uuid) :
    (page.remove id).2.published = page.published ++
      if (page.remove id).1 then [.toast (.dismissed id)] else [] :=
  published_dismiss { page with timers := (page.timers.cancel (.toast id)).2 } id

/-- **Events mirror toasts.** Whatever toasts are shown and removed, and whatever the timers do down to
their single steps: each identifier that was given is that of one toast that was shown; a toast is
dismissed at most once, and after it was shown; to remove one succeeds exactly if this is announced;
and the toasts of the page are those that were shown and not dismissed, in the order in which they were
shown.  There are to be no more toasts than identifiers. -/
theorem events_mirror_toasts (setup : Setup) (moves : List Move)
    (hids : ((initial setup).play moves).toastCount ≤ Uuid.size) :
    let page := (initial setup).play moves
    let shown := page.news Event.shown?
    let dismissed := page.news Event.dismissed?
    (shown.map (·.id) = (initial setup).issued moves ∧ (shown.map (·.id)).Nodup) ∧
    dismissed.Nodup ∧
    (∀ before id after, page.published = before ++ .toast (.dismissed id) :: after →
      id ∈ (before.filterMap Event.shown?).map (·.id)) ∧
    (∀ id, ((page.remove id).1 = true ↔
        (page.remove id).2.published = page.published ++ [.toast (.dismissed id)]) ∧
      ((page.remove id).1 = false ↔ (page.remove id).2.published = page.published)) ∧
    page.toasts = shown.filter fun toast => toast.id ∉ dismissed := by
  intro page shown dismissed
  have hmirrored : page.Mirrored := mirrored_play setup moves hids
  refine ⟨⟨?_, hmirrored.shownIds_nodup⟩, Event.dismissed_nodup hmirrored.lawful, ?_, ?_,
    hmirrored.toasts_eq⟩
  · exact shownIds_play (initial setup) moves
  · intro before id after hsplit
    exact (hmirrored.lawful before _ after hsplit).1
  · intro id
    rw [published_remove]
    cases (page.remove id).1 <;> simp

/-- A toast that was removed, one that is shown until it is removed, and one whose time is over. -/
theorem events_mirror_toasts_of_three :
    let page := (initial ⟨"/create.html", 4000, 8000, 16⟩).play
      [.push "Saved" .success, .pushPersistent "Uploading" .info, .remove (Uuid.ofNat 0),
        .push "Lost" .warning, .advance 4000]
    page.toastCount ≤ Uuid.size ∧ (page.news Event.dismissed?).Nodup ∧
      page.toasts.map (·.message) = ["Uploading"] := by
  intro page
  have hcount : page.toastCount ≤ Uuid.size := by decide +kernel
  obtain ⟨_, hdismissed, _, _, htoasts⟩ := events_mirror_toasts ⟨"/create.html", 4000, 8000, 16⟩
    [.push "Saved" .success, .pushPersistent "Uploading" .info, .remove (Uuid.ofNat 0),
      .push "Lost" .warning, .advance 4000] hcount
  refine ⟨hcount, hdismissed, ?_⟩
  rw [htoasts]
  decide +kernel

end Page

end DropRoom
