import DropRoom.Proofs.Page.Matching

namespace DropRoom.Page

/-!
# How long toasts are shown

* `Lasts` — a toast is shown and its timer waits, or its time was over and it was dismissed;
* `lasts_move` — a move that does not take the toast off the page keeps it so;
* `timers_match_toasts` — toasts that are shown for a time, and only they, have a timer each; they are
  dismissed when their time is over, and not before; and a page that is cleared has no toasts and no
  timers of toasts.
-/

variable {page page' : Page} {id : Uuid} {due? : Option Nat}

/-- A toast is shown, and is due at some time if at all; or that time has come, and it was dismissed. -/
def Lasts (id : Uuid) (due? : Option Nat) (page : Page) : Prop :=
  (id ∈ page.toasts.map (·.id) ∧ page.timers.deadlines (.toast id) = due?.toList) ∨
    (id ∈ page.news Event.dismissed? ∧ page.timers.deadlines (.toast id) = [] ∧
      ∃ due ∈ due?, due ≤ page.timers.now)

/-- The toast was shown. -/
theorem Lasts.mem_shownIds (h : page.Lasts id due?) (hmirrored : page.Mirrored) :
    id ∈ Event.shownIds page.published := by
  rcases h with ⟨hshown, _⟩ | ⟨hdismissed, _⟩
  · rw [hmirrored.toasts_eq] at hshown
    exact (mem_onScreen_ids.mp hshown).1
  · exact Event.mem_shownIds_of_dismissed hmirrored.lawful hdismissed

/-- A toast is not dismissed while it is shown. -/
theorem Mirrored.mem_ids_iff (h : page.Mirrored) (hshown : id ∈ Event.shownIds page.published) :
    id ∈ page.toasts.map (·.id) ↔ id ∉ page.news Event.dismissed? := by
  rw [h.toasts_eq, mem_onScreen_ids]
  exact ⟨fun hmem => hmem.2, fun hmem => ⟨hshown, hmem⟩⟩

/-- Where the timer of a toast stays as it is, and the toast as well, nothing has come of it. -/
theorem Lasts.of_eq (h : page.Lasts id due?)
    (hids : id ∈ page.toasts.map (·.id) → id ∈ page'.toasts.map (·.id))
    (hdismissed : id ∈ page.news Event.dismissed? → id ∈ page'.news Event.dismissed?)
    (hdeadlines : page'.timers.deadlines (.toast id) = page.timers.deadlines (.toast id))
    (hnow : page.timers.now ≤ page'.timers.now) : page'.Lasts id due? := by
  rcases h with ⟨hshown, htimer⟩ | ⟨hgone, htimer, due, hdue, hpast⟩
  · exact .inl ⟨hids hshown, hdeadlines.trans htimer⟩
  · exact .inr ⟨hdismissed hgone, hdeadlines.trans htimer, due, hdue, Nat.le_trans hpast hnow⟩

/-- What was announced as gone stays so, whatever is published. -/
theorem mem_news_of_publish (event : Event) (h : id ∈ page.news Event.dismissed?) :
    id ∈ (page.publish event).news Event.dismissed? := by
  rw [news_publish]
  exact List.mem_append_left _ h

/-- It stays so when another toast goes. -/
theorem mem_news_of_dismiss (other : Uuid) (h : id ∈ page.news Event.dismissed?) :
    id ∈ (page.dismiss other).2.news Event.dismissed? := by
  rw [dismiss]
  split
  · exact mem_news_of_publish _ h
  · exact h

/-- A toast stays when another goes. -/
theorem mem_ids_of_dismiss {other : Uuid} (hother : id ≠ other)
    (h : id ∈ page.toasts.map (·.id)) : id ∈ (page.dismiss other).2.toasts.map (·.id) := by
  obtain ⟨toast, htoast, rfl⟩ := List.mem_map.mp h
  rw [toasts_dismiss]
  exact List.mem_map_of_mem (List.mem_filter.mpr ⟨htoast, decide_eq_true hother⟩)

/-! ### Changes -/

/-- Another toast is shown. -/
theorem Lasts.display (h : page.Lasts id due?) (hmirrored : page.Mirrored)
    (hcount : page.toastCount < Uuid.size) (message : String) (severity : Toast.Severity)
    (lifetime : Toast.Lifetime) :
    (page.display message severity lifetime).2.Lasts id due? := by
  -- the toast was shown, and the identifier of the other one was not used before
  have hother : id ≠ Uuid.ofNat page.toastCount := by
    intro hsame
    exact hmirrored.next_not_mem hcount (hsame ▸ h.mem_shownIds hmirrored)
  refine h.of_eq ?_ ?_ ?_ ?_
  · intro hmem
    rw [toasts_display, List.map_append]
    exact List.mem_append_left _ hmem
  · intro hmem
    rw [news_eq_of_published_append (published_display page message severity lifetime)]
    exact List.mem_append_left _ hmem
  · cases lifetime with
    | untilRemoved => rfl
    | timed milliseconds => exact Scheduler.deadlines_schedule_of_ne _ (by simpa using hother) _ _
  · exact Nat.le_of_eq (sameRedirects_display page message severity lifetime).now_eq.symm

/-- Another toast is taken off the page. -/
theorem Lasts.remove (h : page.Lasts id due?) {other : Uuid} (hother : id ≠ other) :
    (page.remove other).2.Lasts id due? := by
  refine h.of_eq (fun hmem => mem_ids_of_dismiss hother hmem) (fun hmem => mem_news_of_dismiss _ hmem)
    ?_ (Nat.le_of_eq (sameRedirects_remove page other).now_eq.symm)
  show (Page.dismiss _ other).2.timers.deadlines (.toast id) = _
  rw [timers_dismiss]
  exact Scheduler.deadlines_cancel_of_ne _ (by simpa using hother)

/-- The only timer of the toast ends, and the toast is dismissed. -/
theorem Lasts.fires {timers : Scheduler TimerKey Effect} {due : Nat} (h : page.Lasts id due?)
    (hfired : (page.timers.deadlines (.toast id)).Perm (due :: timers.deadlines (.toast id)))
    (hdue : due ≤ timers.now) :
    (({ page with timers := timers } : Page).dismiss id).2.Lasts id due? := by
  rcases h with ⟨hshown, htimer⟩ | ⟨_, htimer, _⟩
  · have hthere : page.toasts.any fun toast => toast.id = id := by simpa using hshown
    rw [htimer] at hfired
    cases due? with
    | none => exact absurd hfired.symm.eq_nil (by simp)
    | some other =>
      have hcons : due :: timers.deadlines (.toast id) = [other] :=
        List.perm_singleton.mp hfired.symm
      injection hcons with hsame hnone
      refine .inr ⟨?_, ?_, other, rfl, ?_⟩
      · rw [Page.dismiss, if_pos hthere, news_publish]
        exact List.mem_append_right _ List.mem_cons_self
      · rw [timers_dismiss]
        exact hnone
      · rw [timers_dismiss, ← hsame]
        exact hdue
  · rw [htimer] at hfired
    exact absurd hfired.symm.eq_nil (by simp)

/-- The timers take a step: if the timer of the toast is due and ends, the toast is dismissed. -/
theorem Lasts.applyAll {outcome : List Effect × Scheduler TimerKey Effect}
    (h : page.Lasts id due?) (hmatched : page.Matched) (hstep : page.timers.step? = some outcome) :
    (page.applyAll outcome).Lasts id due? := by
  obtain ⟨events, timers⟩ := outcome
  have hlength := hmatched.length_le_one id
  obtain ⟨hnow, _, _⟩ := hmatched.orderly.plain.step?_keeps hmatched.orderly.sorted hstep
  -- a toast has one timer at most, so its deadlines are the same in whatever order
  have hsame (hperm : (page.timers.deadlines (.toast id)).Perm (timers.deadlines (.toast id))) :
      timers.deadlines (.toast id) = page.timers.deadlines (.toast id) := by
    match hdeadlines : page.timers.deadlines (.toast id) with
    | [] => exact (hdeadlines ▸ hperm).symm.eq_nil
    | [due] => exact (List.perm_singleton.mp (hdeadlines ▸ hperm).symm)
    | _ :: _ :: _ => simp [hdeadlines] at hlength
  obtain ⟨rfl, hkept⟩ | ⟨key, due, rfl, hdue, hfired, hothers⟩ :=
    hmatched.orderly.plain.step?_fires TimerKey.effect_injective hstep
  · exact h.of_eq (fun hmem => hmem) (fun hmem => hmem) (hsame (hkept _)) (Nat.le_of_eq hnow.symm)
  · cases key with
    | redirect =>
      exact h.of_eq (fun hmem => hmem) (fun hmem => mem_news_of_publish _ hmem)
        (hsame (hothers _ (by simp))) (Nat.le_of_eq hnow.symm)
    | toast other =>
      show (Page.dismiss { page with timers := timers } other).2.Lasts id due?
      by_cases hother : id = other
      · subst hother
        exact h.fires hfired (hnow ▸ hdue)
      · refine h.of_eq (fun hmem => mem_ids_of_dismiss hother hmem)
          (fun hmem => mem_news_of_dismiss _ hmem) ?_ ?_
        · rw [timers_dismiss]
          exact hsame (hothers _ (by simpa using hother))
        · rw [timers_dismiss]
          exact Nat.le_of_eq hnow.symm

/-- **Toasts last.** A move that does not take a toast off the page leaves it shown with its
timer, or lets its time come. -/
theorem lasts_move (page : Page) (move : Move) (hkeeps : move.takesOff id = false)
    (h : page.toastCount ≤ Uuid.size → page.Matched ∧ page.Lasts id due?) :
    (page.move move).toastCount ≤ Uuid.size →
      (page.move move).Matched ∧ (page.move move).Lasts id due? := by
  refine move_induction (P := fun page => page.toastCount ≤ Uuid.size →
    page.Matched ∧ page.Lasts id due?) move h ?_ ?_ ?_ ?_ ?_ ?_ ?_
  -- another toast is shown
  · intro page message severity lifetime _ h hcount
    rw [toastCount_display] at hcount
    obtain ⟨hmatched, hlasts⟩ := h (by omega)
    exact ⟨hmatched.display (by omega) message severity lifetime,
      hlasts.display hmatched.mirrored (by omega) message severity lifetime⟩
  -- a toast is taken off, which is another one by `hkeeps`
  · intro page other htakes h hcount
    rw [toastCount_remove] at hcount
    obtain ⟨hmatched, hlasts⟩ := h hcount
    have hother : id ≠ other := by
      rintro rfl
      rw [hkeeps] at htakes
      cases htakes
    exact ⟨hmatched.remove other, hlasts.remove hother⟩
  -- the redirect is asked for or cancelled: its key is not that of a toast
  · intro page delay h hcount
    obtain ⟨hmatched, hlasts⟩ := h hcount
    exact ⟨hmatched.redirect delay, hlasts.of_eq (fun hmem => hmem) (fun hmem => hmem)
      (Scheduler.deadlines_schedule_of_ne _ (by simp) _ _)
      (Nat.le_of_eq (Scheduler.schedule_now _ _ _ _).symm)⟩
  · intro page h hcount
    obtain ⟨hmatched, hlasts⟩ := h hcount
    exact ⟨hmatched.cancelRedirect, hlasts.of_eq (fun hmem => hmem) (fun hmem => hmem)
      (Scheduler.deadlines_cancel_of_ne _ (by simp)) (Nat.le_refl _)⟩
  -- a download is told
  · intro page url h hcount
    obtain ⟨hmatched, hlasts⟩ := h hcount
    exact ⟨hmatched.openDownload url, hlasts.of_eq (fun hmem => hmem)
      (fun hmem => mem_news_of_publish _ hmem) rfl (Nat.le_refl _)⟩
  -- the outcomes of tasks are applied, among them the end of this toast
  · intro page outcome h hstep hcount
    rw [toastCount_applyAll] at hcount
    obtain ⟨hmatched, hlasts⟩ := h hcount
    exact ⟨hmatched.applyAll hstep, hlasts.applyAll hmatched hstep⟩
  -- time passes
  · intro page milliseconds h hstep hcount
    obtain ⟨hmatched, hlasts⟩ := h hcount
    exact ⟨hmatched.wait hstep milliseconds, hlasts.of_eq (fun hmem => hmem) (fun hmem => hmem)
      (deadlines_wait (Scheduler.recent_eq_nil hstep) milliseconds (.toast id))
      (Nat.le_add_right _ _)⟩

/-- Moves that do not take a toast off the page leave it shown with its timer, or let its time come. -/
theorem lasts_play {moves : List Move} (hkeeps : ∀ move ∈ moves, move.takesOff id = false)
    (h : page.toastCount ≤ Uuid.size → page.Matched ∧ page.Lasts id due?) :
    (page.play moves).toastCount ≤ Uuid.size →
      (page.play moves).Matched ∧ (page.play moves).Lasts id due? :=
  play_induction (P := fun page => page.toastCount ≤ Uuid.size →
    page.Matched ∧ page.Lasts id due?) moves h fun page move hmove =>
      lasts_move page move (hkeeps move hmove)

/-! ### A toast from its start -/

/-- When a toast is due that is shown from some time on, if it ever is. -/
def dueFrom (start : Nat) : Toast.Lifetime → Option Nat
  | .timed milliseconds => some (start + milliseconds.toNat)
  | .untilRemoved => none

/-- A move that gives an identifier shows a toast under it. -/
theorem move_of_issued {move : Move} (h : page.issued? move = some id) :
    id = Uuid.ofNat page.toastCount ∧ ∃ message severity lifetime,
      move.lifetime? page.setup = some lifetime ∧
        page.move move = (page.display message severity lifetime).2 := by
  cases move with
  | push message severity =>
    exact ⟨(Option.some.inj h).symm.trans (display_fst _ _ _ _), message, severity, _, rfl, rfl⟩
  | pushPrompt message severity =>
    exact ⟨(Option.some.inj h).symm.trans (display_fst _ _ _ _), message, severity, _, rfl, rfl⟩
  | pushPersistent message severity =>
    exact ⟨(Option.some.inj h).symm.trans (display_fst _ _ _ _), message, severity, _, rfl, rfl⟩
  | _ => cases h

/-- A toast that has just been shown is due after its lifetime. -/
theorem Matched.lasts_display (h : page.Matched) (hcount : page.toastCount < Uuid.size)
    (message : String) (severity : Toast.Severity) (lifetime : Toast.Lifetime) :
    (page.display message severity lifetime).2.Lasts (Uuid.ofNat page.toastCount)
      (dueFrom page.timers.now lifetime) := by
  have hfree := h.deadlines_eq_nil (h.mirrored.next_not_mem_ids hcount)
  refine .inl ⟨?_, ?_⟩
  · rw [toasts_display, List.map_append]
    exact List.mem_append_right _ List.mem_cons_self
  · cases lifetime with
    | untilRemoved => exact hfree
    | timed milliseconds => exact Scheduler.deadlines_schedule hfree _ _

/-- No move changes the setup of a page. -/
theorem setup_move (page : Page) (move : Move) : (page.move move).setup = page.setup := by
  refine move_induction (P := fun other => other.setup = page.setup) move rfl ?_ ?_ ?_ ?_ ?_ ?_ ?_
  · exact fun other message severity lifetime _ h =>
      (sameRedirects_display other message severity lifetime).setup_eq.trans h
  · exact fun other id _ h => (sameRedirects_remove other id).setup_eq.trans h
  · exact fun other delay h => h
  · exact fun other h => h
  · exact fun other url h => h
  · exact fun other outcome h _ => (published_foldl_apply _ _).2.1.trans h
  · exact fun other milliseconds h _ => h

/-- Nor do many. -/
theorem setup_play (page : Page) (moves : List Move) : (page.play moves).setup = page.setup :=
  play_induction (P := fun other => other.setup = page.setup) moves rfl
    fun other move _ h => (setup_move other move).trans h

/-- After any moves each toast that is shown for a time has one timer, and no other has one. -/
theorem matched_play (setup : Setup) (moves : List Move)
    (hcount : ((initial setup).play moves).toastCount ≤ Uuid.size) :
    ((initial setup).play moves).Matched :=
  play_induction (P := fun page => page.toastCount ≤ Uuid.size → page.Matched) moves
    (fun _ => matched_initial setup) (fun page move _ h => matched_move page move h) hcount

/-- A toast that was shown, and was not taken off the page since. -/
theorem lasts_after {setup : Setup} {before after : List Move} {move : Move}
    {lifetime : Toast.Lifetime}
    (hissued : ((initial setup).play before).issued? move = some id)
    (hlifetime : move.lifetime? setup = some lifetime)
    (hkeeps : ∀ other ∈ after, other.takesOff id = false)
    (hcount : ((initial setup).play (before ++ move :: after)).toastCount ≤ Uuid.size) :
    ((initial setup).play (before ++ move :: after)).Lasts id
      (dueFrom ((initial setup).play before).timers.now lifetime) := by
  obtain ⟨rfl, message, severity, shown, hshown, hmove⟩ := move_of_issued hissued
  rw [setup_play] at hshown
  obtain rfl : lifetime = shown := Option.some.inj (hlifetime.symm.trans hshown)
  have hsplit : (initial setup).play (before ++ move :: after) =
      (((initial setup).play before).move move).play after := play_append _ before _
  rw [hsplit] at hcount ⊢
  refine (lasts_play hkeeps (fun hstart => ?_) hcount).2
  rw [hmove, toastCount_display] at hstart
  have hbefore := matched_play setup before (by omega)
  rw [hmove]
  exact ⟨hbefore.display (by omega) message severity lifetime,
    hbefore.lasts_display (by omega) message severity lifetime⟩

/-- Time passes as much as a move says. -/
theorem Orderly.advance (h : page.Orderly) (milliseconds : Nat) :
    (page.move (.advance milliseconds)).timers.now = page.timers.now + milliseconds := by
  obtain ⟨horderly, hnow⟩ := h.settle
  have hlater := (horderly.wait milliseconds).settle.2
  show (page.settle.wait milliseconds).settle.timers.now = _
  rw [hlater, ← hnow]
  rfl

/-- Before its time, if there is one, a toast is shown. -/
theorem Lasts.shown (h : page.Lasts id due?) (hmirrored : page.Mirrored)
    (hearly : ∀ due ∈ due?, page.timers.now < due) :
    id ∈ page.toasts.map (·.id) ∧ id ∉ page.news Event.dismissed? := by
  have hshown := h.mem_shownIds hmirrored
  rcases h with ⟨hthere, _⟩ | ⟨_, _, due, hdue, hpast⟩
  · exact ⟨hthere, (hmirrored.mem_ids_iff hshown).mp hthere⟩
  · exact absurd hpast (Nat.not_le_of_lt (hearly due hdue))

/-- Once the time of a toast has come and the timers have done what is due, it is dismissed. -/
theorem Lasts.dismissed {due milliseconds : Nat}
    (h : (page.move (.advance milliseconds)).Lasts id (some due))
    (hmatched : (page.move (.advance milliseconds)).Matched) (horderly : page.Orderly)
    (hdue : due ≤ page.timers.now + milliseconds) :
    id ∉ (page.move (.advance milliseconds)).toasts.map (·.id) ∧
      id ∈ (page.move (.advance milliseconds)).news Event.dismissed? := by
  have hshown := h.mem_shownIds hmatched.mirrored
  rcases h with ⟨_, htimer⟩ | ⟨hdismissed, _⟩
  · -- after all steps a timer that waits is still to come
    have hlater := hmatched.orderly.sorted.lt_of_mem_deadlines
      (step?_settle (page.settle.wait milliseconds)) (.toast id) due (htimer ▸ List.mem_cons_self)
    have hnow := horderly.advance milliseconds
    omega
  · exact ⟨fun hthere => (hmatched.mirrored.mem_ids_iff hshown).mp hthere hdismissed, hdismissed⟩

/-- **Timers match toasts.** On a page that shares its timers with redirects, whatever toasts are shown
and removed and whatever the timers do down to their single steps: the timers of toasts that wait are
one for each toast that is shown for a time, and none for any other.  A toast that is not removed
before is shown until its time has come, and is dismissed when the clock first reaches that time; one
without a time is shown until it is removed.  And to clear a page leaves no toast, no timer of a toast,
and the timer of the redirect as it was.  There are to be no more toasts than identifiers. -/
theorem timers_match_toasts (setup : Setup) (moves : List Move)
    (hids : ((initial setup).play moves).toastCount ≤ Uuid.size) :
    let page := (initial setup).play moves
    ((page.timers.pendingKeys.filterMap TimerKey.toast?).Perm (timedIds page.toasts) ∧
      (timedIds page.toasts).Nodup ∧
      ∀ toast ∈ page.toasts, toast.lifetime = .untilRemoved →
        page.timers.isPending (.toast toast.id) = false) ∧
    (∀ before move after id, moves = before ++ move :: after →
      ((initial setup).play before).issued? move = some id →
      (∀ other ∈ after, other.takesOff id = false) →
      (∀ lifetime : UInt64, move.lifetime? setup = some (.timed lifetime) →
        let due := ((initial setup).play before).timers.now + lifetime.toNat
        (page.timers.now < due →
          id ∈ page.toasts.map (·.id) ∧ id ∉ page.news Event.dismissed?) ∧
        ∀ milliseconds, due ≤ page.timers.now + milliseconds →
          let later := page.move (.advance milliseconds)
          id ∉ later.toasts.map (·.id) ∧ id ∈ later.news Event.dismissed?) ∧
      (move.lifetime? setup = some .untilRemoved →
        id ∈ page.toasts.map (·.id) ∧ id ∉ page.news Event.dismissed?)) ∧
    (page.clear.toasts = [] ∧
      page.clear.timers = ⟨page.timers.now,
        page.timers.timers.filter fun timer => timer.key = some .redirect,
        page.timers.recent.filter fun task => task.key = .redirect⟩) := by
  intro page
  have hmatched : page.Matched := matched_play setup moves hids
  have hnodup := hmatched.mirrored.ids_nodup
  refine ⟨⟨hmatched.pendingKeys_perm, (List.filter_sublist.map _).nodup hnodup, ?_⟩, ?_,
    hmatched.clear⟩
  · intro toast htoast hlifetime
    refine Scheduler.isPending_of_deadlines_eq_nil (List.eq_nil_of_length_eq_zero ?_)
    rw [hmatched.matched, List.count_eq_zero]
    intro hmem
    obtain ⟨other, hother, hid⟩ := List.mem_map.mp hmem
    obtain ⟨hother, htimed⟩ := List.mem_filter.mp hother
    rw [List.inj_on_of_nodup_map hnodup hother htoast hid, hlifetime] at htimed
    cases htimed
  · rintro before move after id rfl hissued hkeeps
    refine ⟨fun lifetime hlifetime => ?_, fun hlifetime => ?_⟩
    · intro due
      have hlasts : page.Lasts id (some due) := lasts_after hissued hlifetime hkeeps hids
      refine ⟨fun hearly => ?_, fun milliseconds hdue => ?_⟩
      · refine hlasts.shown hmatched.mirrored ?_
        rintro _ ⟨⟩
        exact hearly
      · -- the clock moves, and no toast is taken off the page meanwhile
        have hcount := toastCount_advance page milliseconds
        obtain ⟨hmatched', hlasts'⟩ := lasts_move page (.advance milliseconds) rfl
          (fun _ => ⟨hmatched, hlasts⟩) (hcount ▸ hids)
        exact hlasts'.dismissed hmatched' hmatched.orderly hdue
    · have hlasts : page.Lasts id none := lasts_after hissued hlifetime hkeeps hids
      exact hlasts.shown hmatched.mirrored (by rintro _ ⟨⟩)

/-- A toast is shown while a redirect and a toast without a time wait; it is there one millisecond
before its time, and not at it. -/
theorem timers_match_toasts_of_redirect :
    let start := initial ⟨"/create.html", 4000, 8000, 16⟩
    let moves := [Move.redirect 5000, .pushPersistent "Uploading" .info, .push "Saved" .success,
      .advance 3999]
    let page := start.play moves
    page.toastCount ≤ Uuid.size ∧
    Uuid.ofNat 1 ∈ page.toasts.map (·.id) ∧
    Uuid.ofNat 1 ∈ (page.move (.advance 1)).news Event.dismissed? ∧
    page.clear.timers.pendingKeys = [.redirect] := by
  intro start moves page
  have hcount : page.toastCount ≤ Uuid.size := by decide +kernel
  obtain ⟨_, htoast, _, hclear⟩ := timers_match_toasts ⟨"/create.html", 4000, 8000, 16⟩ moves hcount
  obtain ⟨hlasts, _⟩ := htoast [Move.redirect 5000, .pushPersistent "Uploading" .info]
    (.push "Saved" .success) [.advance 3999] (Uuid.ofNat 1) rfl rfl (by simp [Move.takesOff])
  obtain ⟨hearly, hlate⟩ := hlasts 4000 rfl
  refine ⟨hcount, (hearly (by decide +kernel)).1, (hlate 1 (by decide +kernel)).2, ?_⟩
  rw [hclear]
  decide +kernel

end DropRoom.Page
