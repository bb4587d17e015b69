import DropRoom.Proofs.Api.Actions
import DropRoom.Proofs.Room.Run

namespace DropRoom

/-!
# Departures from a room

The end of the room, commands that succeed or tell that the room is gone, and the user can all ask
for the page to be left.  One redirect waits at a time, and whatever asks for one meanwhile is
refused; but once it has been announced, the next departure is accepted again.

* `Page.Accounted` — every redirect that was accepted was announced or waits;
* `Page.Awaits` — a redirect is announced when it is due;
* `Visit.Move`, `Visit.move`, `Visit.play` — one thing that can happen to a visit, and many in order;
* `Visit.perform_eq_play` — a command is such a sequence;
* `Visit.Move.departure?` — the delay after which a move asks for the page to be left;
* `Visit.Turn`, `Visit.turn_move` — all that a move can do as far as redirects go;
* `Visit.departures` — how many departures are accepted;
* `Visit.redirects_by_departures` — how many redirects are announced, and when.
-/

namespace Page

/-- As many redirects have been accepted as were announced or wait, of which there is one at most,
and all lead to the page where rooms are made. -/
structure Accounted (setup : Setup) (accepted : Nat) (page : Page) : Prop where
  setup_eq : page.setup = setup
  orderly : page.Orderly
  locations : ∀ location ∈ page.news Event.redirectLocation?, location = setup.createPage
  total : (page.news Event.redirectLocation?).length +
    (page.timers.deadlines .redirect).length = accepted
  single : (page.timers.deadlines .redirect).length ≤ 1

/-- A redirect is due at a time, and `earlier` were announced before it: it waits, or it was due and
has been announced. -/
structure Awaits (earlier : List String) (due : Nat) (page : Page) : Prop where
  orderly : page.Orderly
  waits_or_announced :
    (page.news Event.redirectLocation? = earlier ∧ page.timers.deadlines .redirect = [due]) ∨
    (earlier.length < (page.news Event.redirectLocation?).length ∧ due ≤ page.timers.now)

variable {setup : Setup} {accepted due : Nat} {earlier : List String} {page page' : Page}

/-- A page that shows nothing has accepted no redirect. -/
theorem initial_accounted (setup : Setup) : (initial setup).Accounted setup 0 := by
  have hnone : (initial setup).news Event.redirectLocation? = [] := rfl
  exact ⟨rfl, initial_orderly setup, by simp [hnone], rfl, Nat.zero_le 1⟩

/-! ### What has nothing to do with redirects -/

/-- What leaves redirects alone leaves the account of them. -/
theorem Accounted.same (h : page.Accounted setup accepted) (hsame : page.SameRedirects page') :
    page'.Accounted setup accepted :=
  ⟨hsame.setup_eq.trans h.setup_eq, hsame.orderly h.orderly, hsame.news_eq ▸ h.locations,
    hsame.news_eq ▸ hsame.deadlines_eq ▸ h.total, hsame.deadlines_eq ▸ h.single⟩

/-- It leaves what is awaited, too. -/
theorem Awaits.same (h : page.Awaits earlier due) (hsame : page.SameRedirects page') :
    page'.Awaits earlier due := by
  refine ⟨hsame.orderly h.orderly, ?_⟩
  rw [hsame.news_eq, hsame.deadlines_eq, hsame.now_eq]
  exact h.waits_or_announced

/-! ### Timers -/

/-- At most one redirect waits. -/
theorem Accounted.deadlines_cases (h : page.Accounted setup accepted) :
    page.timers.deadlines .redirect = [] ∨ ∃ due, page.timers.deadlines .redirect = [due] := by
  match hdeadlines : page.timers.deadlines .redirect with
  | [] => exact .inl rfl
  | [due] => exact .inr ⟨due, rfl⟩
  | _ :: _ :: _ =>
    have := h.single
    rw [hdeadlines] at this
    simp at this

/-- One redirect is pending exactly if there is a deadline for it. -/
theorem Accounted.pending_eq (h : page.Accounted setup accepted) :
    (if page.redirectPending then 1 else 0) = (page.timers.deadlines .redirect).length := by
  rcases h.deadlines_cases with hnone | ⟨due, hone⟩
  · have hfree : page.redirectPending = false := Scheduler.isPending_of_deadlines_eq_nil hnone
    rw [hfree, hnone]
    rfl
  · rw [redirectPending_iff.mpr (by simp [hone]), hone]
    rfl

/-- The account holds when a page settles. -/
theorem Accounted.settle (h : page.Accounted setup accepted) :
    page.settle.Accounted setup accepted := by
  have hsetup : page.settle.setup = setup := (setup_settle page).trans h.setup_eq
  rcases h.deadlines_cases with hnone | ⟨due, hone⟩
  · obtain ⟨hnews, hdeadlines⟩ := redirects_settle_of_none h.orderly hnone
    refine ⟨hsetup, h.orderly.settle.1, hnews ▸ h.locations, ?_, ?_⟩
    · rw [hnews, hdeadlines, ← hnone]
      exact h.total
    · rw [hdeadlines]
      exact Nat.zero_le 1
  · have htotal := h.total
    rw [hone] at htotal
    by_cases hdue : due ≤ page.timers.now
    · -- the redirect that waited is now one that was announced
      obtain ⟨hnews, hdeadlines⟩ := redirects_settle_of_due h.orderly hone hdue
      refine ⟨hsetup, h.orderly.settle.1, fun location hmem => ?_, ?_, ?_⟩
      · rw [hnews, List.mem_append, List.mem_singleton, h.setup_eq] at hmem
        exact hmem.elim (h.locations location) id
      · rw [hnews, hdeadlines, List.length_append]
        exact htotal
      · rw [hdeadlines]
        exact Nat.zero_le 1
    · obtain ⟨hnews, hdeadlines⟩ :=
        redirects_settle_of_early h.orderly hone (Nat.lt_of_not_le hdue)
      refine ⟨hsetup, h.orderly.settle.1, hnews ▸ h.locations, ?_, ?_⟩
      · rw [hnews, hdeadlines]
        exact htotal
      · rw [hdeadlines]
        exact Nat.le_refl 1

/-- So does what is awaited. -/
theorem Awaits.settle (h : page.Awaits earlier due) : page.settle.Awaits earlier due := by
  obtain ⟨horderly, hnow⟩ := h.orderly.settle
  refine ⟨horderly, ?_⟩
  rw [hnow]
  rcases h.waits_or_announced with ⟨hnews, hone⟩ | ⟨hmore, hdue⟩
  · by_cases hdue : due ≤ page.timers.now
    · refine .inr ⟨?_, hdue⟩
      rw [(redirects_settle_of_due h.orderly hone hdue).1, hnews, List.length_append]
      exact Nat.lt_succ_self _
    · have hearly := redirects_settle_of_early h.orderly hone (Nat.lt_of_not_le hdue)
      exact .inl ⟨hearly.1.trans hnews, hearly.2⟩
  · refine .inr ⟨?_, hdue⟩
    rw [(redirects_settle h.orderly).1, List.length_append]
    omega

/-- The account holds while time passes. -/
theorem Accounted.wait (h : page.Accounted setup accepted) (hrecent : page.timers.recent = [])
    (milliseconds : Nat) : (page.wait milliseconds).Accounted setup accepted := by
  have hdeadlines := deadlines_wait hrecent milliseconds .redirect
  exact ⟨h.setup_eq, h.orderly.wait milliseconds, h.locations, hdeadlines ▸ h.total,
    hdeadlines ▸ h.single⟩

/-- So does what is awaited. -/
theorem Awaits.wait (h : page.Awaits earlier due) (hrecent : page.timers.recent = [])
    (milliseconds : Nat) : (page.wait milliseconds).Awaits earlier due := by
  refine ⟨h.orderly.wait milliseconds, ?_⟩
  rw [deadlines_wait hrecent]
  exact h.waits_or_announced.imp_right fun ⟨hmore, hdue⟩ => ⟨hmore, Nat.le_trans hdue (Nat.le_add_right _ _)⟩

/-- Before a redirect is due, none is announced after the earlier ones. -/
theorem Awaits.redirects_eq (h : page.Awaits earlier due) (hnow : page.timers.now < due) :
    page.news Event.redirectLocation? = earlier := by
  rcases h.waits_or_announced with ⟨hnews, _⟩ | ⟨_, hdue⟩
  · exact hnews
  · omega

/-- Once a redirect is due, `settle` has it announced. -/
theorem Awaits.lt_redirects_settle (h : page.Awaits earlier due) (hnow : due ≤ page.timers.now) :
    earlier.length < (page.settle.news Event.redirectLocation?).length := by
  rcases h.settle.waits_or_announced with ⟨_, hone⟩ | ⟨hmore, _⟩
  · have := h.orderly.lt_of_mem_settle (hone ▸ List.mem_singleton_self due)
    omega
  · exact hmore

/-! ### Another redirect -/

/-- A redirect is accepted if none waits. -/
theorem Accounted.redirect (h : page.Accounted setup accepted) (delay : Nat) :
    (page.redirect delay).2.Accounted setup
      (accepted + if page.redirectPending then 0 else 1) := by
  rcases h.deadlines_cases with hnone | ⟨due, hone⟩
  · have hfree : page.redirectPending = false := Scheduler.isPending_of_deadlines_eq_nil hnone
    have htotal := h.total
    have hdeadlines := deadlines_redirect hnone delay
    rw [hnone] at htotal
    rw [hfree]
    refine ⟨h.setup_eq, h.orderly.redirect delay, h.locations, ?_, ?_⟩
    · rw [news_redirect, hdeadlines, ← htotal]
      rfl
    · rw [hdeadlines]
      exact Nat.le_refl 1
  · have hwaits : page.timers.deadlines .redirect ≠ [] := by simp [hone]
    rw [redirect_of_pending hwaits, redirectPending_iff.mpr hwaits]
    exact h

/-- Another redirect does not put off the one that waits. -/
theorem Awaits.redirect (h : page.Awaits earlier due) (delay : Nat) :
    (page.redirect delay).2.Awaits earlier due := by
  rcases h.waits_or_announced with ⟨_, hone⟩ | hannounced
  · rw [redirect_of_pending (by simp [hone])]
    exact h
  · refine ⟨h.orderly.redirect delay, .inr ?_⟩
    rw [news_redirect, now_redirect]
    exact hannounced

end Page

namespace Room

/-! ### Moves -/

/-- One thing that can happen to a visit. -/
inductive Visit.Move where
  /-- Something comes from the stream, or time passes. -/
  | stream (step : Visit.Step)
  /-- A command that is under way does something to the page. -/
  | page (operation : Page.Operation)
  /-- A command has come to its end. -/
  | outcome (result : Except Api.RequestError CommandEffect)
  /-- The user leaves the room. -/
  | exitRoom

namespace Visit

/-- What a visit is after a move. -/
def move (v : Visit) : Move → Visit
  | .stream step => v.step step
  | .page operation => { v with page := v.page.operate operation }
  | .outcome result => if endsVisit result then v.exitRoom else v
  | .exitRoom => v.exitRoom

/-- What a visit is after moves in order. -/
def play (v : Visit) (moves : List Move) : Visit :=
  moves.foldl move v

/-- Moves are made one after another. -/
theorem play_append (v : Visit) (before after : List Move) :
    v.play (before ++ after) = (v.play before).play after :=
  List.foldl_append

/-- Operations on the page are moves that change the page alone. -/
theorem play_operations (v : Visit) (operations : List Page.Operation) :
    v.play (operations.map .page) = { v with page := operations.foldl Page.operate v.page } := by
  induction operations generalizing v with
  | nil => rfl
  | cons operation operations ih => exact ih (v.move (.page operation))

/-- **Commands.** To perform a command is to do something to the page and to take up its outcome. -/
theorem perform_eq_play [File.MediaTypes] (v : Visit) (server : Api.Server) (base : Url)
    (command : Command) :
    ∃ operations : List Page.Operation, (v.perform server base command).2 =
      v.play (operations.map .page ++ [.outcome (v.perform server base command).1]) := by
  obtain ⟨operations, hpage⟩ := command.operated_execute server base v.page
  refine ⟨operations, ?_⟩
  rw [play_append, play_operations, ← hpage]
  rfl

/-! ### Moves that ask for the page to be left -/

/-- The delay after which a move asks for the page to be left, if it does. -/
def Move.departure? (v : Visit) : Move → Option Nat
  | .stream step =>
    if v.feed.terminated = false ∧ step.ends = true then some v.redirectDelay.toNat else none
  | .page _ => none
  | .outcome result => if endsVisit result then some v.actionRedirectDelay.toNat else none
  | .exitRoom => some v.actionRedirectDelay.toNat

/-- What a move can do to a page as far as redirects go, given the delay after which it asks for the
page to be left. -/
inductive Turn (page : Page) : Option Nat → Page → Prop where
  | keep {page' : Page} (h : page.SameRedirects page') : Turn page none page'
  | time {page' : Page} (h : PageStep page page') : Turn page none page'
  | leave {page' : Page} (h : page.SameRedirects page') (delay : Nat) :
    Turn page (some delay) (page'.redirect delay).2

/-- A page may be left after anything that does not concern redirects. -/
theorem Turn.after {page page' page'' : Page} {delay : Nat} (h : Turn page' (some delay) page'')
    (hsame : page.SameRedirects page') : Turn page (some delay) page'' := by
  cases h with
  | leave h => exact .leave (hsame.trans h) delay

/-- The end of the room asks for the page to be left, after the delay for it. -/
theorem turn_terminate {v : Visit} (h : v.feed.terminated = false) (message reason : String) :
    Turn v.page (some v.redirectDelay.toNat) (v.terminate message reason).page := by
  rw [terminate, if_neg (Bool.eq_false_iff.mp h)]
  exact .leave ((Page.sameRedirects_notify _ _ _).trans (Page.sameRedirects_publish _ rfl)) _

/-- News that are the last ones ask for the page to be left. -/
theorem turn_hear {v : Visit} (h : v.feed.terminated = false) (news : RoomNews) :
    Turn v.page (if news.isLast then some v.redirectDelay.toNat else none) (v.hear news).page := by
  cases news with
  | closed reason => exact turn_terminate h _ _
  | snapshot s =>
    have hshow : v.page.SameRedirects (v.showSnapshot s).page :=
      Page.sameRedirects_publish v.page rfl
    rw [hear, takeSnapshot, RoomNews.isLast]
    cases s.isExpired with
    | true => exact (turn_terminate (v := v.showSnapshot s) h _ _).after hshow
    | false =>
      cases s.notification with
      | none => exact .keep hshow
      | some message => exact .keep (hshow.trans (Page.sameRedirects_notify _ _ _))

/-- **What a move can do.** It leaves the redirects alone, lets time pass, or asks for the page to be
left. -/
theorem turn_move (v : Visit) (move : Move) : Turn v.page (move.departure? v) (v.move move).page := by
  cases move with
  | page operation => exact .keep (Page.sameRedirects_operate _ _)
  | exitRoom => exact .leave (.refl _) _
  | outcome result =>
    rw [Visit.move, Move.departure?]
    split
    · exact .leave (.refl _) _
    · exact .keep (.refl _)
  | stream step =>
    show Turn v.page _ (v.step step).page
    rw [Move.departure?]
    -- a stream asks for the page to be left only by the last news of a stream that is not over
    cases hnews : step.news? with
    | none =>
      have hends : step.ends = false := by rw [Step.ends, hnews]; rfl
      rw [hends, if_neg (by simp)]
      exact .time (unheard_step hnews).page
    | some news =>
      have hends : step.ends = news.isLast := by rw [Step.ends, hnews]; rfl
      rw [step_of_news hnews, hends]
      cases hover : v.feed.terminated with
      | true =>
        rw [if_pos rfl, if_neg (by simp)]
        exact .keep (.refl _)
      | false =>
        simpa using turn_hear hover news

/-! ### Many moves -/

variable {setup : Page.Setup} {accepted due : Nat} {earlier : List String} {page page' : Page}

/-- A step of the page keeps the account. -/
theorem PageStep.accounted (step : PageStep page page') (h : page.Accounted setup accepted) :
    page'.Accounted setup accepted :=
  step.induction (fun h => h.settle) (fun h hrecent => h.wait hrecent) h

/-- It keeps what is awaited. -/
theorem PageStep.awaits (step : PageStep page page') (h : page.Awaits earlier due) :
    page'.Awaits earlier due :=
  step.induction (fun h => h.settle) (fun h hrecent => h.wait hrecent) h

/-- Whether a move asks for the page to be left, and no redirect is pending. -/
def accepts (v : Visit) (move : Move) : Bool :=
  (move.departure? v).isSome && !v.page.redirectPending

/-- How many of the departures that moves ask for are accepted. -/
def departures (v : Visit) : List Move → Nat
  | [] => 0
  | move :: moves => (if v.accepts move then 1 else 0) + (v.move move).departures moves

/-- A departure is counted where no other is pending. -/
theorem Turn.accounted {delay? : Option Nat} (h : Turn page delay? page')
    (hpage : page.Accounted setup accepted) :
    page'.Accounted setup
      (accepted + if delay?.isSome && !page.redirectPending then 1 else 0) := by
  cases h with
  | keep hsame => exact hpage.same hsame
  | time hstep => exact hstep.accounted hpage
  | @leave page'' hsame delay =>
    have hpending : page''.redirectPending = page.redirectPending := by
      rw [Bool.eq_iff_iff, Page.redirectPending_iff, Page.redirectPending_iff, hsame.deadlines_eq]
    have hredirect := (hpage.same hsame).redirect delay
    rw [hpending] at hredirect
    cases hfree : page.redirectPending <;> simpa [hfree] using hredirect

/-- What is awaited stays so, whatever else is asked for. -/
theorem Turn.awaits {delay? : Option Nat} (h : Turn page delay? page')
    (hpage : page.Awaits earlier due) : page'.Awaits earlier due := by
  cases h with
  | keep hsame => exact hpage.same hsame
  | time hstep => exact hstep.awaits hpage
  | leave hsame delay => exact (hpage.same hsame).redirect delay

/-- An accepted departure is due after its delay. -/
theorem Turn.awaits_of_free {delay : Nat} (h : Turn page (some delay) page')
    (horderly : page.Orderly) (hfree : page.redirectPending = false) :
    page'.Awaits (page.news Event.redirectLocation?) (page.timers.now + delay) := by
  cases h with
  | @leave page'' hsame _ =>
    have hnone : page''.timers.deadlines .redirect = [] := by
      rw [hsame.deadlines_eq]
      exact Page.deadlines_eq_nil_of_not_pending hfree
    refine ⟨(hsame.orderly horderly).redirect delay, .inl ⟨?_, ?_⟩⟩
    · rw [Page.news_redirect, hsame.news_eq]
    · rw [Page.deadlines_redirect hnone, hsame.now_eq]

/-- The account holds after any moves. -/
theorem accounted_play (moves : List Move) {v : Visit} (h : v.page.Accounted setup accepted) :
    (v.play moves).page.Accounted setup (accepted + v.departures moves) := by
  induction moves generalizing v accepted with
  | nil => exact h
  | cons move moves ih =>
    have := ih ((turn_move v move).accounted h)
    rwa [Nat.add_assoc] at this

/-- So does what is awaited. -/
theorem awaits_play (moves : List Move) {v : Visit} (h : v.page.Awaits earlier due) :
    (v.play moves).page.Awaits earlier due := by
  induction moves generalizing v with
  | nil => exact h
  | cons move moves ih => exact ih ((turn_move v move).awaits h)

/-- Where nothing asks for the page to be left once a redirect was announced, one departure at most
is accepted. -/
theorem departures_le_one (moves : List Move) {v : Visit} (h : v.page.Accounted setup accepted)
    (haccepted : accepted ≤ 1)
    (hquiet : ∀ before move after, moves = before ++ move :: after →
      (v.play before).page.news Event.redirectLocation? ≠ [] →
      move.departure? (v.play before) = none) :
    accepted + v.departures moves ≤ 1 := by
  induction moves generalizing v accepted with
  | nil => exact haccepted
  | cons move moves ih =>
    have hnext : (accepted + if v.accepts move then 1 else 0) ≤ 1 := by
      split
      · rename_i haccepts
        obtain ⟨hasks, hfree⟩ := Bool.and_eq_true_iff.mp haccepts
        -- all that were accepted before were announced, so there was none
        have htotal := h.total
        rw [Page.deadlines_eq_nil_of_not_pending (by simpa using hfree)] at htotal
        by_cases hnone : v.page.news Event.redirectLocation? = []
        · rw [hnone] at htotal
          simp only [List.length_nil] at htotal
          omega
        · have hasksNot : move.departure? v = none := hquiet [] move moves rfl hnone
          rw [hasksNot] at hasks
          cases hasks
      · exact haccepted
    have := ih ((turn_move v move).accounted h) hnext fun before later after hmoves =>
      hquiet (move :: before) later after (by rw [hmoves, List.cons_append])
    rwa [Nat.add_assoc] at this

/-- **One redirect for each departure.** Whatever happens to a visit, in any order, there are as many
redirects, announced or pending, as departures that were accepted: those that were asked for while
no redirect was pending.  All lead to the page where rooms are made, and each is announced when its
delay has passed, and not before.  So there is one at most as long as nothing asks for the page to be
left once a redirect was announced. -/
theorem redirects_by_departures (setup : Page.Setup) (url : Url) (username : Option String)
    (delay actionDelay : UInt64) (moves : List Move) :
    let start := initial setup url username delay actionDelay
    let v := start.play moves
    let redirects := v.page.news Event.redirectLocation?
    (∀ location ∈ redirects, location = setup.createPage) ∧
    redirects.length + (if v.page.redirectPending then 1 else 0) = start.departures moves ∧
    ((∀ before move after, moves = before ++ move :: after →
      (start.play before).page.news Event.redirectLocation? ≠ [] →
      move.departure? (start.play before) = none) → redirects.length ≤ 1) ∧
    (∀ before move after departureDelay, moves = before ++ move :: after →
      move.departure? (start.play before) = some departureDelay →
      (start.play before).page.redirectPending = false →
      let earlier := (start.play before).page.news Event.redirectLocation?
      let due := (start.play before).page.timers.now + departureDelay
      (v.page.timers.now < due → redirects = earlier) ∧
      (due ≤ v.page.timers.now →
        earlier.length < (v.settle.page.news Event.redirectLocation?).length)) := by
  intro start v redirects
  have hstart : start.page.Accounted setup 0 := Page.initial_accounted setup
  have hplay : v.page.Accounted setup (start.departures moves) := by
    have := accounted_play moves hstart
    rwa [Nat.zero_add] at this
  refine ⟨hplay.locations, ?_, fun hquiet => ?_, ?_⟩
  · rw [← hplay.total, Nat.add_left_cancel_iff]
    exact hplay.pending_eq
  · have hone := departures_le_one moves hstart (Nat.zero_le 1) hquiet
    have htotal : redirects.length + _ = start.departures moves := hplay.total
    omega
  · rintro before move after departureDelay rfl hasks hfree earlier due
    have hturn := turn_move (start.play before) move
    rw [hasks] at hturn
    have hbefore := accounted_play before hstart
    have hawaits := awaits_play after (hturn.awaits_of_free hbefore.orderly hfree)
    have hrun : v = ((start.play before).move move).play after := play_append start before _
    rw [← hrun] at hawaits
    exact ⟨hawaits.redirects_eq, hawaits.lt_redirects_settle⟩

/-- A user who leaves the room while the redirect of its end waits is sent away once, and one who
leaves when it was announced is sent away once more. -/
theorem redirects_by_departures_of_exit :
    let start := initial ⟨"/create.html", 4000, 8000, 16⟩
      ⟨"http", "", "", none, none, .segments ["rooms"], none, none⟩ none 1000 500
    let closed := Move.stream (.signal (.closed "gone"))
    let early := start.play [closed, .exitRoom, .stream (.advance 1000)]
    let late := start.play [closed, .stream (.advance 1000), .exitRoom, .stream (.advance 500)]
    (early.page.news Event.redirectLocation?).length ≤ 1 ∧
    1 < (late.settle.page.news Event.redirectLocation?).length := by
  intro start closed early late
  constructor
  · obtain ⟨_, _, hone, _⟩ := redirects_by_departures ⟨"/create.html", 4000, 8000, 16⟩
      ⟨"http", "", "", none, none, .segments ["rooms"], none, none⟩ none 1000 500
      [closed, .exitRoom, .stream (.advance 1000)]
    refine hone fun before move after hmoves hnews => absurd ?_ hnews
    -- the redirect is announced by the last move
    match before, hmoves with
    | [], _ => rfl
    | [_], hmoves =>
      cases hmoves
      decide +kernel
    | [_, _], hmoves =>
      cases hmoves
      decide +kernel
    | _ :: _ :: _ :: _, hmoves => simp at hmoves
  · let before := [closed, .stream (.advance 1000)]
    have hnews : (start.play before).page.news Event.redirectLocation? = ["/create.html"] := by
      decide +kernel
    have hfree : (start.play before).page.redirectPending = false := by decide +kernel
    have hasks : Move.exitRoom.departure? (start.play before) = some 500 := by decide +kernel
    obtain ⟨_, _, _, hdeparture⟩ := redirects_by_departures ⟨"/create.html", 4000, 8000, 16⟩
      ⟨"http", "", "", none, none, .segments ["rooms"], none, none⟩ none 1000 500
      (before ++ .exitRoom :: [.stream (.advance 500)])
    have hlate : ((start.play before).page.news Event.redirectLocation?).length <
        (late.settle.page.news Event.redirectLocation?).length :=
      (hdeparture before .exitRoom [.stream (.advance 500)] 500 rfl hasks hfree).2
        (by decide +kernel)
    rw [hnews] at hlate
    exact hlate

end Visit

end Room

end DropRoom
