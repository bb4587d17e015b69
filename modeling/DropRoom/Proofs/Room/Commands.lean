import DropRoom.Proofs.Api.Actions
import DropRoom.Proofs.Api.Requests

namespace DropRoom.Room

/-!
# Commands that leave the room

A command is one exchange with the server, or none, and what is shown of its result.  The room page
is over after it if the user asked to leave and the server agreed, or if the server answered that the
room is gone; nothing else that the server may say touches the stream or the redirect.

* `Command.request?` — the request that a command sends;
* `Command.execute_eq` — a command is the exchange of that request, and what is shown of it;
* `Command.execute_eq_exitRoom` — which commands end with the user out of the room;
* `Leaves` — which results end the room page;
* `Visit.perform_of_stay`, `Visit.perform_of_leave` — what a command does to the visit;
* `Visit.commands_leave_by_status` — the status of the answer decides which commands leave the page.
-/

open Api (Asks Answered)

namespace Command

/-- The request that a command sends to a server, if it sends one. -/
def request? [File.MediaTypes] (base : Url) : Command → Option Api.Call
  | .upload [] => none
  | .upload [file] => Api.storing? (Api.endpoint base "/files") [file]
  | .upload files => Api.storing? (Api.endpoint base "/files/batch") files
  | .download id => (Api.fileUrl base id).toOption.map (⟨"GET", ·, .nothing⟩)
  | .deleteFiles ids =>
    if ids.isEmpty || ids.any Text.isBlank then none
    else some ⟨"DELETE", Api.endpoint base "/files", .document (.strings ids)⟩
  | .leaveRoom => some ⟨"DELETE", Api.endpoint base "/rooms/leave", .nothing⟩
  | .deleteRoom => some ⟨"DELETE", Api.endpoint base "/rooms/delete", .nothing⟩

/-- What a command means for the page where it succeeds. -/
def effect : Command → CommandEffect
  | .leaveRoom => .exitRoom
  | .deleteRoom => .exitRoom
  | _ => .stay

/-- What the result of an exchange means for the page does not depend on what is shown of it. -/
theorem meaning_reportThen {α β : Type} (effect : CommandEffect)
    (result : Except Api.RequestError α) (page : Page) (next : α → Page → β × Page) :
    (meaning effect (Api.reportThen result page next)).1 = result.map fun _ => effect := by
  cases result <;> rfl

/-- **One exchange.** A command is one exchange with the server, if it sends a request, and what is
shown of its result. -/
theorem execute_eq [File.MediaTypes] (command : Command) (base : Url) (page : Page) :
    ∃ (α : Type) (exchange : Api.Server → Except Api.RequestError α)
      (finish : Except Api.RequestError α → Api.Result CommandEffect),
      Asks (command.request? base) exchange ∧
      (∀ server, command.execute server base page = finish (exchange server)) ∧
      ∀ result, (finish result).1 = result.map fun _ => command.effect := by
  cases command with
  | upload files =>
    match files with
    | [] =>
      exact ⟨Unit, fun _ => .ok (), fun result => (result.map fun _ => .stay, page),
        Api.asks_nothing rfl, fun _ => rfl, fun _ => rfl⟩
    | [file] =>
      exact ⟨_, _, _, Api.asks_sendFiles _ _ _, fun _ => rfl,
        fun result => meaning_reportThen _ result _ _⟩
    | first :: second :: more =>
      exact ⟨_, _, _, (Api.asks_sendFiles _ _ _).bind fun reply => Api.isGone_read reply _ _,
        fun _ => rfl, fun result => meaning_reportThen _ result _ _⟩
  | download id =>
    exact ⟨_, _, _, Api.asks_downloadAddress base id, fun _ => rfl,
      fun result => meaning_reportThen _ result _ _⟩
  | deleteFiles ids =>
    exact ⟨_, _, _, Api.asks_sendDeletion base ids, fun _ => rfl,
      fun result => meaning_reportThen _ result _ _⟩
  | leaveRoom =>
    exact ⟨_, _, _, Api.asks_sendExit _ _, fun _ => rfl,
      fun result => meaning_reportThen _ result _ _⟩
  | deleteRoom =>
    exact ⟨_, _, _, Api.asks_sendExit _ _, fun _ => rfl,
      fun result => meaning_reportThen _ result _ _⟩

variable (server : Api.Server) (base : Url) (page : Page)

/-- A command that means to stay does not get the user out. -/
theorem meaning_stay_ne {α : Type} (result : Api.Result α) :
    (meaning .stay result).1 ≠ .ok .exitRoom := by
  obtain ⟨_ | _, _⟩ := result <;> simp [meaning, Except.map]

/-- The user is out of the room if the server answers that it is. -/
theorem exit_eq_exitRoom (path default success : String) :
    (meaning .exitRoom (Api.exit server base path default success page)).1 = .ok .exitRoom ↔
      Answered server (some ⟨"DELETE", Api.endpoint base path, .nothing⟩)
        (Http.isSuccess · = true) := by
  rw [Api.exit_eq, meaning_reportThen, ← Api.sendExit_eq_ok]
  cases Api.sendExit server (Api.endpoint base path) default <;> simp [Except.map]

/-- **Out of the room.** The user is out of the room after a command exactly if it was to leave or to
delete the room, and the answer to its request is a success. -/
theorem execute_eq_exitRoom [File.MediaTypes] (command : Command) :
    (command.execute server base page).1 = .ok .exitRoom ↔
      (command = .leaveRoom ∨ command = .deleteRoom) ∧
        Answered server (command.request? base) (Http.isSuccess · = true) := by
  cases command with
  | upload files => exact iff_of_false (meaning_stay_ne _) (by simp)
  | download id => exact iff_of_false (meaning_stay_ne _) (by simp)
  | deleteFiles ids => exact iff_of_false (meaning_stay_ne _) (by simp)
  | leaveRoom => exact (exit_eq_exitRoom server base page _ _ _).trans (by simp [request?])
  | deleteRoom => exact (exit_eq_exitRoom server base page _ _ _).trans (by simp [request?])

end Command

/-- A command got the user out of the room, or was told that the room is gone. -/
def Leaves (result : Except Api.RequestError CommandEffect) : Prop :=
  result = .ok .exitRoom ∨ ∃ message, result = .error (.roomExpired message)

/-- The room page is over after a command that leaves. -/
theorem endsVisit_iff {result : Except Api.RequestError CommandEffect} :
    endsVisit result = true ↔ Leaves result := by
  match result with
  | .ok .exitRoom => simp [endsVisit, Leaves]
  | .ok .stay => simp [endsVisit, Leaves]
  | .error e => cases e <;> simp [endsVisit, Leaves, Api.RequestError.isRoomExpired]

namespace Visit

variable (v : Visit) (server : Api.Server) (base : Url) (command : Command)

/-- What a command does to the page has nothing to do with the redirect. -/
theorem sameRedirects_execute [File.MediaTypes] :
    v.page.SameRedirects (command.execute server base v.page).2 :=
  (command.operated_execute server base v.page).sameRedirects

/-- A command that does not end the visit leaves the stream and the redirect alone. -/
theorem perform_of_stay [File.MediaTypes] (h : endsVisit (v.perform server base command).1 = false)
    :
    (v.perform server base command).2.feed = v.feed ∧
    (v.perform server base command).2.page.timers.under .redirect =
      v.page.timers.under .redirect := by
  have hstay : (v.perform server base command).2 =
      { v with page := (command.execute server base v.page).2 } :=
    if_neg (Bool.eq_false_iff.mp h)
  rw [hstay]
  exact ⟨rfl, (v.sameRedirects_execute server base command).under_eq⟩

/-- A command that ends the visit stops listening and asks for a redirect, which is refused while
another is pending. -/
theorem perform_of_leave [File.MediaTypes] (h : endsVisit (v.perform server base command).1 = true)
    :
    (v.perform server base command).2.feed = v.feed.detach ∧
    (v.perform server base command).2.page.timers.under .redirect =
      if v.page.redirectPending then v.page.timers.under .redirect
      else ([], [⟨.redirect, v.actionRedirectDelay.toNat, .emit .redirect .finish⟩]) := by
  have hsame := v.sameRedirects_execute server base command
  have hleave : (v.perform server base command).2 =
      exitRoom { v with page := (command.execute server base v.page).2 } := if_pos h
  rw [hleave]
  refine ⟨rfl, ?_⟩
  show ((command.execute server base v.page).2.redirect _).2.timers.under .redirect = _
  split
  · rename_i hpending
    rw [Page.redirect_of_pending (hsame.deadlines_eq ▸ Page.redirectPending_iff.mp hpending)]
    exact hsame.under_eq
  · rename_i hfree
    refine Scheduler.under_schedule ?_ _ _
    rw [hsame.deadlines_eq]
    exact Page.deadlines_eq_nil_of_not_pending (Bool.eq_false_iff.mpr hfree)

/-- **Leaving by command.** Whatever the state of a visit and whatever the server does: a command
learns from the server the answer to one request at most.  It gets the user out of the room exactly if
it was to leave or to delete the room and the answer is a success, and it tells that the room is gone
exactly if there is an answer with the status 410, whatever its body.  In these cases the page stops
listening to the stream, and a redirect is to follow after the delay for actions unless one is pending;
in all others the stream and the redirect stay as they were. -/
theorem commands_leave_by_status [File.MediaTypes] (v : Visit) (server : Api.Server) (base : Url)
    (command : Command) :
    (∀ other : Api.Server, (∀ call ∈ command.request? base, other call = server call) →
      v.perform other base command = v.perform server base command) ∧
    ((v.perform server base command).1 = .ok .exitRoom ↔
      (command = .leaveRoom ∨ command = .deleteRoom) ∧
        Answered server (command.request? base) (Http.isSuccess · = true)) ∧
    ((∃ message, (v.perform server base command).1 = .error (.roomExpired message)) ↔
      Answered server (command.request? base) (· = 410)) ∧
    (Leaves (v.perform server base command).1 →
      (v.perform server base command).2.feed = v.feed.detach ∧
      (v.perform server base command).2.page.timers.under .redirect =
        if v.page.redirectPending then v.page.timers.under .redirect
        else ([], [⟨.redirect, v.actionRedirectDelay.toNat, .emit .redirect .finish⟩])) ∧
    (¬ Leaves (v.perform server base command).1 →
      (v.perform server base command).2.feed = v.feed ∧
      (v.perform server base command).2.page.timers.under .redirect =
        v.page.timers.under .redirect) := by
  obtain ⟨α, exchange, finish, hasks, hexecute, hfinish⟩ := command.execute_eq base v.page
  -- what is shown of an exchange does not change its result, so the exchange decides
  have hresult : (v.perform server base command).1 =
      (exchange server).map fun _ => command.effect := by
    show (command.execute server base v.page).1 = _
    rw [hexecute, hfinish]
  have hgone : (∃ message, (v.perform server base command).1 = .error (.roomExpired message)) ↔
      Api.isGone (exchange server) = true := by
    rw [hresult]
    cases exchange server with
    | ok a => simp [Except.map, Api.isGone]
    | error e => cases e <;> simp [Except.map, Api.isGone, Api.RequestError.isRoomExpired]
  refine ⟨fun other hsame => ?_, command.execute_eq_exitRoom server base v.page,
    hgone.trans (hasks.gone server), fun hleaves => ?_, fun hstays => ?_⟩
  · have hexchange : command.execute other base v.page = command.execute server base v.page := by
      rw [hexecute, hexecute, hasks.same server other hsame]
    rw [perform, perform, hexchange]
  · exact v.perform_of_leave server base command (endsVisit_iff.mpr hleaves)
  · exact v.perform_of_stay server base command
      (Bool.eq_false_iff.mpr fun hends => hstays (endsVisit_iff.mp hends))

end Visit

end DropRoom.Room
