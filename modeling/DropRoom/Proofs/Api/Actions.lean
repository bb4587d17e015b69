import DropRoom.Proofs.Page.Operations
import DropRoom.Room.Command

namespace DropRoom

/-!
# What actions do to a page

Whatever the server answers, an action shows toasts, takes one off that it has shown, and may open
a download.  It does nothing else to the page.

* `Api.operated_reportThen`, `Api.operated_whileShowing` — the parts that actions are made of;
* `Room.Command.operated_execute` — every command of the user.
-/

namespace Api

open Page (Operated)

variable {α β : Type} {start page : Page}

/-- What a report shows is what a page may show. -/
theorem operated_report (h : Operated start page) (result : Except RequestError α) :
    Operated start (report result page).2 := by
  cases result with
  | ok a => exact h
  | error e => exact h.notify _ _

/-- So it is where a success goes on to show something. -/
theorem operated_reportThen (h : Operated start page) (result : Except RequestError α)
    {next : α → Page → β × Page}
    (hnext : ∀ a {page}, Operated start page → Operated start (next a page).2) :
    Operated start (reportThen result page next).2 := by
  cases result with
  | ok a => exact hnext a h
  | error e => exact operated_report h (.error e : Except RequestError α)

/-- A toast that stands while something is done comes and goes by the operations of the page. -/
theorem operated_whileShowing (h : Operated start page) (message : String) (result : α) :
    Operated start (whileShowing message result page).2 :=
  (h.operate (.display message .info .untilRemoved)).operate
    (.remove (page.pushPersistent message .info).1)

variable (server : Server) (base : Url)

/-- Uploads work on the page by its operations. -/
theorem operated_upload [File.MediaTypes] (h : Operated start page) (files : List File.Upload) :
    Operated start (upload server base files page).2 := by
  unfold upload
  split
  · exact h
  · exact operated_reportThen (operated_whileShowing h _ _) _ fun _ _ h => h.notify _ _
  · refine operated_reportThen (operated_whileShowing h _ _) _ fun outcome page h => ?_
    -- a toast for those that were stored, and another for those that were not
    have hstored : Operated start (if outcome.successfulCount = 0 then page
        else page.notify (filesPhrase outcome.successfulCount ++ " uploaded successfully")
          .success) := by
      split
      · exact h
      · exact h.notify _ _
    dsimp only
    split
    · exact hstored
    · exact hstored.notify _ _

/-- So do downloads. -/
theorem operated_requestDownload (h : Operated start page) (id : String) :
    Operated start (requestDownload server base id page).2 :=
  operated_reportThen h _ fun address _ h => (h.notify _ _).operate (.openDownload address)

/-- So do deletions of files. -/
theorem operated_deleteFiles (h : Operated start page) (ids : List String) :
    Operated start (deleteFiles server base ids page).2 := by
  refine operated_reportThen h _ fun outcome page h => ?_
  have hdeleted : Operated start (notifyDeleted outcome.successful.length page) := by
    unfold notifyDeleted
    split
    · exact h
    · exact h.notify _ _
    · exact h.notify _ _
  show Operated start (notifyNotDeleted outcome.failed.length _)
  unfold notifyNotDeleted
  split
  · exact hdeleted
  · exact hdeleted.notify _ _
  · exact hdeleted.notify _ _

/-- So does leaving the room, and deleting it. -/
theorem operated_exit (h : Operated start page) (path default success : String) :
    Operated start (exit server base path default success page).2 :=
  operated_reportThen h _ fun _ _ h => h.notify _ _

end Api

/-- **Commands.** Whatever the server answers, a command of the user is operations on the page. -/
theorem Room.Command.operated_execute [File.MediaTypes] (command : Command) (server : Api.Server)
    (base : Url) (page : Page) : Page.Operated page (command.execute server base page).2 := by
  have hstart := Page.Operated.refl page
  cases command with
  | upload files => exact Api.operated_upload server base hstart files
  | download id => exact Api.operated_requestDownload server base hstart id
  | deleteFiles ids => exact Api.operated_deleteFiles server base hstart ids
  | leaveRoom => exact Api.operated_exit server base hstart _ _ _
  | deleteRoom => exact Api.operated_exit server base hstart _ _ _

end DropRoom
