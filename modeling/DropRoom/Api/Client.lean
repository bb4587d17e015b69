import DropRoom.Api.Exchange
import DropRoom.File.Upload
import DropRoom.Page.Navigation
import DropRoom.Page.Toasts
import DropRoom.Url.Edit

namespace DropRoom.Api

/-!
# Actions on files and rooms

Every action is one exchange with the server, which is never repeated.  Its result
is shown as toasts and returned.

* `upload`, `uploadOne`, `uploadMany` — store files in the room;
* `requestDownload` — open the address of a file;
* `deleteFiles`, `deleteFile` — delete files;
* `leaveRoom`, `deleteRoom` — leave the room, delete it;
* `createRoom`, `joinRoom` — enter a room;
* `metrics` — the counters of the server.
-/

/-- The result of an action, and the page after it. -/
abbrev Result (α : Type) := Except RequestError α × Page

/-- The address of a path of the server. -/
def endpoint (base : Url) (path : String) : Url :=
  base.setPath path

/-- Show a failure, and return it. -/
def report {α : Type} (result : Except RequestError α) (page : Page) : Result α :=
  match result with
  | .ok a => (.ok a, page)
  | .error e => (.error e, page.notify e.userMessage .error)

/-- Show a failure, or go on with a success. -/
def reportThen {α β : Type} (result : Except RequestError α) (page : Page)
    (next : α → Page → β × Page) : Result β :=
  match report result page with
  | (.error e, page) => (.error e, page)
  | (.ok a, page) =>
    let (b, page) := next a page
    (.ok b, page)

/-! ### Uploads -/

/-- How many files of an upload were stored, and how many were not. -/
structure UploadCounts where
  successful : Nat
  failed : Nat
  deriving DecidableEq, Repr

/-- A number of files in words. -/
def filesPhrase (count : Nat) : String :=
  if count = 1 then "1 file" else toString count ++ " files"

/-- The part of a form that holds a file. -/
def partOf [File.MediaTypes] (file : File.Upload) : Except RequestError Part :=
  match File.normalMediaType? file.mediaType with
  | some contentType => .ok ⟨"file", file.name, contentType, file.content⟩
  | none =>
    .error (.invalidInput ("Invalid content type for " ++ file.name ++ ": builder error"))

/-- Send files as one form. -/
def sendFiles [File.MediaTypes] (server : Server) (url : Url) (files : List File.Upload)
    (default : String) : Except RequestError Reply := do
  let parts ← files.mapM partOf
  let reply ← Call.send ⟨"POST", url, .form parts⟩ server default
  ensureSuccess reply default

/-- Show a toast while something is done. -/
def whileShowing {α : Type} (message : String) (result : α) (page : Page) : α × Page :=
  let (id, page) := page.pushPersistent message .info
  let (_, page) := page.remove id
  (result, page)

/-- Store one file. -/
def uploadOne [File.MediaTypes] (server : Server) (base : Url) (file : File.Upload) (page : Page) :
    Result UploadCounts :=
  let (result, page) := whileShowing "Uploading 1 file..."
    (sendFiles server (endpoint base "/files") [file] ("Failed to upload " ++ file.name)) page
  reportThen result page fun _ page =>
    (⟨1, 0⟩, page.notify (file.name ++ " uploaded successfully") .success)

/-- Store files. -/
def uploadMany [File.MediaTypes] (server : Server) (base : Url) (files : List File.Upload)
    (page : Page) : Result UploadCounts :=
  let default := "Failed to upload files"
  let outcome := do
    let reply ← sendFiles server (endpoint base "/files/batch") files default
    reply.read UploadOutcome.decoder default
  let (result, page) := whileShowing ("Uploading " ++ filesPhrase files.length ++ "...") outcome page
  reportThen result page fun outcome page =>
    let counts : UploadCounts := ⟨outcome.successfulCount, outcome.failedCount⟩
    let page := if counts.successful = 0 then page
      else page.notify (filesPhrase counts.successful ++ " uploaded successfully") .success
    let page := if counts.failed = 0 then page
      else page.notify (filesPhrase counts.failed ++ " failed to upload") .error
    (counts, page)

/-- Store one file or several; none needs no exchange. -/
def upload [File.MediaTypes] (server : Server) (base : Url) (files : List File.Upload)
    (page : Page) : Result UploadCounts :=
  match files with
  | [] => (.ok ⟨0, 0⟩, page)
  | [file] => uploadOne server base file page
  | files => uploadMany server base files page

/-! ### Downloads -/

/-- The failure of an identifier without characters. -/
def invalidFileId : RequestError :=
  .invalidInput "Invalid file ID"

/-- The address of a file. -/
def fileUrl (base : Url) (id : String) : Except RequestError Url :=
  if Text.isBlank id then .error invalidFileId
  else .ok ((endpoint base "/files").pushSegment id)

/-- The address that a link names. -/
def DownloadLink.address (link : DownloadLink) : Except RequestError String :=
  match link.url with
  | some url => if url = "" then .error .missingDownloadUrl else .ok url
  | none => .error .missingDownloadUrl

/-- Ask for the address of a file.  The status 302 counts as a success. -/
def downloadAddress (server : Server) (base : Url) (id : String) : Except RequestError String := do
  let default := "Failed to download file"
  let url ← fileUrl base id
  let reply ← Call.send ⟨"GET", url, .nothing⟩ server default
  let reply ← if reply.status = 302 then .ok reply else ensureSuccess reply default
  let link ← reply.read DownloadLink.decoder default
  link.address

/-- Open the address of a file. -/
def requestDownload (server : Server) (base : Url) (id : String) (page : Page) : Result String :=
  reportThen (downloadAddress server base id) page fun address page =>
    (address, (page.notify "Your download should start shortly" .info).openDownload address)

/-! ### Deletions -/

/-- Delete files on the server.  An answer without content means that all were deleted. -/
def sendDeletion (server : Server) (base : Url) (ids : List String) :
    Except RequestError DeletionOutcome := do
  let default := "Failed to delete file"
  if ids.isEmpty || ids.any Text.isBlank then .error invalidFileId
  else
    let reply ← Call.send ⟨"DELETE", endpoint base "/files", .document (.strings ids)⟩ server default
    let reply ← ensureSuccess reply default
    if reply.status = 204 then return .all ids
    else reply.read DeletionOutcome.decoder default

/-- Show how many files were deleted. -/
def notifyDeleted (count : Nat) (page : Page) : Page :=
  match count with
  | 0 => page
  | 1 => page.notify "File deleted successfully" .success
  | n => page.notify (toString n ++ " files deleted successfully") .success

/-- Show how many files were not deleted. -/
def notifyNotDeleted (count : Nat) (page : Page) : Page :=
  match count with
  | 0 => page
  | 1 => page.notify "Failed to delete file" .error
  | n => page.notify ("Failed to delete " ++ toString n ++ " files") .error

/-- Delete files. -/
def deleteFiles (server : Server) (base : Url) (ids : List String) (page : Page) :
    Result DeletionOutcome :=
  reportThen (sendDeletion server base ids) page fun outcome page =>
    (outcome, notifyNotDeleted outcome.failed.length (notifyDeleted outcome.successful.length page))

/-- Delete one file. -/
def deleteFile (server : Server) (base : Url) (id : String) (page : Page) :
    Result DeletionOutcome :=
  deleteFiles server base [id] page

/-! ### Rooms -/

/-- Send a request without content that needs no document in its answer. -/
def exit (server : Server) (base : Url) (path default success : String) (page : Page) :
    Result Unit :=
  let result := do
    let reply ← Call.send ⟨"DELETE", endpoint base path, .nothing⟩ server default
    let _ ← ensureSuccess reply default
    return ()
  reportThen result page fun _ page => ((), page.notify success .success)

/-- Leave the room. -/
def leaveRoom (server : Server) (base : Url) (page : Page) : Result Unit :=
  exit server base "/rooms/leave" "Failed to leave room" "Left room successfully" page

/-- Delete the room, which only its owner may do. -/
def deleteRoom (server : Server) (base : Url) (page : Page) : Result Unit :=
  exit server base "/rooms/delete" "Failed to delete room" "Room deleted successfully" page

/-- Send a request for a room unless something is wrong with it: the first complaint is shown. -/
def enter (server : Server) (base : Url) (path : String) (complaints : List Complaint)
    (document : Json) (default : String) : Except RequestError Membership := do
  match complaints with
  | complaint :: _ => .error (.invalidInput complaint.message)
  | [] =>
    let reply ← Call.send ⟨"POST", endpoint base path, .document document⟩ server default
    let reply ← ensureSuccess reply default
    reply.read Membership.decoder default

/-- Create a room and enter it. -/
def createRoom (server : Server) (base : Url) (request : NewRoom) (page : Page) :
    Result Membership :=
  report (enter server base "/rooms/create" request.complaints request.toJson
    "Failed to create room") page

/-- Enter a room. -/
def joinRoom (server : Server) (base : Url) (request : JoinRoom) (page : Page) :
    Result Membership :=
  report (enter server base "/rooms/join" request.complaints request.toJson
    "Failed to join room") page

/-! ### Counters -/

/-- The counters of the server.  A failure is not shown. -/
def metrics (server : Server) (base : Url) : Except RequestError Metrics := do
  let default := "Failed to load metrics"
  let reply ← Call.send ⟨"GET", endpoint base "/metrics", .nothing⟩ server default
  let reply ← ensureSuccess reply default
  reply.read Metrics.decoder default

end DropRoom.Api
