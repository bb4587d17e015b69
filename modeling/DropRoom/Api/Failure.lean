import DropRoom.Json.Value
import DropRoom.Text.Blank

namespace DropRoom.Api

/-!
# Failed requests

* `RequestError` — why a request to the room server failed, with the text that the
  user is shown;
* `userText` — the text for an answer that is not a success.
-/

/-- Why a request failed.  A message is always the text that the user is shown. -/
inductive RequestError where
  /-- The server answered with another status than a success. -/
  | rejected (status : Nat) (message : String)
  /-- The server answered that the room is gone. -/
  | roomExpired (message : String)
  /-- There was no answer. -/
  | transport (message cause : String)
  /-- A success that does not name the address of the download. -/
  | missingDownloadUrl
  /-- The body of an answer is not what it should be. -/
  | decode (message cause : String)
  /-- The request was not sent. -/
  | invalidInput (message : String)
  deriving DecidableEq, Repr

namespace RequestError

/-- The text that the user is shown where no download is named. -/
def noDownloadText : String := "No download URL provided"

/-- The text of an error. -/
def message : RequestError → String
  | .rejected status message => "HTTP " ++ toString status ++ ": " ++ message
  | .roomExpired message => message
  | .transport message cause => message ++ " (" ++ cause ++ ")"
  | .missingDownloadUrl => noDownloadText
  | .decode message cause => message ++ " (invalid response body: " ++ cause ++ ")"
  | .invalidInput message => message

/-- The text that the user is shown. -/
def userMessage : RequestError → String
  | .rejected _ message => message
  | .roomExpired message => message
  | .transport message _ => message
  | .missingDownloadUrl => noDownloadText
  | .decode message _ => message
  | .invalidInput message => message

/-- The status of the answer, if there was one that was not a success. -/
def status? : RequestError → Option Nat
  | .rejected status _ => some status
  | .roomExpired _ => some 410
  | _ => none

/-- Whether the room is gone. -/
def isRoomExpired : RequestError → Bool
  | .roomExpired _ => true
  | _ => false

/-- A short code. -/
def code : RequestError → String
  | .rejected _ _ => "REQUEST_FAILED"
  | .roomExpired _ => "ROOM_EXPIRED"
  | .transport _ _ => "REQUEST_TRANSPORT"
  | .missingDownloadUrl => "MISSING_DOWNLOAD_URL"
  | .decode _ _ => "RESPONSE_DECODE"
  | .invalidInput _ => "INVALID_INPUT"

/-- The members of an error within a document. -/
def members (e : RequestError) : List (String × Json) :=
  [("error", .string e.code), ("message", .string e.userMessage),
    ("status", .optional .nat e.status?)]

end RequestError

/-- The text for an answer that is not a success: some statuses have a text of their own, and for
others it is what the server says unless that is blank, or else the default of the operation. -/
def userText (status : Nat) (serverMessage : Option String) (default : String) : String :=
  match status with
  | 401 => "You are not authenticated. Please refresh the page and try again"
  | 403 => "You don't have permission to perform this action because you aren't the room owner"
  | 404 => "Resource not found"
  | 410 => "This room has expired. Redirecting you back to create room page..."
  | 500 => "Server error occurred. Please try again later"
  | _ =>
    match serverMessage with
    | none => default
    | some message => if Text.isBlank message then default else message

end DropRoom.Api
