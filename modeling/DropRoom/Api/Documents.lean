import DropRoom.Json.Record
import DropRoom.Time.Json

namespace DropRoom.Api

/-!
# Documents of the room server

What the server answers to requests, and what it is asked with.

* `UploadOutcome`, `DeletionOutcome` — what became of a batch of files;
* `DownloadLink` — where a file can be fetched;
* `Problem` — the body of an answer that is not a success;
* `NewRoom`, `JoinRoom` — requests for a room, and what is wrong with them;
* `Membership` — the answer to both;
* `Metrics` — the counters of the server.
-/

/-! ### Answers about files -/

/-- What became of a batch of uploads.  The server lists descriptions or names; only their number
is used. -/
structure UploadOutcome where
  successful : Option (List Json)
  failed : Option (List Json)

/-- The number of files that were stored; a missing list counts as empty. -/
def UploadOutcome.successfulCount (outcome : UploadOutcome) : Nat :=
  (outcome.successful.getD []).length

/-- The number of files that were not stored. -/
def UploadOutcome.failedCount (outcome : UploadOutcome) : Nat :=
  (outcome.failed.getD []).length

/-- The decoder of the outcome of a batch of uploads. -/
def UploadOutcome.decoder : Json.Decoder UploadOutcome :=
  (Json.Record.start UploadOutcome.mk
    |>.defaulted "successfulUploads" (.nullable (.list .any)) none
    |>.defaulted "failedUploads" (.nullable (.list .any)) none).decoder

/-- The outcome of a batch of uploads as a JSON value. -/
def UploadOutcome.toJson (outcome : UploadOutcome) : Json :=
  .object [
    ("successfulUploads", .optional .array outcome.successful),
    ("failedUploads", .optional .array outcome.failed)]

/-- The identifiers of files that were deleted, and of those that were not. -/
structure DeletionOutcome where
  successful : List String
  failed : List String
  deriving DecidableEq, Repr

/-- Every file was deleted: what an answer without content stands for. -/
def DeletionOutcome.all (ids : List String) : DeletionOutcome :=
  ⟨ids, []⟩

/-- The decoder of the outcome of a deletion. -/
def DeletionOutcome.decoder : Json.Decoder DeletionOutcome :=
  (Json.Record.start DeletionOutcome.mk
    |>.defaulted "successfulDeletes" (.list .string) []
    |>.defaulted "failedDeletes" (.list .string) []).decoder

/-- The outcome of a deletion as a JSON value. -/
def DeletionOutcome.toJson (outcome : DeletionOutcome) : Json :=
  .object [
    ("successfulDeletes", .strings outcome.successful),
    ("failedDeletes", .strings outcome.failed)]

/-- Where a file can be fetched for a short time. -/
structure DownloadLink where
  url : Option String
  deriving DecidableEq, Repr

/-- The decoder of a download link. -/
def DownloadLink.decoder : Json.Decoder DownloadLink :=
  (Json.Record.start DownloadLink.mk
    |>.defaulted "downloadUrl" (.nullable .string) none).decoder

/-- A download link as a JSON value. -/
def DownloadLink.toJson (link : DownloadLink) : Json :=
  .object [("downloadUrl", .optional .string link.url)]

/-- What an answer that is not a success says. -/
structure Problem where
  status : Option UInt16
  message : Option String
  occurredAt : Option String
  deriving DecidableEq, Repr

/-- The decoder of a problem. -/
def Problem.decoder : Json.Decoder Problem :=
  (Json.Record.start Problem.mk
    |>.defaulted "statusCode" (.nullable .uint16) none
    |>.defaulted "message" (.nullable .string) none
    |>.defaulted "occurredAt" (.nullable .string) none).decoder

/-- A problem as a JSON value. -/
def Problem.toJson (problem : Problem) : Json :=
  .object [
    ("statusCode", .optional (fun status => .nat status.toNat) problem.status),
    ("message", .optional .string problem.message),
    ("occurredAt", .optional .string problem.occurredAt)]

/-! ### Requests for a room -/

/-- What is wrong with a field of a request. -/
structure Complaint where
  field : String
  message : String
  deriving DecidableEq, Repr

/-- Complain about a field unless a condition holds. -/
def Complaint.unless (holds : Bool) (field message : String) : List Complaint :=
  if holds then [] else [⟨field, message⟩]

/-- Names are at least 3 and at most 20 characters long. -/
def isNameLength (name : String) : Bool :=
  3 ≤ name.length && name.length ≤ 20

/-- A request for a new room that lives for the given time. -/
structure NewRoom where
  roomName : String
  ttl : Int64
  username : String
  deriving DecidableEq, Repr

/-- What is wrong with a request for a new room, in the order of the names of the fields. -/
def NewRoom.complaints (request : NewRoom) : List Complaint :=
  Complaint.unless (isNameLength request.roomName) "room_name"
      "Room name cannot have less than 3 characters and more than 20 characters" ++
    Complaint.unless (decide (1 ≤ request.ttl)) "ttl"
      "Time to live cannot be negative or zero" ++
    Complaint.unless (isNameLength request.username) "username"
      "The room owner's name cannot have less than 3 characters and more than 20 characters"

/-- The decoder of a request for a new room. -/
def NewRoom.decoder : Json.Decoder NewRoom :=
  (Json.Record.start NewRoom.mk
    |>.required "roomName" .string
    |>.required "ttl" .int64
    |>.required "username" .string).decoder

/-- A request for a new room as a JSON value. -/
def NewRoom.toJson (request : NewRoom) : Json :=
  .object [
    ("roomName", .string request.roomName),
    ("ttl", .int request.ttl.toInt),
    ("username", .string request.username)]

/-- A request to join a room. -/
structure JoinRoom where
  username : String
  roomCode : String
  deriving DecidableEq, Repr

/-- What is wrong with a request to join a room, in the order of the names of the fields. -/
def JoinRoom.complaints (request : JoinRoom) : List Complaint :=
  Complaint.unless (request.roomCode.length == 8) "room_code" "Room code must be 8 characters" ++
    Complaint.unless (isNameLength request.username) "username"
      "Username cannot be less than 3 characters and cannot be greater than 20 characters"

/-- The decoder of a request to join a room. -/
def JoinRoom.decoder : Json.Decoder JoinRoom :=
  (Json.Record.start JoinRoom.mk
    |>.required "username" .string
    |>.required "roomCode" .string).decoder

/-- A request to join a room as a JSON value. -/
def JoinRoom.toJson (request : JoinRoom) : Json :=
  .object [("username", .string request.username), ("roomCode", .string request.roomCode)]

/-- The answer to a request for a room: the user is in. -/
structure Membership where
  roomCode : String
  roomName : String
  username : String
  sessionId : Option String
  expiresAt : DateTime
  deriving DecidableEq, Repr

/-- The decoder of a membership. -/
def Membership.decoder : Json.Decoder Membership :=
  (Json.Record.start Membership.mk
    |>.required "roomCode" .string
    |>.required "roomName" .string
    |>.required "username" .string
    |>.defaulted "sessionId" (.nullable .string) none
    |>.required "expiresAt" DateTime.timestamp).decoder

/-- A membership as a JSON value. -/
def Membership.toJson (m : Membership) : Json :=
  .object [
    ("roomCode", .string m.roomCode),
    ("roomName", .string m.roomName),
    ("username", .string m.username),
    ("sessionId", .optional .string m.sessionId),
    ("expiresAt", m.expiresAt.toJson)]

/-! ### Counters -/

/-- The counters of the server. -/
structure Metrics where
  roomsCreated : UInt64
  filesUploaded : UInt64
  filesDownloaded : UInt64
  deriving DecidableEq, Repr

/-- The decoder of the counters, each of which has two names. -/
def Metrics.decoder : Json.Decoder Metrics :=
  (Json.Record.start Metrics.mk
    |>.aliased "roomsCreated" "totalRoomsCreated" .uint64 0
    |>.aliased "filesUploaded" "totalFilesUploaded" .uint64 0
    |>.aliased "filesDownloaded" "totalFilesDownloaded" .uint64 0).decoder

/-- The counters as a JSON value. -/
def Metrics.toJson (m : Metrics) : Json :=
  .object [
    ("roomsCreated", .nat m.roomsCreated.toNat),
    ("filesUploaded", .nat m.filesUploaded.toNat),
    ("filesDownloaded", .nat m.filesDownloaded.toNat)]

end DropRoom.Api
