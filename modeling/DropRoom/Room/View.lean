import DropRoom.File.Icon
import DropRoom.File.Size
import DropRoom.Room.Snapshot

namespace DropRoom.Room

/-!
# What a room page shows

A view is made from one snapshot alone: every field of the snapshot is shown, and
the table of files is built anew in the order of the server.

* `View`, `Row`, `FileRow` — the page, a row of its table, a file in it;
* `View.ofSnapshot` — the page of a snapshot;
* `Change.between` — how the occupants and files of two snapshots differ;
* `reconcile` — the page of a snapshot that follows another one.
-/

/-- Whether a room is still open. -/
inductive Status where
  | live
  | expired
  deriving DecidableEq, Repr

/-- A file in the table. -/
structure FileRow where
  fileId : String
  fileName : String
  sizeLabel : String
  uploadedLabel : String
  icon : File.Icon
  deriving DecidableEq, Repr

/-- A row of the table: a file, or a text across the given number of columns. -/
inductive Row where
  | file (row : FileRow)
  | placeholder (text : String) (columns : UInt8)
  deriving DecidableEq, Repr

/-- What a room page shows. -/
structure View where
  status : Status
  roomCode : String
  roomName : String
  username : Option String
  expiresLabel : String
  occupantsLabel : String
  notification : Option String
  rows : List Row
  deriving DecidableEq, Repr

/-- The files among the rows. -/
def View.files (view : View) : List FileRow :=
  view.rows.filterMap fun
    | .file row => some row
    | .placeholder _ _ => none

/-- The row of a file. -/
def FileRow.ofDrop (file : FileDrop) : FileRow where
  fileId := file.fileId
  fileName := file.fileName
  sizeLabel := File.sizeText file.size
  uploadedLabel := file.uploadedAt.uploadLabel
  icon := .ofName file.fileName

/-- The columns of the table: name, size, time of upload and actions. -/
def tableColumns : UInt8 := 4

/-- The text of the table of an empty room. -/
def emptyRoomText : String := "No files uploaded yet"

/-- The table of a list of files: one row each, or the placeholder where there is none. -/
def tableRows : List FileDrop → List Row
  | [] => [.placeholder emptyRoomText tableColumns]
  | files => files.map fun file => .file (.ofDrop file)

/-- The page of a snapshot.  The files of an expired room are not shown. -/
def View.ofSnapshot (s : Snapshot) (username : Option String) : View where
  status := if s.isExpired then .expired else .live
  roomCode := s.roomCode
  roomName := s.roomName
  username := username
  expiresLabel := "Expires on " ++ s.expiresAt.date.longLabel
  occupantsLabel := toString s.occupantCount.toNat ++ " people in this room"
  notification := s.notification
  rows := if s.isExpired then [] else tableRows s.fileDrops

/-! ### Changes -/

/-- How one snapshot differs from an earlier one. -/
structure Change where
  occupants : Int
  filesAdded : Nat
  filesRemoved : Nat
  deriving DecidableEq, Repr

/-- The identifiers of the files of a snapshot, each once. -/
def Snapshot.fileIds (s : Snapshot) : List String :=
  (s.fileDrops.map (·.fileId)).eraseDups

/-- How many of the first identifiers are not among the second. -/
def countMissing (ids others : List String) : Nat :=
  (ids.filter fun id => !others.contains id).length

/-- How a snapshot differs from an earlier one, by occupants and by the identity of files. -/
def Change.between (earlier later : Snapshot) : Change where
  occupants := later.occupantCount.toNat - earlier.occupantCount.toNat
  filesAdded := countMissing later.fileIds earlier.fileIds
  filesRemoved := countMissing earlier.fileIds later.fileIds

/-- The page of a snapshot, beside the change since the previous one.  The change is for the log
only. -/
def reconcile (previous : Option Snapshot) (incoming : Snapshot) (username : Option String) :
    Option Change × View :=
  (previous.map fun earlier => .between earlier incoming, .ofSnapshot incoming username)

@[simp] theorem reconcile_snd (previous : Option Snapshot) (incoming : Snapshot)
    (username : Option String) :
    (reconcile previous incoming username).2 = .ofSnapshot incoming username := rfl

/-! ### Document form -/

/-- The names of the states of a room. -/
def Status.names : List (String × Status) :=
  [("live", .live), ("expired", .expired)]

/-- A state of a room as a JSON value. -/
def Status.toJson : Status → Json
  | .live => .string "live"
  | .expired => .string "expired"

/-- The members of a file row. -/
def FileRow.members (row : FileRow) : List (String × Json) := [
  ("file_id", .string row.fileId),
  ("file_name", .string row.fileName),
  ("size_label", .string row.sizeLabel),
  ("uploaded_label", .string row.uploadedLabel),
  ("icon", row.icon.toJson)]

/-- The decoder of a file row. -/
def FileRow.decoder : Json.Decoder FileRow :=
  (Json.Record.start FileRow.mk
    |>.required "file_id" .string
    |>.required "file_name" .string
    |>.required "size_label" .string
    |>.required "uploaded_label" .string
    |>.required "icon" File.Icon.decoder).decoder

/-- A row as a JSON value. -/
def Row.toJson : Row → Json
  | .file row => .object (("type", .string "file") :: row.members)
  | .placeholder text columns => .object [
      ("type", .string "placeholder"),
      ("text", .string text),
      ("colspan", .nat columns.toNat)]

/-- The decoder of a row. -/
def Row.decoder : Json.Decoder Row :=
  Json.tagged "type" [
    ("file", .map .file FileRow.decoder),
    ("placeholder", (Json.Record.start Row.placeholder
      |>.required "text" .string
      |>.required "colspan" .uint8).decoder)]

/-- A view as a JSON value. -/
def View.toJson (view : View) : Json :=
  .object [
    ("status", view.status.toJson),
    ("room_code", .string view.roomCode),
    ("room_name", .string view.roomName),
    ("username", .optional .string view.username),
    ("expires_label", .string view.expiresLabel),
    ("occupants_label", .string view.occupantsLabel),
    ("notification", .optional .string view.notification),
    ("rows", .array (view.rows.map Row.toJson))]

/-- The decoder of a view. -/
def View.decoder : Json.Decoder View :=
  (Json.Record.start View.mk
    |>.required "status" (.name Status.names)
    |>.required "room_code" .string
    |>.required "room_name" .string
    |>.nullable "username" .string
    |>.required "expires_label" .string
    |>.required "occupants_label" .string
    |>.nullable "notification" .string
    |>.required "rows" (.list Row.decoder)).decoder

end DropRoom.Room
