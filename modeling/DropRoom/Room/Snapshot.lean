import DropRoom.Json.Record
import DropRoom.Time.Json

namespace DropRoom.Room

/-!
# Room snapshots

The room server pushes a complete description of the room whenever something in it
changes.

* `FileDrop` — a file that the room holds, known by its identifier;
* `Snapshot` — the room;
* `Snapshot.decoder`, `Snapshot.toJson` — its document form, with names in camel case.
-/

/-- A file that a room holds. -/
structure FileDrop where
  fileId : String
  fileName : String
  size : UInt64
  uploadedAt : DateTime
  deriving DecidableEq, Repr

/-- The decoder of a file. -/
def FileDrop.decoder : Json.Decoder FileDrop :=
  (Json.Record.start FileDrop.mk
    |>.required "fileId" .string
    |>.required "fileName" .string
    |>.required "fileSizeInBytes" .uint64
    |>.required "uploadedAt" DateTime.timestamp).decoder

/-- A file as a JSON value. -/
def FileDrop.toJson (file : FileDrop) : Json :=
  .object [
    ("fileId", .string file.fileId),
    ("fileName", .string file.fileName),
    ("fileSizeInBytes", .nat file.size.toNat),
    ("uploadedAt", file.uploadedAt.toJson)]

/-- One complete description of a room. -/
structure Snapshot where
  roomCode : String
  roomName : String
  expiresAt : DateTime
  occupantCount : UInt32
  isExpired : Bool
  notification : Option String
  fileDrops : List FileDrop
  deriving DecidableEq, Repr

/-- The decoder of a snapshot.  Whether it is expired, its notification and its files may be left
out. -/
def Snapshot.decoder : Json.Decoder Snapshot :=
  (Json.Record.start Snapshot.mk
    |>.required "roomCode" .string
    |>.required "roomName" .string
    |>.required "expiresAt" DateTime.timestamp
    |>.required "occupantCount" .uint32
    |>.defaulted "isExpired" .bool false
    |>.defaulted "notification" (.nullable .string) none
    |>.defaulted "fileDrops" (.list FileDrop.decoder) []).decoder

/-- A snapshot as a JSON value. -/
def Snapshot.toJson (s : Snapshot) : Json :=
  .object [
    ("roomCode", .string s.roomCode),
    ("roomName", .string s.roomName),
    ("expiresAt", s.expiresAt.toJson),
    ("occupantCount", .nat s.occupantCount.toNat),
    ("isExpired", .bool s.isExpired),
    ("notification", .optional .string s.notification),
    ("fileDrops", .array (s.fileDrops.map FileDrop.toJson))]

end DropRoom.Room
