import DropRoom.Json.Value

namespace DropRoom.Room

/-!
# What a stream brings

* `Input` — what the reader of a stream tells the room page;
* `Signal` — how a stream ended;
* `FeedState` — what the page knows of the connection;
* `FeedError` — why a stream cannot be opened.
-/

/-- How a stream ended. -/
inductive Signal where
  /-- The server refused or ended the stream. -/
  | closed (reason : String)
  /-- The connection broke after it was open. -/
  | interrupted (reason : String)
  deriving DecidableEq, Repr

/-- What the reader of a stream tells the room page. -/
inductive Input where
  | opened
  | message (payload : String)
  /-- The stream will be opened again after so many milliseconds. -/
  | reconnecting (attempt : UInt32) (delay : Nat)
  | ended (signal : Signal)
  deriving DecidableEq, Repr

/-- An input as a JSON value. -/
def Input.toJson : Input → Json
  | .opened => .string "opened"
  | .message payload => .object [("message", .string payload)]
  | .reconnecting attempt delay =>
    .object [("reconnecting", .nat attempt.toNat), ("ms", .nat delay)]
  | .ended (.closed reason) => .object [("closed", .string reason)]
  | .ended (.interrupted reason) => .object [("interrupted", .string reason)]

/-- The state of the connection. -/
inductive FeedState where
  | idle
  | connecting
  | open_
  | reconnecting (attempt : UInt32)
  /-- The connection broke, and will not be opened again by itself. -/
  | interrupted
  | closed
  deriving DecidableEq, Repr

/-- A state as a JSON value. -/
def FeedState.toJson : FeedState → Json
  | .idle => .object [("state", .string "idle")]
  | .connecting => .object [("state", .string "connecting")]
  | .open_ => .object [("state", .string "open")]
  | .reconnecting attempt =>
    .object [("state", .string "reconnecting"), ("attempt", .nat attempt.toNat)]
  | .interrupted => .object [("state", .string "interrupted")]
  | .closed => .object [("state", .string "closed")]

/-- Why a stream cannot be opened. -/
inductive FeedError where
  /-- There is a reader already. -/
  | alreadyConnected
  /-- The room is over. -/
  | terminated (reason : String)
  /-- The address of the server is none. -/
  | invalidUrl (url message : String)
  deriving DecidableEq, Repr

/-- The text of an error. -/
def FeedError.message : FeedError → String
  | .alreadyConnected => "Room stream is already connected; call cleanup() first"
  | .terminated reason => "Room stream terminated: " ++ reason
  | .invalidUrl url message => "Invalid stream URL '" ++ url ++ "': " ++ message

/-- A short code. -/
def FeedError.code : FeedError → String
  | .alreadyConnected => "STREAM_ALREADY_CONNECTED"
  | .terminated _ => "STREAM_TERMINATED"
  | .invalidUrl _ _ => "STREAM_INVALID_URL"

end DropRoom.Room
