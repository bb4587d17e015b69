import DropRoom.Room.EventStream
import DropRoom.Room.Input
import DropRoom.Settings.Reconnection

namespace DropRoom.Room

/-!
# The reader of a stream

A reader opens the stream, passes on what it brings, and opens it again when the
connection broke, as far as the settings have it.

* `Connection` — what became of one attempt to open the stream;
* `Reader.step` — what a reader passes on of one connection, and whether it goes on;
* `Reader.run` — what a reader passes on of connections in order.
-/

/-- What became of one attempt to open the stream. -/
inductive Connection where
  /-- There was no answer. -/
  | unreachable (reason : String)
  /-- The status of the answer was not a success. -/
  | rejected (status : Nat)
  /-- The stream was open, brought events, and ended. -/
  | accepted (events : List PushEvent) (ending : Ending)
  deriving DecidableEq, Repr

/-- Where a reader is. -/
structure Reader where
  /-- Whether the stream has been open before. -/
  openedOnce : Bool
  /-- How many attempts have failed since it was last open. -/
  attempt : UInt32
  deriving DecidableEq, Repr

namespace Reader

/-- A reader that has not begun. -/
def initial : Reader :=
  ⟨false, 0⟩

/-- A reader that stops. -/
def stop (reason : String) : List Input × Option Reader :=
  ([.ended (.closed reason)], none)

/-- The connection broke after so many failed attempts: open it again, or stop. -/
def retry (policy : Reconnection) (attempt : UInt32) (reason : String) :
    List Input × Option Reader :=
  match policy with
  | .never => ([.ended (.interrupted reason)], none)
  | .backoff backoff =>
    let attempt := attempt + 1
    match backoff.wait? attempt with
    | some delay => ([.reconnecting attempt delay], some ⟨true, attempt⟩)
    | none =>
      stop ("gave up after " ++ toString (attempt - 1).toNat ++ " reconnect attempts: " ++ reason)

/-- The snapshots among the events of a stream. -/
def snapshots (events : List PushEvent) : List Input :=
  (events.filter PushEvent.isSnapshot).map fun event => .message event.payload

/-- What a reader passes on of one connection, and the reader that goes on with the next one. -/
def step (policy : Reconnection) (r : Reader) : Connection → List Input × Option Reader
  | .unreachable reason =>
    if r.openedOnce then retry policy r.attempt reason
    else stop ("room stream unreachable: " ++ reason)
  | .rejected status => stop ("room stream rejected with HTTP " ++ toString status)
  | .accepted events ending =>
    let (last, next) :=
      match ending with
      | .ended => stop "server ended the room stream"
      | .broken reason => retry policy 0 reason
    (.opened :: snapshots events ++ last, next)

/-- What a reader passes on of connections in order. -/
def run (policy : Reconnection) : Reader → List Connection → List Input
  | _, [] => []
  | r, connection :: connections =>
    match r.step policy connection with
    | (inputs, none) => inputs
    | (inputs, some r) => inputs ++ run policy r connections

end Reader

end DropRoom.Room
