import DropRoom.Room.Input
import DropRoom.Room.View
import DropRoom.Url.Basic

namespace DropRoom.Room

/-!
# The feed of a room

What a room page knows of the stream that the server pushes snapshots on.  A
reader, attached by `Feed.attach`, puts inputs into an inbox, from which they
are taken in order.

* `Feed` — the state;
* `Feed.attach`, `Feed.detach` — begin to listen, stop listening;
* `Feed.deliver`, `Feed.finish` — what a reader does;
* `Feed.takeInput` — the next input.
-/

/-- The inputs of one reader that have not been taken. -/
structure Inbox where
  reader : Nat
  waiting : List Input
  /-- Whether the reader has finished, so that no more will come. -/
  finished : Bool
  deriving DecidableEq, Repr

/-- What a room page knows of the stream that the server pushes snapshots on. -/
structure Feed where
  /-- The address of the stream. -/
  url : Url
  /-- The name that the page shows. -/
  username : Option String
  state : FeedState
  /-- The last snapshot. -/
  snapshot : Option Snapshot
  /-- The last view. -/
  view : Option View
  /-- The reader that is attached. -/
  reader : Option Nat
  inbox : Option Inbox
  /-- Whether the room is over. -/
  terminated : Bool
  /-- How many readers there have been. -/
  readers : Nat

namespace Feed

/-- The stream at an address, before anything has been heard of it. -/
def initial (url : Url) (username : Option String) : Feed :=
  ⟨url, username, .idle, none, none, none, none, false, 0⟩

/-- Whether an input may still come. -/
def isReceiving (s : Feed) : Bool :=
  s.inbox.isSome

/-- Attach a reader, unless the room is over or there is one. -/
def attach (s : Feed) : Except FeedError Feed :=
  if s.terminated then .error (.terminated "room stream already closed")
  else if s.reader.isSome then .error .alreadyConnected
  else .ok { s with
    reader := some s.readers
    inbox := some ⟨s.readers, [], false⟩
    state := .connecting
    readers := s.readers + 1 }

/-- Detach the reader and drop what it brought. -/
def detach (s : Feed) : Feed :=
  { s with
    reader := none
    inbox := none
    state := if s.terminated then .closed else .idle }

/-- Change the inbox of a reader, if the page still listens to it. -/
def updateInbox (s : Feed) (reader : Nat) (change : Inbox → Inbox) : Feed :=
  match s.inbox with
  | some inbox => if inbox.reader = reader then { s with inbox := some (change inbox) } else s
  | none => s

/-- A reader brings an input. -/
def deliver (s : Feed) (reader : Nat) (input : Input) : Feed :=
  s.updateInbox reader fun inbox =>
    if inbox.finished then inbox else { inbox with waiting := inbox.waiting ++ [input] }

/-- A reader has finished. -/
def finish (s : Feed) (reader : Nat) : Feed :=
  s.updateInbox reader fun inbox => { inbox with finished := true }

/-- The answer to the question for the next input. -/
inductive Taken where
  | input (input : Input)
  /-- Nothing is there yet. -/
  | nothingYet
  /-- Nothing will come any more. -/
  | ended
  deriving DecidableEq, Repr

/-- Take the next input. -/
def takeInput (s : Feed) : Taken × Feed :=
  match s.inbox with
  | none => (.ended, s)
  | some inbox =>
    match inbox.waiting with
    | input :: waiting => (.input input, { s with inbox := some { inbox with waiting := waiting } })
    | [] => if inbox.finished then (.ended, { s with inbox := none }) else (.nothingYet, s)

end Feed

end DropRoom.Room
