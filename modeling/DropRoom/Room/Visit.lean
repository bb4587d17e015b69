import DropRoom.Json.Decoder
import DropRoom.Page.Navigation
import DropRoom.Page.Toasts
import DropRoom.Room.Feed
import DropRoom.Settings.Basic

namespace DropRoom.Room

/-!
# A visit to a room

The page of a room together with the stream that keeps it up to date.

* `Visit` — the state, `Visit.initial`, a visit that has just begun, and `Visit.ofSettings`;
* `Visit.connect`, `Visit.cleanup` — begin to listen to the stream, stop listening;
* `Visit.handle` — take up one input of the stream;
* `Visit.applySnapshot` — what a payload of the stream does;
* `Visit.terminate` — the room is over: this happens once;
* `Visit.drain` — take up all inputs that wait;
* `Visit.exitRoom`, `Visit.shutdown` — leave the room, leave the page.
-/

/-- A page and its stream, with the delays of redirects in milliseconds. -/
structure Visit where
  page : Page
  feed : Feed
  /-- The delay after the end of the room. -/
  redirectDelay : UInt64
  /-- The delay after an action of the user. -/
  actionRedirectDelay : UInt64

/-- What a payload did. -/
inductive Outcome where
  | applied
  /-- The payload was no snapshot, or came after the end. -/
  | ignored
  /-- The room is over. -/
  | expired
  deriving DecidableEq, Repr

/-- The name of what a payload did. -/
def Outcome.name : Outcome → String
  | .applied => "Applied"
  | .ignored => "Ignored"
  | .expired => "Expired"

/-- The path that the server pushes snapshots on. -/
def streamPath : String := "/rooms"

/-- The page of settings. -/
def pageSetup (settings : Settings) : Page.Setup where
  createPage := settings.createPage
  toastLifetime := settings.toastLifetime
  promptLifetime := settings.promptLifetime
  eventCapacity := settings.eventCapacity.toNat

/-- The address of the stream. -/
def streamUrl [Url.DomainNames] (settings : Settings) : Except FeedError Url :=
  match settings.base with
  | .error e => .error (.invalidUrl settings.baseUrl e.message)
  | .ok base =>
    match base.join streamPath with
    | .error e => .error (.invalidUrl settings.baseUrl e.message)
    | .ok url => .ok url

namespace Visit

/-- A visit that has just begun: the page shows nothing, and nothing has been heard of the stream. -/
def initial (setup : Page.Setup) (url : Url) (username : Option String)
    (redirectDelay actionRedirectDelay : UInt64) : Visit where
  page := .initial setup
  feed := .initial url username
  redirectDelay := redirectDelay
  actionRedirectDelay := actionRedirectDelay

/-- The visit of settings. -/
def ofSettings [Url.DomainNames] (settings : Settings) : Except FeedError Visit :=
  match streamUrl settings with
  | .error e => .error e
  | .ok url => .ok (.initial (pageSetup settings) url settings.username settings.redirectDelay
      settings.actionRedirectDelay)

/-- Begin to listen to the stream. -/
def connect (v : Visit) : Except FeedError Visit :=
  match v.feed.attach with
  | .error e => .error e
  | .ok feed => .ok { v with feed := feed }

/-- Stop listening to the stream, and drop what it brought. -/
def cleanup (v : Visit) : Visit :=
  { v with feed := v.feed.detach }

/-- Leave the page after a delay, unless a redirect is pending. -/
def redirect (v : Visit) (delay : UInt64) : Visit :=
  { v with page := (v.page.redirect delay.toNat).2 }

/-- The room is over: tell the user and leave the page after a while.  This happens only once. -/
def terminate (v : Visit) (message reason : String) : Visit :=
  if v.feed.terminated then v
  else
    let page := (v.page.notify message .error).publish (.room (.terminated reason))
    cleanup { v with page := page, feed := { v.feed with terminated := true } }
      |>.redirect v.redirectDelay

/-- The text that the user is shown when the room has expired. -/
def expiredText : String := "Room has expired. Redirecting..."

/-- The text that the user is shown when the stream was closed. -/
def closedText : String := "Room has expired or access denied. Redirecting..."

/-- Show a new snapshot. -/
def showSnapshot (v : Visit) (snapshot : Snapshot) : Visit :=
  let (_, view) := reconcile v.feed.snapshot snapshot v.feed.username
  { v with
    page := v.page.publish (.room (.viewUpdated view))
    feed := { v.feed with snapshot := some snapshot, view := some view } }

/-- Take up a snapshot: show it, and its notification unless the room is over. -/
def takeSnapshot (v : Visit) (snapshot : Snapshot) : Outcome × Visit :=
  let v := v.showSnapshot snapshot
  if snapshot.isExpired then (.expired, v.terminate expiredText "room expired")
  else
    match snapshot.notification with
    | none => (.applied, v)
    | some message => (.applied, { v with page := v.page.notify message .info })

/-- Take up a payload of the stream. -/
def applySnapshot (v : Visit) (payload : String) : Outcome × Visit :=
  if v.feed.terminated then (.ignored, v)
  else
    match Json.decodeText Snapshot.decoder payload with
    | .error _ => (.ignored, v)
    | .ok snapshot => v.takeSnapshot snapshot

/-- Set what the page knows of the connection. -/
def withState (v : Visit) (state : FeedState) : Visit :=
  { v with feed := { v.feed with state := state } }

/-- Take up the end of the stream. -/
def takeSignal (v : Visit) : Signal → Visit
  | .closed reason => v.terminate closedText reason
  | .interrupted _ => if v.feed.terminated then v else v.withState .interrupted

/-- Take up one input of the stream. -/
def handle (v : Visit) : Input → Visit
  | .opened => v.withState .open_
  | .message payload => (v.applySnapshot payload).2
  | .reconnecting attempt _ => v.withState (.reconnecting attempt)
  | .ended signal => v.takeSignal signal

/-- Take the next input of the stream, without taking it up. -/
def nextInput (v : Visit) : Feed.Taken × Visit :=
  let (taken, feed) := v.feed.takeInput
  (taken, { v with feed := feed })

/-- Take up at most so many inputs that wait. -/
def drainAtMost : Nat → Visit → Visit
  | 0, v => v
  | limit + 1, v =>
    match v.nextInput with
    | (.input input, v) => drainAtMost limit (v.handle input)
    | (_, v) => v

/-- Take up all inputs that wait. -/
def drain (v : Visit) : Visit :=
  match v.feed.inbox with
  | none => v
  | some inbox => drainAtMost (inbox.waiting.length + 1) v

/-- A reader brings an input. -/
def deliver (v : Visit) (reader : Nat) (input : Input) : Visit :=
  { v with feed := v.feed.deliver reader input }

/-- A reader has finished. -/
def finish (v : Visit) (reader : Nat) : Visit :=
  { v with feed := v.feed.finish reader }

/-- Leave the room: stop listening, and leave the page after a short while. -/
def exitRoom (v : Visit) : Visit :=
  v.cleanup.redirect v.actionRedirectDelay

/-- Leave the page at once: stop listening, take all toasts off, and cancel all timers. -/
def shutdown (v : Visit) : Visit :=
  let page := v.cleanup.page.clear
  let (_, timers) := page.timers.cancelAll
  { v.cleanup with page := { page with timers := timers } }

/-- Let the timers do what is due. -/
def settle (v : Visit) : Visit :=
  { v with page := v.page.settle }

/-- Move the clock and let the timers do what is due then. -/
def advance (v : Visit) (milliseconds : Nat) : Visit :=
  { v with page := v.page.advance milliseconds }

end Visit

end DropRoom.Room
