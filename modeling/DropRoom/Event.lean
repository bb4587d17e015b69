import DropRoom.Room.View
import DropRoom.Toast

namespace DropRoom

/-!
# Events

What a room page announces to whoever renders it: a new view or the end of the
room, toasts that come and go, and navigation.

* `RoomEvent`, `ToastEvent`, `NavigationEvent`, `Event` — the types;
* `Event.Envelope` — an event with its identity and time;
* `Event.decoder`, `Event.toJson` — their document form.
-/

/-- News of the room. -/
inductive RoomEvent where
  /-- A new view is ready. -/
  | viewUpdated (view : Room.View)
  /-- Nothing more will come from the room. -/
  | terminated (reason : String)
  deriving DecidableEq, Repr

/-- News of a toast. -/
inductive ToastEvent where
  | shown (toast : Toast)
  | dismissed (id : Uuid)
  deriving DecidableEq, Repr

/-- A page to go to. -/
inductive NavigationEvent where
  /-- Leave the room page. -/
  | redirect (location : String)
  /-- Open the address of a download. -/
  | download (url : String)
  deriving DecidableEq, Repr

/-- An announcement of a room page. -/
inductive Event where
  | room (event : RoomEvent)
  | toast (event : ToastEvent)
  | navigation (event : NavigationEvent)
  deriving DecidableEq, Repr

namespace Event

/-- The family of an event. -/
def kind : Event → String
  | .room _ => "room"
  | .toast _ => "notification"
  | .navigation _ => "navigation"

/-- Where a redirect goes. -/
def redirectLocation? : Event → Option String
  | .navigation (.redirect location) => some location
  | _ => none

/-! ### Document form -/

/-- The members of news of the room. -/
def roomMembers : RoomEvent → List (String × Json)
  | .viewUpdated view => [("action", .string "view_updated"), ("view", view.toJson)]
  | .terminated reason => [("action", .string "terminated"), ("reason", .string reason)]

/-- The members of news of a toast. -/
def toastMembers : ToastEvent → List (String × Json)
  | .shown shown => [("action", .string "shown"), ("notification", shown.toJson)]
  | .dismissed id => [("action", .string "dismissed"), ("id", .string id.render)]

/-- The members of a navigation. -/
def navigationMembers : NavigationEvent → List (String × Json)
  | .redirect location => [("action", .string "redirect"), ("location", .string location)]
  | .download url => [("action", .string "download"), ("url", .string url)]

/-- An event as a JSON value. -/
def toJson (event : Event) : Json :=
  .object (("kind", .string event.kind) ::
    match event with
    | .room e => roomMembers e
    | .toast e => toastMembers e
    | .navigation e => navigationMembers e)

/-- The decoder of news of the room. -/
def roomDecoder : Json.Decoder RoomEvent :=
  Json.tagged "action" [
    ("view_updated",
      (Json.Record.start RoomEvent.viewUpdated |>.required "view" Room.View.decoder).decoder),
    ("terminated", (Json.Record.start RoomEvent.terminated |>.required "reason" .string).decoder)]

/-- The decoder of news of a toast. -/
def toastDecoder : Json.Decoder ToastEvent :=
  Json.tagged "action" [
    ("shown",
      (Json.Record.start ToastEvent.shown |>.required "notification" Toast.decoder).decoder),
    ("dismissed",
      (Json.Record.start ToastEvent.dismissed |>.required "id" Toast.idDecoder).decoder)]

/-- The decoder of a navigation. -/
def navigationDecoder : Json.Decoder NavigationEvent :=
  Json.tagged "action" [
    ("redirect",
      (Json.Record.start NavigationEvent.redirect |>.required "location" .string).decoder),
    ("download", (Json.Record.start NavigationEvent.download |>.required "url" .string).decoder)]

/-- The decoder of an event. -/
def decoder : Json.Decoder Event :=
  Json.tagged "kind" [
    ("room", .map .room roomDecoder),
    ("notification", .map .toast toastDecoder),
    ("navigation", .map .navigation navigationDecoder)]

/-- An event with its identity and time. -/
structure Envelope where
  id : Uuid
  timestamp : DateTime
  event : Event
  deriving DecidableEq, Repr

/-- An envelope as a JSON value. -/
def Envelope.toJson (envelope : Envelope) : Json :=
  .object [
    ("id", .string envelope.id.render),
    ("timestamp", envelope.timestamp.toJsonUtc),
    ("event", envelope.event.toJson)]

/-- The decoder of an envelope. -/
def Envelope.decoder : Json.Decoder Envelope :=
  (Json.Record.start Envelope.mk
    |>.required "id" Toast.idDecoder
    |>.required "timestamp" DateTime.universal
    |>.required "event" Event.decoder).decoder

end Event

end DropRoom
