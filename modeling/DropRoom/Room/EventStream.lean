import DropRoom.Bytes.Utf8
import DropRoom.Text.Ascii

namespace DropRoom.Room

/-!
# Event streams

The body of a stream is a text of lines.  Each line gives a field of an event, and
a blank line ends the event.  Bytes that are no text are held back until the body
ends.

* `PushEvent` — an event, and `Ending`, how a body ends;
* `EventStream.lines` — the lines of a text; a line without its end is left out;
* `EventStream.events` — the events of lines;
* `EventStream.read` — the events of a body, and how it ends.
-/

/-- An event of a stream. -/
structure PushEvent where
  /-- The name of the event; `message` where it is given none. -/
  name : String
  payload : String
  deriving DecidableEq, Repr

/-- Whether an event carries a snapshot: those without a name of their own do. -/
def PushEvent.isSnapshot (event : PushEvent) : Bool :=
  event.name == "" || event.name == "message"

/-- How the body of a stream ends. -/
inductive Ending where
  /-- The server ended it. -/
  | ended
  /-- It broke. -/
  | broken (reason : String)
  deriving DecidableEq, Repr

namespace EventStream

/-- The lines of a text, ended by a line feed, a carriage return or both.  A carriage return that
is the last character is no line end yet; `current` holds the start of a line, last character
first. -/
def linesFrom (current : List Char) : List Char → List (List Char)
  | [] => []
  | '\r' :: '\n' :: cs => current.reverse :: linesFrom [] cs
  | ['\r'] => []
  | '\r' :: cs => current.reverse :: linesFrom [] cs
  | '\n' :: cs => current.reverse :: linesFrom [] cs
  | c :: cs => linesFrom (c :: current) cs

/-- The lines of a text. -/
def lines (cs : List Char) : List (List Char) :=
  linesFrom [] cs

/-- The name and value of a field; a blank after the colon is no part of the value. -/
def fieldOf (line : List Char) : List Char × List Char :=
  match Text.cut ':' line with
  | none => (line, [])
  | some (name, ' ' :: value) => (name, value)
  | some (name, value) => (name, value)

/-- An event that is not complete: its name, and its payload with a line feed after each line. -/
structure Draft where
  name : List Char
  payload : List Char

/-- The event of a draft, if it has a payload. -/
def Draft.finish? (draft : Draft) : Option PushEvent :=
  if draft.payload = [] then none
  else some {
    name := if draft.name = [] then "message" else String.ofList draft.name
    payload := String.ofList draft.payload.dropLast }

/-- The events of lines.  An event that is not complete is left out. -/
def eventsFrom (draft : Draft) : List (List Char) → List PushEvent
  | [] => []
  | [] :: rest => draft.finish?.toList ++ eventsFrom ⟨[], []⟩ rest
  | line :: rest =>
    match fieldOf line with
    | (['e', 'v', 'e', 'n', 't'], value) => eventsFrom { draft with name := value } rest
    | (['d', 'a', 't', 'a'], value) =>
      eventsFrom { draft with payload := draft.payload ++ value ++ ['\n'] } rest
    | _ => eventsFrom draft rest

/-- The events of a text. -/
def events (cs : List Char) : List PushEvent :=
  eventsFrom ⟨[], []⟩ (lines cs)

/-- How a complete body ends: bytes that are no text are found at its end. -/
def endingOf (stop : Utf8.Stop) : Ending :=
  match stop with
  | .finished => .ended
  | .invalid count =>
    .broken ("UTF8 error: invalid utf-8 sequence of " ++ toString count ++ " bytes from index 0")
  | .incomplete => .broken "UTF8 error: incomplete utf-8 byte sequence from index 0"

/-- The events of a body that was received in chunks, and how it ends; `broke` says that the
connection broke. -/
def read (chunks : List Bytes) (broke : Bool) : List PushEvent × Ending :=
  let (cs, _, stop) := Utf8.scan chunks.flatten
  (events cs, if broke then .broken "Transport error: error decoding response body"
    else endingOf stop)

end EventStream

end DropRoom.Room
