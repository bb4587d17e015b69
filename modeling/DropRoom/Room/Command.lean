import DropRoom.Api.Client
import DropRoom.Error
import DropRoom.Room.Visit

namespace DropRoom.Room

/-!
# Commands of the user

* `Command` — what the user wants;
* `Command.execute` — do it, with toasts on the page;
* `Visit.perform` — do it, and leave the room where that is what it means;
* `StartFailure` — why there is no visit, and `Machine`, what it needs of the machine;
* `Visit.startOn`, `Visit.start` — a visit with checked settings.
-/

/-- What the user wants. -/
inductive Command where
  | upload (files : List File.Upload)
  | download (id : String)
  | deleteFiles (ids : List String)
  | leaveRoom
  | deleteRoom
  deriving DecidableEq, Repr

/-- The name of a command. -/
def Command.name : Command → String
  | .upload _ => "upload"
  | .download _ => "download"
  | .deleteFiles _ => "delete_files"
  | .leaveRoom => "leave_room"
  | .deleteRoom => "delete_room"

/-- What a command that succeeded means for the page. -/
inductive CommandEffect where
  | stay
  /-- The user is no longer in the room. -/
  | exitRoom
  deriving DecidableEq, Repr

/-- Keep what the result of an action means for the page. -/
def meaning {α : Type} (effect : CommandEffect) (result : Api.Result α) : Api.Result CommandEffect :=
  (result.1.map fun _ => effect, result.2)

/-- Do what the user wants. -/
def Command.execute [File.MediaTypes] (command : Command) (server : Api.Server) (base : Url)
    (page : Page) : Api.Result CommandEffect :=
  match command with
  | .upload files => meaning .stay (Api.upload server base files page)
  | .download id => meaning .stay (Api.requestDownload server base id page)
  | .deleteFiles ids => meaning .stay (Api.deleteFiles server base ids page)
  | .leaveRoom => meaning .exitRoom (Api.leaveRoom server base page)
  | .deleteRoom => meaning .exitRoom (Api.deleteRoom server base page)

/-- Whether the room page is over after a command: the user left, or the room is gone. -/
def endsVisit : Except Api.RequestError CommandEffect → Bool
  | .ok .exitRoom => true
  | .ok .stay => false
  | .error e => e.isRoomExpired

/-- Do what the user wants, and leave the room where that is what it means. -/
def Visit.perform [File.MediaTypes] (v : Visit) (server : Api.Server) (base : Url)
    (command : Command) : Except Api.RequestError CommandEffect × Visit :=
  let (result, page) := command.execute server base v.page
  let v := { v with page := page }
  (result, if endsVisit result then v.exitRoom else v)

/-- What is said where a client of the network cannot be made. -/
def noClientText : String := "Failed to initialise HTTP client"

/-- Why there is no visit. -/
inductive StartFailure where
  /-- An error that the caller is told. -/
  | refused (e : ClientError)
  /-- The program broke off where it makes the bus. -/
  | brokeOff (e : Bus.Breakdown)
  deriving DecidableEq, Repr

/-- The short code that the caller is told: none where the program broke off. -/
def StartFailure.code : StartFailure → String
  | .refused e => e.code
  | .brokeOff _ => ""

/-- The text that the caller is told: none where the program broke off. -/
def StartFailure.message : StartFailure → String
  | .refused e => e.message
  | .brokeOff _ => ""

/-- What a visit needs of the machine that it is made on. -/
structure Machine where
  /-- A client of the network, or why it could not be made. -/
  client : Except String Unit
  /-- Whether there is memory for so many events. -/
  hasRoomFor : Nat → Bool

/-- A machine that has all that is needed. -/
def Machine.able : Machine :=
  ⟨.ok (), fun _ => true⟩

/-- The same visit with another bus. -/
def Visit.onBus (v : Visit) (bus : Bus Event) : Visit :=
  { v with page := { v.page with bus := bus } }

/-- A visit with checked settings on a machine, and the address of the server. -/
def Visit.startOn [Url.DomainNames] (machine : Machine) (settings : Settings) :
    Except StartFailure (Visit × Url) :=
  match settings.check with
  | .error e => .error (.refused (.settings e))
  | .ok () =>
    match machine.client with
    | .error cause => .error (.refused (.request (.transport noClientText cause)))
    | .ok () =>
      match settings.base with
      | .error e => .error (.refused (.settings e))
      | .ok base =>
        match Bus.create machine.hasRoomFor settings.eventCapacity.toNat with
        | .error e => .error (.brokeOff e)
        | .ok bus =>
          match Visit.ofSettings settings with
          | .error e => .error (.refused (.stream e))
          | .ok v => .ok (v.onBus bus, base)

/-- A visit with checked settings, and the address of the server. -/
def Visit.start [Url.DomainNames] : Settings → Except StartFailure (Visit × Url) :=
  Visit.startOn .able

end DropRoom.Room
