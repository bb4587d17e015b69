import DropRoom.Json.Record
import DropRoom.Time.Json
import DropRoom.Uuid

namespace DropRoom

/-!
# Toasts

A toast is a short message to the user that disappears by itself, unless it is to
stay until it is removed.

* `Toast.Severity`, `Toast.Lifetime`, `Toast` — the types;
* `Toast.decoder`, `Toast.toJson` — their document form.
-/

namespace Toast

/-- What kind of news a toast brings. -/
inductive Severity where
  | info
  | success
  | error
  | warning
  deriving DecidableEq, Repr

/-- The style class of the icon that a toast is shown with. -/
def Severity.iconClass : Severity → String
  | .info => "ri-information-line"
  | .success => "ri-check-line"
  | .error => "ri-error-warning-line"
  | .warning => "ri-alert-line"

/-- The name of a severity. -/
def Severity.name : Severity → String
  | .info => "info"
  | .success => "success"
  | .error => "error"
  | .warning => "warning"

/-- The names of the severities. -/
def Severity.names : List (String × Severity) :=
  [("info", .info), ("success", .success), ("error", .error), ("warning", .warning)]

/-- The decoder of a severity. -/
def Severity.decoder : Json.Decoder Severity :=
  .name names

/-- How long a toast stays. -/
inductive Lifetime where
  /-- So many milliseconds. -/
  | timed (milliseconds : UInt64)
  /-- Until it is removed. -/
  | untilRemoved
  deriving DecidableEq, Repr

/-- A lifetime as a JSON value. -/
def Lifetime.toJson : Lifetime → Json
  | .timed ms => .object [("type", .string "timed"), ("millis", .nat ms.toNat)]
  | .untilRemoved => .object [("type", .string "until_removed")]

/-- The decoder of a lifetime. -/
def Lifetime.decoder : Json.Decoder Lifetime :=
  Json.tagged "type" [
    ("timed", (Json.Record.start Lifetime.timed |>.required "millis" .uint64).decoder),
    ("until_removed", Json.unitVariant .untilRemoved)]

end Toast

/-- A message to the user. -/
structure Toast where
  id : Uuid
  message : String
  severity : Toast.Severity
  createdAt : DateTime
  lifetime : Toast.Lifetime
  deriving DecidableEq, Repr

namespace Toast

/-- The decoder of an identifier. -/
def idDecoder : Json.Decoder Uuid :=
  .bind .string fun s =>
    match Uuid.parse? s with
    | some id => .ok id
    | none => .error .mismatch

/-- A toast as a JSON value. -/
def toJson (toast : Toast) : Json :=
  .object [
    ("id", .string toast.id.render),
    ("message", .string toast.message),
    ("severity", .string toast.severity.name),
    ("created_at", toast.createdAt.toJsonUtc),
    ("lifetime", toast.lifetime.toJson)]

/-- The decoder of a toast. -/
def decoder : Json.Decoder Toast :=
  (Json.Record.start Toast.mk
    |>.required "id" idDecoder
    |>.required "message" .string
    |>.required "severity" Severity.decoder
    |>.required "created_at" DateTime.universal
    |>.required "lifetime" Lifetime.decoder).decoder

end Toast

end DropRoom
