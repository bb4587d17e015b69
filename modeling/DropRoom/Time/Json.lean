import DropRoom.Json.Decoder
import DropRoom.Time.Printer
import DropRoom.Time.Reader

namespace DropRoom.DateTime

/-!
# Points in time within documents

* `timestamp` — a local point in time; an offset, where one is given, is dropped;
* `universal` — a point in universal time.
-/

/-- A local point in time. -/
def timestamp : Json.Decoder DateTime :=
  .bind .string fun s =>
    match timestamp? s with
    | some t => .ok t
    | none => .error (.invalidTimestamp s)

/-- A point in universal time. -/
def universal : Json.Decoder DateTime :=
  .bind .string fun s =>
    match universal? s with
    | some t => .ok t
    | none => .error .mismatch

/-- A local point in time as a JSON value. -/
def toJson (t : DateTime) : Json :=
  .string t.render

/-- A point in universal time as a JSON value. -/
def toJsonUtc (t : DateTime) : Json :=
  .string t.renderUtc

end DropRoom.DateTime
