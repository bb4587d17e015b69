import DropRoom.Http.Json
import DropRoom.Proxy

namespace DropRoom.Proxy

/-!
# Requests of the browser within documents

* `Incoming.ofJson?` — a request, if its target is one.
-/

open Http (Body Target)

/-- The headers of a JSON value, whose values may be any bytes. -/
def rawHeaders (j : Json) : List (String × Bytes) :=
  j.elements.filterMap fun
    | .array [.string name, value] => some (name, Bytes.ofJson value)
    | _ => none

/-- The body of a JSON value: in parts, after which it may break off, or as a whole. -/
def bodyOf (failure : Option String) (j : Json) : Body :=
  match j.field "chunks", Bytes.ofJson (j.field "body") with
  | .array parts, _ => ⟨parts.map Bytes.ofJson, failure⟩
  | _, [] => .empty
  | _, bytes => .ofBytes bytes

/-- The request of a JSON value, if its target is one.  A body in parts may break off. -/
def Incoming.ofJson? (failure : Option String) (j : Json) : Option Incoming :=
  (Target.parse? (((j.field "uri").text?).getD "")).map fun target =>
    ⟨((j.field "method").text?).getD "GET", target, rawHeaders (j.field "headers"), bodyOf failure j⟩

end DropRoom.Proxy
