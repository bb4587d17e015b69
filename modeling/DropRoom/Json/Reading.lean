import DropRoom.Json.Value

namespace DropRoom.Json

/-!
# JSON text as far as it could be read

A reader of typed documents reports the first thing that is wrong with a text,
from left to right: a wrong shape at one place comes before broken JSON at a
later one.  So the tree of a text is kept even where the text is broken: it holds
everything before the break and a fault in the place of the rest.

* `Fault` — the text ended too early, or is not JSON;
* `Text` — a text between quotes, which may be readable or only skippable;
* `Reading`, `Items`, `Members` — the tree, with faults in the place of what could
  not be read;
* `Reading.skip` — pass over a value whatever it is: only broken JSON stops it;
* `Reading.complete` — the value of a tree without faults.
-/

/-- Why a text is not JSON. -/
inductive Fault where
  /-- The text ended before the value did. -/
  | ended
  /-- A character stands where JSON has no place for it. -/
  | malformed
  deriving DecidableEq, Repr

/-- A text between quotes. -/
inductive Text where
  /-- The text that the characters between the quotes stand for. -/
  | plain (value : String)
  /-- An escape stands for half of a surrogate pair alone.  There is no such character, so the
  text cannot be read, but it can be skipped unless a later fault follows. -/
  | unpaired (later : Option Fault)
  deriving DecidableEq, Repr

/-- The text, where there is one. -/
def Text.read : Text → Except Fault String
  | .plain s => .ok s
  | .unpaired _ => .error .malformed

/-- Pass over a text. -/
def Text.skip : Text → Except Fault Unit
  | .plain _ => .ok ()
  | .unpaired none => .ok ()
  | .unpaired (some f) => .error f

mutual

/-- The tree of a JSON text, as far as it could be read. -/
inductive Reading where
  | null
  | bool (value : Bool)
  | number (value : Numeral)
  | text (value : Text)
  | array (items : Items)
  | object (members : Members)
  /-- An array or object nested so deeply that it can be skipped but not read. -/
  | deep (value : Reading)
  /-- The text is broken here. -/
  | broken (fault : Fault)

/-- The items of an array, up to its end or a fault. -/
inductive Items where
  | close
  | broken (fault : Fault)
  | cons (item : Reading) (rest : Items)

/-- The members of an object, up to its end or a fault. -/
inductive Members where
  | close
  | broken (fault : Fault)
  | cons (name : Text) (value : Reading) (rest : Members)

end

deriving instance Repr, Inhabited for Reading, Items, Members

mutual

/-- Pass over a value: only broken JSON stops it. -/
def Reading.skip : Reading → Except Fault Unit
  | .null => .ok ()
  | .bool _ => .ok ()
  | .number _ => .ok ()
  | .text t => t.skip
  | .array items => items.skip
  | .object members => members.skip
  | .deep value => value.skip
  | .broken f => .error f

/-- Pass over the rest of an array. -/
def Items.skip : Items → Except Fault Unit
  | .close => .ok ()
  | .broken f => .error f
  | .cons item rest =>
    match item.skip with
    | .error f => .error f
    | .ok () => rest.skip

/-- Pass over the rest of an object. -/
def Members.skip : Members → Except Fault Unit
  | .close => .ok ()
  | .broken f => .error f
  | .cons name value rest =>
    match name.skip with
    | .error f => .error f
    | .ok () =>
      match value.skip with
      | .error f => .error f
      | .ok () => rest.skip

end

mutual

/-- The value of a tree without faults, with every text readable, every number within the range
of a double, and nothing nested too deeply. -/
def Reading.complete : Reading → Except Fault Json
  | .null => .ok .null
  | .bool b => .ok (.bool b)
  | .number n => if n.overflows then .error .malformed else .ok (.number n)
  | .text t => t.read.map .string
  | .array items => items.complete.map .array
  | .object members => members.complete.map .object
  | .deep _ => .error .malformed
  | .broken f => .error f

/-- The values of the rest of an array. -/
def Items.complete : Items → Except Fault (List Json)
  | .close => .ok []
  | .broken f => .error f
  | .cons item rest =>
    match item.complete with
    | .error f => .error f
    | .ok value => rest.complete.map (value :: ·)

/-- The members of the rest of an object. -/
def Members.complete : Members → Except Fault (List (String × Json))
  | .close => .ok []
  | .broken f => .error f
  | .cons name value rest =>
    match name.read with
    | .error f => .error f
    | .ok name =>
      match value.complete with
      | .error f => .error f
      | .ok value => rest.complete.map ((name, value) :: ·)

end

mutual

/-- The tree of a value. -/
def Reading.ofJson : Json → Reading
  | .null => .null
  | .bool b => .bool b
  | .number n => .number n
  | .string s => .text (.plain s)
  | .array items => .array (Items.ofList items)
  | .object members => .object (Members.ofList members)

/-- The items of a list of values. -/
def Items.ofList : List Json → Items
  | [] => .close
  | item :: items => .cons (Reading.ofJson item) (Items.ofList items)

/-- The members of a list of named values. -/
def Members.ofList : List (String × Json) → Members
  | [] => .close
  | (name, value) :: members =>
    .cons (.plain name) (Reading.ofJson value) (Members.ofList members)

end

end DropRoom.Json
