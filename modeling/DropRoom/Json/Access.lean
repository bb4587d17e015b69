import DropRoom.Json.Value

namespace DropRoom.Json

/-!
# Looking into values and changing them

* `text?`, `integer?`, `natural?`, `isTrue`, `elements`, `entries` — a value as a type;
* `field` — the value under a name, null where there is none;
* `withMember`, `overlay` — replace or add members of an object;
* `mapTexts` — replace every text of a value.
-/

/-- The value as a text. -/
def text? : Json → Option String
  | .string s => some s
  | _ => none

/-- The value as an integer. -/
def integer? : Json → Option Int
  | .number (.integer n) => some n
  | _ => none

/-- The value as a natural number. -/
def natural? (j : Json) : Option Nat :=
  match j.integer? with
  | some (.ofNat n) => some n
  | _ => none

/-- Whether the value is null. -/
def isNull : Json → Bool
  | .null => true
  | _ => false

/-- Whether the value is true. -/
def isTrue : Json → Bool
  | .bool b => b
  | _ => false

/-- The items of an array; other values have none. -/
def elements : Json → List Json
  | .array items => items
  | _ => []

/-- The members of an object; other values have none. -/
def entries : Json → List (String × Json)
  | .object members => members
  | _ => []

/-- The value under a name, null where there is none. -/
def field (j : Json) (name : String) : Json :=
  (j.member? name).getD .null

/-- Replace the member of a name, or add it. -/
def withMember (members : List (String × Json)) (member : String × Json) :
    List (String × Json) :=
  if members.any fun other => other.1 == member.1 then
    members.map fun other => if other.1 == member.1 then member else other
  else members ++ [member]

/-- Replace or add members. -/
def overlay (members : List (String × Json)) (changes : List (String × Json)) :
    List (String × Json) :=
  changes.foldl withMember members

mutual

/-- Replace every text of a value; names stay as they are. -/
def mapTexts (f : String → String) : Json → Json
  | .null => .null
  | .bool b => .bool b
  | .number n => .number n
  | .string s => .string (f s)
  | .array items => .array (mapItems f items)
  | .object members => .object (mapMembers f members)

/-- Replace every text of a list of values. -/
def mapItems (f : String → String) : List Json → List Json
  | [] => []
  | item :: items => mapTexts f item :: mapItems f items

/-- Replace every text of a list of members. -/
def mapMembers (f : String → String) : List (String × Json) → List (String × Json)
  | [] => []
  | (name, value) :: members => (name, mapTexts f value) :: mapMembers f members

end

end DropRoom.Json
