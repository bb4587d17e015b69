namespace DropRoom

/-!
# JSON values

The values that documents on the wire are written from.  Objects keep the order
of their members.

* `Json.Numeral` — a number, an integer apart from a decimal fraction;
* `Json` — null, truth values, numbers, texts, arrays and objects;
* `Json.member?` — the value under a name of an object.
-/

namespace Json

/-- A number as JSON writes it.  An integer has neither a fraction nor an exponent, and the
negative zero is a decimal. -/
inductive Numeral where
  /-- An integer. -/
  | integer (value : Int)
  /-- `coefficient · 10 ^ exponent`, with its sign. -/
  | decimal (negative : Bool) (coefficient : Nat) (exponent : Int)
  deriving DecidableEq, Repr, Inhabited

/-- Half a unit of the last place above the largest double of 53 bits, `2 ^ 1024 - 2 ^ 970`. -/
def doubleLimit : Nat := Nat.pow 2 1024 - Nat.pow 2 970

/-- Whether a number is at least half a unit of the last place above the largest double of 53
bits, so that no double is near it: `coefficient · 10 ^ exponent ≥ 2 ^ 1024 - 2 ^ 970`. -/
def Numeral.overflows : Numeral → Bool
  | .integer value => doubleLimit ≤ value.natAbs
  | .decimal _ coefficient exponent =>
    if coefficient = 0 then false
    else
      let digits : Int := (Nat.toDigits 10 coefficient).length
      if digits + exponent > 310 then true
      else if digits + exponent < 300 then false
      else if exponent ≥ 0 then doubleLimit ≤ coefficient * Nat.pow 10 exponent.toNat
      else doubleLimit * Nat.pow 10 (-exponent).toNat ≤ coefficient

end Json

/-- A JSON value. -/
inductive Json where
  | null
  | bool (value : Bool)
  | number (value : Json.Numeral)
  | string (value : String)
  | array (items : List Json)
  | object (members : List (String × Json))
  deriving Repr, Inhabited

namespace Json

/-- A natural number as a JSON value. -/
def nat (n : Nat) : Json :=
  .number (.integer n)

/-- An integer as a JSON value. -/
def int (n : Int) : Json :=
  .number (.integer n)

/-- An array of texts. -/
def strings (texts : List String) : Json :=
  .array (texts.map .string)

/-- A value that may be missing, written `null` where it is. -/
def optional {α : Type} (write : α → Json) : Option α → Json
  | none => .null
  | some a => write a

/-- The value under a name of an object: the last one, where the name is repeated. -/
def member? (name : String) : Json → Option Json
  | .object members => (members.reverse.find? fun entry => entry.1 == name).map (·.2)
  | _ => none

end Json

end DropRoom
