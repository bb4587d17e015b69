import DropRoom.Text.Ascii

namespace DropRoom

/-!
# Identifiers of 128 bits

* `Uuid` — an identifier;
* `Uuid.render` — 32 lower-case hexadecimal digits in five groups;
* `Uuid.parse?` — the groups with or without dashes, in braces, or as a name of
  the `urn` scheme, with digits of either case.
-/

open DropRoom.Text

/-- How many identifiers there are. -/
abbrev Uuid.size : Nat := 0x100000000000000000000000000000000

/-- An identifier of 128 bits. -/
structure Uuid where
  value : Nat
  value_lt : value < Uuid.size
  deriving DecidableEq, Repr

namespace Uuid

/-- The identifier of a number, of which only the low 128 bits count. -/
def ofNat (n : Nat) : Uuid :=
  ⟨n % size, Nat.mod_lt _ (by decide)⟩

/-- The last `count` hexadecimal digits of a number, most significant first. -/
def hexDigits : Nat → Nat → List Char
  | 0, _ => []
  | count + 1, n => hexDigits count (n / 16) ++ [hexDigitLower (n % 16)]

/-- Put dashes between the five groups of 32 digits. -/
def grouped (digits : List Char) : List Char :=
  digits.take 8 ++ '-' :: (digits.drop 8).take 4 ++ '-' :: (digits.drop 12).take 4 ++
    '-' :: (digits.drop 16).take 4 ++ '-' :: digits.drop 20

/-- The groups of 8, 4, 4, 4 and 12 digits with dashes between them. -/
def render (id : Uuid) : String :=
  String.ofList (grouped (hexDigits 32 id.value))

/-- The number that hexadecimal digits denote. -/
def hexNumber? : Nat → List Char → Option Nat
  | n, [] => some n
  | n, c :: cs =>
    match hexValue? c with
    | some d => hexNumber? (16 * n + d) cs
    | none => none

/-- The identifier of exactly 32 hexadecimal digits. -/
def ofDigits? (cs : List Char) : Option Uuid :=
  if cs.length = 32 then (hexNumber? 0 cs).map ofNat else none

/-- The identifier of five groups of digits with dashes between them. -/
def ofGroups? (cs : List Char) : Option Uuid :=
  match splitAt '-' cs with
  | [a, b, c, d, e] =>
    if a.length = 8 ∧ b.length = 4 ∧ c.length = 4 ∧ d.length = 4 ∧ e.length = 12 then
      ofDigits? (a ++ b ++ c ++ d ++ e)
    else none
  | _ => none

/-- The identifier that a text names. -/
def parse? (s : String) : Option Uuid :=
  let cs := s.toList
  match cs.length, cs with
  | 32, _ => ofDigits? cs
  | 36, _ => ofGroups? cs
  | 38, '{' :: rest => if rest.getLast? = some '}' then ofGroups? rest.dropLast else none
  | 45, _ => (strip? "urn:uuid:".toList cs).bind ofGroups?
  | _, _ => none

end Uuid

end DropRoom
