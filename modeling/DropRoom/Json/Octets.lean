import DropRoom.Json.Decoder

namespace DropRoom.Json

/-!
# Documents in octets

A body need not be a text.  Octets that belong to no character do no harm where they stand between
quotes in a part that is passed over; a text that is read may not hold them, and elsewhere JSON has
no place for them.

* `charsOfOctets` — the characters of octets, with something in the place of those that belong to
  none;
* `decodeOctets?` — the document of octets.
-/

open Utf8 (front)

/-- What stands for octets without a character.  Between quotes these are two escapes, the second
of which is half of a surrogate pair, whatever comes before or after: a text with it can be passed
over, but not read.  After a backslash and outside of quotes it is a character that JSON has no
place for. -/
def noCharacter (quoted escaped : Bool) : List Char :=
  if quoted && !escaped then "\\u0000\\udc00".toList else ['\uFFFD']

/-- The characters of octets, of which there are at most so many; `quoted` between quotes, and
`escaped` right after a backslash there. -/
def charsOfOctets (quoted escaped : Bool) : Nat → Bytes → List Char
  | 0, _ => []
  | most + 1, octets =>
    match front octets with
    | .finished => []
    | .char c rest =>
      c :: charsOfOctets (if c = '"' ∧ ¬ escaped then !quoted else quoted)
        (quoted && !escaped && c == '\\') most rest
    | .invalid length =>
      noCharacter quoted escaped ++ charsOfOctets quoted false most (octets.drop length)
    | .incomplete => noCharacter quoted escaped

/-- The document of octets that hold one and nothing else. -/
def decodeOctets? {α : Type} (decode : Decoder α) (octets : Bytes) : Option α :=
  (decodeText decode (String.ofList (charsOfOctets false false octets.length octets))).toOption

end DropRoom.Json
