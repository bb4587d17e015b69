import DropRoom.Bytes.Utf8
import DropRoom.Text.Ascii

namespace DropRoom.Url

/-!
# Percent-encoding

A character that a part of an address cannot hold is written as the octets of its
UTF-8 form, each as `%` and two upper-case hexadecimal digits.  Control characters
and characters beyond ASCII are encoded everywhere; each part adds characters of
its own.

* `percentEncode` — encode the characters that a set names;
* `inFragment`, `inQuery`, `inSpecialQuery`, `inPath`, `inSegment`, `inUserinfo` —
  the sets of the parts;
* `percentDecode` — the octets that an encoded text stands for.
-/

open DropRoom.Text

/-- An octet as `%` and two digits. -/
def percentByte (b : UInt8) : List Char :=
  ['%', hexDigitUpper (b.toNat / 16), hexDigitUpper (b.toNat % 16)]

/-- Whether a character is encoded in every part. -/
def alwaysEncoded (c : Char) : Bool :=
  c.toNat < 0x20 || 0x7F ≤ c.toNat

/-- Encode the characters of a set, and those that are always encoded. -/
def percentEncode (inSet : Char → Bool) (cs : List Char) : List Char :=
  cs.flatMap fun c =>
    if alwaysEncoded c || inSet c then (Utf8.encodeChar c).flatMap percentByte else [c]

/-- No character beyond those always encoded. -/
def inNothing (_ : Char) : Bool := false

/-- The characters that a fragment encodes. -/
def inFragment (c : Char) : Bool :=
  c == ' ' || c == '"' || c == '<' || c == '>' || c == '\x60'

/-- The characters that a query encodes. -/
def inQuery (c : Char) : Bool :=
  c == ' ' || c == '"' || c == '#' || c == '<' || c == '>'

/-- The characters that the query of a special scheme encodes. -/
def inSpecialQuery (c : Char) : Bool :=
  inQuery c || c == '\''

/-- The characters that a path encodes. -/
def inPath (c : Char) : Bool :=
  inFragment c || c == '#' || c == '?' || c == '{' || c == '}'

/-- The characters that a single segment of a path encodes: also the percent sign and what would
end the segment. -/
def inSegment (special : Bool) (c : Char) : Bool :=
  inPath c || c == '/' || c == '%' || (special && c == '\\')

/-- The characters that a user name or password encodes. -/
def inUserinfo (c : Char) : Bool :=
  inPath c || c == '/' || c == ':' || c == ';' || c == '=' || c == '@' || c == '[' ||
    c == '\\' || c == ']' || c == '^' || c == '|'

/-- The octets that an encoded text stands for.  A percent sign without two digits stands for
itself. -/
def percentDecode : List Char → Bytes
  | '%' :: a :: b :: rest =>
    match hexValue? a, hexValue? b with
    | some m, some n => UInt8.ofNat (16 * m + n) :: percentDecode rest
    | _, _ => Utf8.encodeChar '%' ++ percentDecode (a :: b :: rest)
  | c :: rest => Utf8.encodeChar c ++ percentDecode rest
  | [] => []

end DropRoom.Url
