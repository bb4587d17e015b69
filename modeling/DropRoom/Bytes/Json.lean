import DropRoom.Bytes.Utf8
import DropRoom.Json.Access
import DropRoom.Text.Ascii

namespace DropRoom.Bytes

/-!
# Byte sequences within documents

A byte sequence that is UTF-8 is written as its text, and any other one as an object
with its hexadecimal digits.
-/

open DropRoom.Text

/-- Two hexadecimal digits for each octet. -/
def hexChars (bs : Bytes) : List Char :=
  bs.flatMap fun b => [hexDigitLower (b.toNat / 16), hexDigitLower (b.toNat % 16)]

/-- The octets of pairs of hexadecimal digits, up to the first that is none. -/
def ofHexChars : List Char → Bytes
  | a :: b :: rest =>
    match hexValue? a, hexValue? b with
    | some m, some n => UInt8.ofNat (16 * m + n) :: ofHexChars rest
    | _, _ => []
  | _ => []

/-- A byte sequence as a JSON value. -/
def toJson (bs : Bytes) : Json :=
  match Utf8.decode? bs with
  | some s => .string s
  | none => .object [("hex", .string (String.ofList (hexChars bs)))]

/-- The byte sequence of a JSON value; values of other forms stand for the empty one. -/
def ofJson : Json → Bytes
  | .string s => Utf8.encode s
  | j => ofHexChars (((j.field "hex").text?).getD "").toList

end DropRoom.Bytes
