import DropRoom.Json.Value
import DropRoom.Text.Ascii

namespace DropRoom.Json

/-!
# Writing JSON

Values are written without any space.  In a text the quote, the backslash and
the control characters below `U+0020` are escaped, with the short escape where
there is one; every other character stands for itself.

* `escaped` — the characters that stand for one character of a text;
* `chars`, `render` — the text of a value.
-/

open DropRoom.Text

/-- The characters that stand for one character between the quotes. -/
def escaped (c : Char) : List Char :=
  if c = '"' then ['\\', '"']
  else if c = '\\' then ['\\', '\\']
  else if c = '\n' then ['\\', 'n']
  else if c = '\r' then ['\\', 'r']
  else if c = '\t' then ['\\', 't']
  else if c.toNat = 8 then ['\\', 'b']
  else if c.toNat = 12 then ['\\', 'f']
  else if c.toNat < 32 then
    ['\\', 'u', '0', '0', hexDigitLower (c.toNat / 16), hexDigitLower (c.toNat % 16)]
  else [c]

/-- A text between quotes. -/
def quoted (s : String) : List Char :=
  '"' :: s.toList.flatMap escaped ++ ['"']

/-- The digits of an integer, a minus sign in front where it is negative. -/
def integerChars (n : Int) : List Char :=
  if n < 0 then '-' :: digitsOf n.natAbs else digitsOf n.natAbs

/-- The text of a number; a decimal is written with its exponent. -/
def Numeral.chars : Numeral → List Char
  | .integer value => integerChars value
  | .decimal negative coefficient exponent =>
    (if negative then ['-'] else []) ++ digitsOf coefficient ++ 'e' :: integerChars exponent

mutual

/-- The text of a value. -/
def chars : Json → List Char
  | .null => ['n', 'u', 'l', 'l']
  | .bool true => ['t', 'r', 'u', 'e']
  | .bool false => ['f', 'a', 'l', 's', 'e']
  | .number n => n.chars
  | .string s => quoted s
  | .array [] => ['[', ']']
  | .array (item :: items) => '[' :: chars item ++ moreItems items
  | .object [] => ['{', '}']
  | .object ((name, value) :: members) =>
    '{' :: quoted name ++ ':' :: chars value ++ moreMembers members

/-- The items after the first, and the closing bracket. -/
def moreItems : List Json → List Char
  | [] => [']']
  | item :: items => ',' :: chars item ++ moreItems items

/-- The members after the first, and the closing brace. -/
def moreMembers : List (String × Json) → List Char
  | [] => ['}']
  | (name, value) :: members =>
    ',' :: quoted name ++ ':' :: chars value ++ moreMembers members

end

/-- The text of a value. -/
def render (j : Json) : String :=
  String.ofList (chars j)

end DropRoom.Json
