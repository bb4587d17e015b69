namespace DropRoom.Text

/-!
# Blank characters

The characters with the Unicode property `White_Space`.  A text is *blank* when it
holds no other character.

* `isBlankChar` — the table of the property;
* `trimStart` — drop blank characters at the front;
* `isBlank` — whether a text holds no other character.
-/

/-- The Unicode property `White_Space`. -/
def isBlankChar (c : Char) : Bool :=
  let n := c.toNat
  (9 ≤ n && n ≤ 13) || n == 0x20 || n == 0x85 || n == 0xA0 || n == 0x1680 ||
    (0x2000 ≤ n && n ≤ 0x200A) || n == 0x2028 || n == 0x2029 || n == 0x202F ||
    n == 0x205F || n == 0x3000

/-- Drop blank characters at the front. -/
def trimStart (cs : List Char) : List Char :=
  cs.dropWhile isBlankChar

/-- Whether every character is blank, as in the empty text. -/
def isBlank (s : String) : Bool :=
  s.toList.all isBlankChar

end DropRoom.Text
