namespace DropRoom.Yaml

/-!
# A place in a YAML text

* `Cursor` — what is left of a text, and where that starts;
* `Cursor.skip` — the place so many characters further;
* `Cursor.atMarker` — whether a line of three dashes or points starts here;
* `isBlank`, `isBreak`, `isFlowMark`, `isAllowed` — classes of characters.
-/

/-! ### Characters -/

/-- A space or tab. -/
def isBlank (c : Char) : Bool :=
  c == ' ' || c == '\t'

/-- A line end: a line feed, or one of the separators of lines and of paragraphs. -/
def isBreak (c : Char) : Bool :=
  c == '\n' || c == '\u2028' || c == '\u2029'

/-- A blank or line end. -/
def isSpacing (c : Char) : Bool :=
  isBlank c || isBreak c

/-- Whether a blank, a line end or nothing comes next. -/
def isSpacingOrEnd : List Char → Bool
  | [] => true
  | c :: _ => isSpacing c

/-- A character that has a meaning of its own within brackets. -/
def isFlowMark (c : Char) : Bool :=
  c == ',' || c == '[' || c == ']' || c == '{' || c == '}'

/-- A character of the name of an anchor, of a directive, or of a handle. -/
def isNameChar (c : Char) : Bool :=
  c.isAlphanum || c == '_' || c == '-'

/-- A character that a text may hold: no control character but tab and line ends. -/
def isAllowed (c : Char) : Bool :=
  c == '\t' || c == '\n' || c == '\r' || c == '\u0085' ||
    ('\u0020' ≤ c && c ≤ '\u007e') || ('\u00a0' ≤ c && c ≤ '\ufffd') || '\uffff' < c

/-- The mark of the order of bytes. -/
def byteOrderMark : Char :=
  '\ufeff'

/-- Line ends as single line feeds. -/
def unifyLineEnds : List Char → List Char
  | '\r' :: '\n' :: cs => '\n' :: unifyLineEnds cs
  | '\r' :: cs => '\n' :: unifyLineEnds cs
  | '\u0085' :: cs => '\n' :: unifyLineEnds cs
  | c :: cs => c :: unifyLineEnds cs
  | [] => []

/-! ### Places -/

/-- A place in a text. -/
structure Cursor where
  rest : List Char
  column : Nat
  line : Nat
  /-- The number of characters before it. -/
  index : Nat

namespace Cursor

/-- The start of a text. -/
def start (cs : List Char) : Cursor :=
  ⟨unifyLineEnds (if cs.head? = some byteOrderMark then cs.drop 1 else cs), 0, 0, 0⟩

/-- The place after the next character. -/
def next (c : Cursor) : Cursor :=
  match c.rest with
  | [] => c
  | d :: rest =>
    if isBreak d then ⟨rest, 0, c.line + 1, c.index + 1⟩
    else ⟨rest, c.column + 1, c.line, c.index + 1⟩

/-- The place so many characters further. -/
def skip (c : Cursor) : Nat → Cursor
  | 0 => c
  | n + 1 => c.next.skip n

/-- The place after the characters of a kind. -/
def skipWhile (c : Cursor) (p : Char → Bool) : Cursor :=
  c.skip (c.rest.takeWhile p).length

/-- The rest of the line. -/
def lineRest (c : Cursor) : List Char :=
  c.rest.takeWhile fun d => !isBreak d

/-- Whether the given character comes next. -/
def at? (c : Cursor) (d : Char) : Bool :=
  c.rest.head? == some d

/-- Whether the given mark stands here with a blank, a line end or nothing after it. -/
def atMark (c : Cursor) (mark : Char) : Bool :=
  c.at? mark && isSpacingOrEnd (c.rest.drop 1)

/-- Whether a line of three dashes starts here. -/
def atDashes (c : Cursor) : Bool :=
  c.column == 0 && c.rest.take 3 == ['-', '-', '-'] && isSpacingOrEnd (c.rest.drop 3)

/-- Whether a line of three points starts here. -/
def atPoints (c : Cursor) : Bool :=
  c.column == 0 && c.rest.take 3 == ['.', '.', '.'] && isSpacingOrEnd (c.rest.drop 3)

/-- Whether a line of three dashes or three points starts here. -/
def atMarker (c : Cursor) : Bool :=
  c.atDashes || c.atPoints

end Cursor

end DropRoom.Yaml
