import DropRoom.Bytes.Utf8
import DropRoom.Yaml.Cursor
import DropRoom.Yaml.Node

namespace DropRoom.Yaml

/-!
# Tags and directives of YAML documents

A tag is written in full between angles, or as a handle and what the handle is
put in front of.  A directive before a document gives the version of the language
or the meaning of a handle.

* `Tag` — a tag as it is written, and `Tag.resolve?` the tag itself;
* `tag?`, `anchorName?` — what stands before a node;
* `directive?` — a line that starts with a percent sign.
-/

/-- A tag as it is written. -/
structure Tag where
  /-- Nothing for a tag in full. -/
  handle : String
  suffix : String
  deriving DecidableEq, Repr

/-- A line before a document. -/
inductive Directive where
  | version (major minor : Nat)
  /-- What a handle stands for. -/
  | handle (handle meaning : String)
  deriving DecidableEq, Repr

/-- What handles stand for where a document does not say otherwise. -/
def usualHandles : List (String × String) :=
  [("!", "!"), ("!!", coreTag "")]

/-- The tag itself, given what handles stand for. -/
def Tag.resolve? (handles : List (String × String)) (tag : Tag) : Option String :=
  if tag.handle = "" then some tag.suffix
  else (handles.lookup tag.handle).map (· ++ tag.suffix)

/-! ### Characters of tags -/

/-- A character of a tag. -/
def isTagChar (inFull : Bool) (c : Char) : Bool :=
  isNameChar c || ";/?:@&=+$.!~*'()%".toList.contains c || (inFull && ",[]".toList.contains c)

/-- The octets of a run of characters in which a percent sign and two digits stand for an
octet. -/
def tagOctets? : List Char → Option Bytes
  | '%' :: a :: b :: cs => do
    let n ← numeralIn? 16 [a, b]
    return UInt8.ofNat n :: (← tagOctets? cs)
  | '%' :: _ => none
  | c :: cs => do return Utf8.encodeChar c ++ (← tagOctets? cs)
  | [] => some []

/-- The text of a run of characters of a tag. -/
def tagText? (cs : List Char) : Option String :=
  (tagOctets? cs).bind Utf8.decode?

/-- The handle that comes next: exclamation marks around a name, or what looks like the start of
one. -/
def handleText (c : Cursor) : List Char :=
  let name := (c.rest.drop 1).takeWhile isNameChar
  let close := if (c.rest.drop (1 + name.length)).head? = some '!' then ['!'] else []
  '!' :: name ++ close

/-- Whether a text is a handle that a name or nothing fills. -/
def isClosedHandle (cs : List Char) : Bool :=
  2 ≤ cs.length && cs.getLast? == some '!'

/-- The tag that comes next, from its exclamation mark on, and the place after it. -/
def tag? (inFlow : Bool) (c : Cursor) : Option (Tag × Cursor) := do
  let (tag, after) ←
    if c.next.at? '<' then do
      let text := (c.rest.drop 2).takeWhile (isTagChar true)
      let after := c.skip (2 + text.length)
      if text.isEmpty ∨ ¬ after.at? '>' then none
      else some (Tag.mk "" (← tagText? text), after.next)
    else do
      let handle := handleText c
      let text := (c.rest.drop handle.length).takeWhile (isTagChar false)
      let after := c.skip (handle.length + text.length)
      if isClosedHandle handle then
        if text.isEmpty then none else some (⟨String.ofList handle, ← tagText? text⟩, after)
      else
        let suffix ← tagText? (handle.drop 1 ++ text)
        some (if suffix = "" then ⟨"", "!"⟩ else ⟨"!", suffix⟩, after)
  if isSpacingOrEnd after.rest ∨ (inFlow ∧ after.at? ',') then some (tag, after) else none

/-- The name of an anchor or of a reference that comes next, and the place after it. -/
def anchorName? (c : Cursor) : Option (String × Cursor) :=
  let name := c.next.rest.takeWhile isNameChar
  let after := c.skip (1 + name.length)
  if ¬ name.isEmpty ∧ (isSpacingOrEnd after.rest ∨ after.rest.head?.any "?:,]\x7d%@\x60".toList.contains)
  then some (String.ofList name, after)
  else none

/-! ### Directives -/

/-- The number of a version that comes next, of at most nine digits, and the place after it. -/
def versionNumber? (c : Cursor) : Option (Nat × Cursor) := do
  let digits := c.rest.takeWhile Char.isDigit
  let n ← if digits.length ≤ 9 then numeralIn? 10 digits else none
  return (n, c.skip digits.length)

/-- What follows the name of a directive, and the place after it. -/
def directiveValue? (name : String) (c : Cursor) : Option (Directive × Cursor) :=
  if name = "YAML" then do
    let (major, c) ← versionNumber? c
    let (minor, c) ← if c.at? '.' then versionNumber? c.next else none
    return (.version major minor, c)
  else if name = "TAG" ∧ c.at? '!' then
    let handle := handleText c
    let after := c.skip handle.length
    let c := after.skipWhile isBlank
    let text := c.rest.takeWhile (isTagChar true)
    let last := c.skip text.length
    if (handle = ['!'] ∨ isClosedHandle handle) ∧ after.rest.head?.any isBlank ∧
        ¬ text.isEmpty ∧ isSpacingOrEnd last.rest then do
      return (.handle (String.ofList handle) (← tagText? text), last)
    else none
  else none

/-- The directive of this line, from its percent sign on, and the place after the line. -/
def directive? (c : Cursor) : Option (Directive × Cursor) := do
  let name := c.next.rest.takeWhile isNameChar
  let after := c.skip (1 + name.length)
  if name.isEmpty ∨ ¬ isSpacingOrEnd after.rest then none
  else
    let (directive, after) ← directiveValue? (String.ofList name) (after.skipWhile isBlank)
    let after := after.skipWhile isBlank
    let after := if after.at? '#' then after.skip after.lineRest.length else after
    if after.rest.head?.all isBreak then some (directive, after.next) else none

end DropRoom.Yaml
