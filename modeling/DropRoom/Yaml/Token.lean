import DropRoom.Yaml.Scalar
import DropRoom.Yaml.Tag

namespace DropRoom.Yaml

/-!
# The tokens of YAML texts

Indentation and the keys that a colon follows are told before nodes are: a
collection that is told by its column has a token where it starts and one where
it ends, and each key a token in front of it.

* `Token` — the tokens;
* `Tokenizer` — a place in a text with the tokens so far, the columns of the open
  collections and, for each open bracket, the token that a colon would make a key;
* `tokens?` — the tokens of a text.
-/

/-- A token. -/
inductive Token where
  | directive (directive : Directive)
  | documentStart
  | documentEnd
  /-- The start of a sequence, or of a mapping, that is told by its column. -/
  | sequenceStart
  | mappingStart
  /-- The end of either. -/
  | blockEnd
  | openBracket
  | closeBracket
  | openBrace
  | closeBrace
  | comma
  | dash
  | key
  | value
  | reference (name : String)
  | anchor (name : String)
  | tag (tag : Tag)
  | scalar (text : String) (style : Style)
  deriving DecidableEq, Repr

/-- A token that is a key if a colon follows it on the same line. -/
structure KeyCandidate where
  place : Cursor
  /-- The number of tokens before it. -/
  position : Nat
  /-- Whether it can be nothing but a key. -/
  required : Bool

/-- Whether a candidate is too far off to be the key of a colon at a place: a key is on one line
with its colon, and not much longer than a line. -/
def KeyCandidate.isStale (key : KeyCandidate) (place : Cursor) : Bool :=
  key.place.line < place.line || key.place.index + 1024 < place.index

/-- A place in a text and what is known of the text before it. -/
structure Tokenizer where
  place : Cursor
  tokens : Array Token
  /-- The columns of the open collections that are told by them, the innermost first. -/
  columns : List Nat
  /-- The candidate within the innermost bracket, or outside of brackets. -/
  candidate : Option KeyCandidate
  /-- The candidates outside of each open bracket. -/
  outer : List (Option KeyCandidate)
  /-- Whether a key may start here. -/
  allowsKey : Bool

namespace Tokenizer

/-- The start of a text. -/
def start (text : String) : Tokenizer :=
  ⟨.start text.toList, #[], [], none, [], true⟩

/-- Whether a bracket is open. -/
def inFlow (t : Tokenizer) : Bool :=
  !t.outer.isEmpty

/-- The least column of content of the innermost open collection. -/
def leastColumn (t : Tokenizer) : Nat :=
  (t.columns.head?.map (· + 1)).getD 0

/-- Add a token at the end. -/
def add (t : Tokenizer) (token : Token) : Tokenizer :=
  { t with tokens := t.tokens.push token }

/-- Go to a place. -/
def moveTo (t : Tokenizer) (place : Cursor) : Tokenizer :=
  { t with place := place }

/-! ### Keys -/

/-- Give up the candidate within the innermost bracket. -/
def dropCandidate (t : Tokenizer) : Option Tokenizer :=
  if t.candidate.any (·.required) then none else some { t with candidate := none }

/-- Take the next token as a candidate where a key may start. -/
def offerCandidate (t : Tokenizer) : Option Tokenizer :=
  if t.allowsKey then do
    let required := !t.inFlow && t.columns.head? == some t.place.column
    let t ← t.dropCandidate
    return { t with candidate := some ⟨t.place, t.tokens.size, required⟩ }
  else some t

/-- Give up the candidates that are too far off; one that has to be a key must not be. -/
def dropStale (t : Tokenizer) : Option Tokenizer :=
  let stale (candidate : Option KeyCandidate) := candidate.any (·.isStale t.place)
  if (t.candidate :: t.outer).any fun candidate => stale candidate && candidate.any (·.required)
  then none
  else some { t with
    candidate := if stale t.candidate then none else t.candidate
    outer := t.outer.map fun candidate => if stale candidate then none else candidate }

/-! ### Collections told by their column -/

/-- Open a collection at a column, in front of the token at a position, unless one of this column
is open. -/
def openAt (t : Tokenizer) (column position : Nat) (token : Token) : Tokenizer :=
  if t.inFlow ∨ t.columns.head?.any (column ≤ ·) then t
  else { t with
    columns := column :: t.columns
    tokens := t.tokens.insertIdxIfInBounds position token }

/-- Close the collections of greater columns than the least one that goes on, if any goes on. -/
def closeTo (t : Tokenizer) (least : Option Nat) : Tokenizer :=
  if t.inFlow then t
  else
    let closed := t.columns.takeWhile fun column => least.all (· < column)
    { t with
      columns := t.columns.drop closed.length
      tokens := closed.foldl (fun tokens _ => tokens.push .blockEnd) t.tokens }

/-! ### Tokens -/

/-- Pass over blanks, comments and line ends.  A tab does not stand where a key may start. -/
def toContent : Nat → Tokenizer → Tokenizer
  | 0, t => t
  | fuel + 1, t =>
    let c := t.place
    let c := if c.column = 0 ∧ c.at? byteOrderMark then c.next else c
    let c := c.skipWhile fun d => d == ' ' || (d == '\t' && (t.inFlow || !t.allowsKey))
    let c := if c.at? '#' then c.skip c.lineRest.length else c
    if c.rest.head?.any isBreak then
      toContent fuel { t with place := c.next, allowsKey := t.allowsKey || !t.inFlow }
    else t.moveTo c

/-- Leave all collections before a line of its own between documents. -/
def leave (t : Tokenizer) : Option Tokenizer := do
  let t ← (t.closeTo none).dropCandidate
  return { t with allowsKey := false }

/-- A line between documents. -/
def marker (t : Tokenizer) (token : Token) : Option Tokenizer := do
  let t ← t.leave
  return (t.add token).moveTo (t.place.skip 3)

/-- An opening bracket. -/
def openFlow (t : Tokenizer) (token : Token) : Option Tokenizer := do
  let t ← t.offerCandidate
  return { t.add token with
    place := t.place.next
    candidate := none
    outer := t.candidate :: t.outer
    allowsKey := true }

/-- A closing bracket. -/
def closeFlow (t : Tokenizer) (token : Token) : Option Tokenizer := do
  let t ← t.dropCandidate
  return { t.add token with
    place := t.place.next
    candidate := t.outer.head?.getD none
    outer := t.outer.drop 1
    allowsKey := false }

/-- A comma. -/
def comma (t : Tokenizer) : Option Tokenizer := do
  let t ← t.dropCandidate
  return { t.add .comma with place := t.place.next, allowsKey := true }

/-- A dash before an item. -/
def dash (t : Tokenizer) : Option Tokenizer :=
  if t.inFlow ∨ t.allowsKey then do
    let t ← (t.openAt t.place.column t.tokens.size .sequenceStart).dropCandidate
    return { t.add .dash with place := t.place.next, allowsKey := true }
  else none

/-- A question mark before a key. -/
def questionMark (t : Tokenizer) : Option Tokenizer :=
  if t.inFlow ∨ t.allowsKey then do
    let t ← (t.openAt t.place.column t.tokens.size .mappingStart).dropCandidate
    return { t.add .key with place := t.place.next, allowsKey := !t.inFlow }
  else none

/-- A colon before a value: the candidate, if there is one, is its key. -/
def colon (t : Tokenizer) : Option Tokenizer :=
  match t.candidate with
  | some key =>
    let t := { t with
      tokens := t.tokens.insertIdxIfInBounds key.position .key
      candidate := none
      allowsKey := false }
    let t := t.openAt key.place.column key.position .mappingStart
    some ((t.add .value).moveTo t.place.next)
  | none =>
    if t.inFlow ∨ t.allowsKey then
      let t := t.openAt t.place.column t.tokens.size .mappingStart
      some { t.add .value with place := t.place.next, allowsKey := !t.inFlow }
    else none

/-- A token that may be a key or stands before one. -/
def inline (t : Tokenizer) (token : Token) (after : Cursor) : Option Tokenizer := do
  let t ← t.offerCandidate
  return { t.add token with place := after, allowsKey := false }

/-- A block of lines. -/
def block (t : Tokenizer) (isFolded : Bool) : Option Tokenizer := do
  let t ← t.dropCandidate
  let (text, after) ← blockScalar isFolded t.columns.head? t.place
  let token := Token.scalar (String.ofList text) (if isFolded then .folded else .literal)
  return { t.add token with place := after, allowsKey := true }

/-- A scalar in quotes. -/
def quoted (t : Tokenizer) (quote : Char) : Option Tokenizer := do
  let (text, after) ← quotedScalar quote t.place
  t.inline (.scalar (String.ofList text) .quoted) after

/-- A scalar without quotes. -/
def plain (t : Tokenizer) : Option Tokenizer := do
  let read ← plainScalar t.inFlow t.leastColumn t.place
  let t ← t.inline (.scalar (String.ofList read.text) .plain) read.after
  return { t with allowsKey := read.endsLine }

/-- The token that starts with a character. -/
def tokenAt (t : Tokenizer) (d : Char) : Option Tokenizer :=
  let c := t.place
  if c.column = 0 ∧ d = '%' then do
    let t ← t.leave
    let (directive, after) ← directive? c
    return (t.add (.directive directive)).moveTo after
  else if c.atDashes then t.marker .documentStart
  else if c.atPoints then t.marker .documentEnd
  else if d = '[' then t.openFlow .openBracket
  else if d = '{' then t.openFlow .openBrace
  else if d = ']' then t.closeFlow .closeBracket
  else if d = '}' then t.closeFlow .closeBrace
  else if d = ',' then t.comma
  else if c.atMark '-' then t.dash
  else if d = '?' ∧ (t.inFlow ∨ c.atMark d) then t.questionMark
  else if d = ':' ∧ (t.inFlow ∨ c.atMark d) then t.colon
  else if d = '*' then do
    let (name, after) ← anchorName? c
    t.inline (.reference name) after
  else if d = '&' then do
    let (name, after) ← anchorName? c
    t.inline (.anchor name) after
  else if d = '!' then do
    let (tag, after) ← tag? t.inFlow c
    t.inline (.tag tag) after
  else if d = '|' ∧ ¬ t.inFlow then t.block false
  else if d = '>' ∧ ¬ t.inFlow then t.block true
  else if d = '\'' ∨ d = '"' then t.quoted d
  else if startsPlain t.inFlow c.rest then t.plain
  else none

/-- The tokens up to the end of the text. -/
def toEnd : Nat → Tokenizer → Option Tokenizer
  | 0, _ => none
  | fuel + 1, t => do
    let t ← (t.toContent (t.place.rest.length + 1)).dropStale
    let t := t.closeTo (some t.place.column)
    match t.place.rest with
    | [] => t.leave
    | d :: _ => (t.tokenAt d).bind (toEnd fuel)

end Tokenizer

/-- The tokens of a text; none where it is no text of tokens. -/
def tokens? (text : String) : Option (List Token) :=
  if text.toList.all isAllowed then
    (Tokenizer.toEnd (text.length + 1) (.start text)).map (·.tokens.toList)
  else none

end DropRoom.Yaml
