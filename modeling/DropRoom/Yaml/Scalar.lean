import DropRoom.Yaml.Cursor
import DropRoom.Yaml.Node

namespace DropRoom.Yaml

/-!
# The text of YAML scalars

Scalars come without quotes, in quotes of two kinds, and as blocks of lines.  A
line end within a scalar is folded: one becomes a space, and of several the first
is dropped.

* `plainScalar` — without quotes, over as many lines as are indented;
* `quotedScalar` — in quotes;
* `blockScalar` — the lines after `|` or `>`.
-/

/-! ### Folding -/

/-- What line ends between two words become; a separator stays. -/
def folded (breaks : List Char) : List Char :=
  match breaks with
  | ['\n'] => [' ']
  | '\n' :: more => more
  | breaks => breaks

/-- Blanks and line ends between two words. -/
structure Gap where
  spacing : List Char
  after : Cursor

namespace Gap

/-- The blanks and line ends that come next. -/
def from? (c : Cursor) : Gap :=
  ⟨c.rest.takeWhile isSpacing, c.skipWhile isSpacing⟩

/-- The line ends in a gap. -/
def breaks (g : Gap) : List Char :=
  g.spacing.filter isBreak

/-- Whether a gap ends a line. -/
def endsLine (g : Gap) : Bool :=
  g.spacing.any isBreak

/-- What a gap becomes in the text. -/
def text (g : Gap) : List Char :=
  if g.endsLine then folded g.breaks else g.spacing

/-- The blanks in front of the lines that start within a gap. -/
def margins (g : Gap) : List (List Char) :=
  (g.spacing.splitBy fun c _ => !isBreak c).drop 1

/-- Whether a tab stands where a line that starts within a gap is indented. -/
def hasTabBefore (g : Gap) (column : Nat) : Bool :=
  g.margins.any fun margin => (margin.take column).contains '\t'

end Gap

/-! ### Without quotes -/

/-- The characters of a word of a scalar without quotes.  Within brackets a colon is not followed
by a bracket, a comma or a question mark. -/
def plainWord (inFlow : Bool) : List Char → Option (List Char)
  | [] => some []
  | c :: cs =>
    if isSpacing c then some []
    else if inFlow ∧ c = ':' ∧ (cs.head?.any fun d => isFlowMark d || d == '?') then none
    else if c = ':' ∧ isSpacingOrEnd cs then some []
    else if inFlow ∧ isFlowMark c then some []
    else (plainWord inFlow cs).map (c :: ·)

/-- Whether a scalar without quotes starts with these characters. -/
def startsPlain (inFlow : Bool) : List Char → Bool
  | [] => false
  | c :: cs =>
    if c = '-' then !(cs.head?.any isBlank)
    else if c = '?' ∨ c = ':' then !inFlow && !isSpacingOrEnd cs
    else !(isSpacing c || isFlowMark c || "#&*!|>'\"%@\x60".toList.contains c)

/-- A scalar without quotes that was read. -/
structure PlainText where
  text : List Char
  /-- Whether a line ends after it. -/
  endsLine : Bool
  after : Cursor

/-- The words of a scalar without quotes, from a gap on.  Outside of brackets its later lines start
at a least column. -/
def plainWords (inFlow : Bool) (least : Nat) : Nat → Gap → Option PlainText
  | 0, _ => none
  | fuel + 1, gap =>
    let c := gap.after
    if c.atMarker ∨ c.at? '#' then some ⟨[], gap.endsLine, c⟩
    else do
      let word ← plainWord inFlow c.rest
      if word.isEmpty then return ⟨[], gap.endsLine, c⟩
      let next := Gap.from? (c.skip word.length)
      let own := gap.text ++ word
      if next.spacing.isEmpty then return ⟨own, false, next.after⟩
      else if next.hasTabBefore least then none
      else if ¬ inFlow ∧ next.after.column < least then
        return ⟨own, next.endsLine, next.after⟩
      else
        let more ← plainWords inFlow least fuel next
        return { more with text := own ++ more.text }

/-- A scalar without quotes. -/
def plainScalar (inFlow : Bool) (least : Nat) (c : Cursor) : Option PlainText :=
  plainWords inFlow least (c.rest.length + 1) ⟨[], c⟩

/-! ### In quotes -/

/-- The character that an escape of one letter stands for. -/
def letterEscape? (c : Char) : Option Char :=
  match c with
  | '0' => some (Char.ofNat 0)
  | 'a' => some (Char.ofNat 7)
  | 'b' => some (Char.ofNat 8)
  | 't' => some '\t'
  | '\t' => some '\t'
  | 'n' => some '\n'
  | 'v' => some (Char.ofNat 11)
  | 'f' => some (Char.ofNat 12)
  | 'r' => some '\r'
  | 'e' => some (Char.ofNat 27)
  | ' ' => some ' '
  | '"' => some '"'
  | '/' => some '/'
  | '\\' => some '\\'
  | 'N' => some (Char.ofNat 0x85)
  | '_' => some (Char.ofNat 0xA0)
  | 'L' => some (Char.ofNat 0x2028)
  | 'P' => some (Char.ofNat 0x2029)
  | _ => none

/-- The number of digits of an escape by code point. -/
def codeEscape? (c : Char) : Option Nat :=
  match c with
  | 'x' => some 2
  | 'u' => some 4
  | 'U' => some 8
  | _ => none

/-- The character of a code point, where there is one. -/
def charOf? (n : Nat) : Option Char :=
  if (n < 0xD800 ∨ 0xDFFF < n) ∧ n < 0x110000 then some (Char.ofNat n) else none

/-- The character of an escape, and the number of characters of the escape after its
backslash. -/
def escape? : List Char → Option (Char × Nat)
  | [] => none
  | c :: cs =>
    match letterEscape? c, codeEscape? c with
    | some d, _ => some (d, 1)
    | none, some digits => do
      let n ← if digits ≤ cs.length then numeralIn? 16 (cs.take digits) else none
      let d ← charOf? n
      return (d, 1 + digits)
    | none, none => none

/-- The characters of a scalar in quotes of a kind up to its closing quote, and the place after
that. -/
def quotedText (quote : Char) : Nat → Cursor → Option (List Char × Cursor)
  | 0, _ => none
  | fuel + 1, c =>
    let goOn (own : List Char) (after : Cursor) :=
      (quotedText quote fuel after).map fun (cs, last) => (own ++ cs, last)
    if c.atMarker then none
    else
      match c.rest with
      | [] => none
      | d :: cs =>
        if isSpacing d then
          let gap := Gap.from? c
          goOn gap.text gap.after
        else if d = quote then
          if quote = '\'' ∧ cs.head? = some quote then goOn [quote] (c.skip 2) else some ([], c.next)
        else if d = '\\' ∧ quote = '"' then
          if cs.head?.any isBreak then
            let gap := Gap.from? (c.skip 2)
            goOn gap.breaks gap.after
          else do
            let (e, length) ← escape? cs
            goOn [e] (c.skip (1 + length))
        else goOn [d] c.next

/-- A scalar in quotes of either kind, from its opening quote on. -/
def quotedScalar (quote : Char) (c : Cursor) : Option (List Char × Cursor) :=
  quotedText quote (c.rest.length + 1) c.next

/-! ### Blocks of lines -/

/-- What becomes of the line ends after the last line of a block. -/
inductive Chomping where
  | strip
  | clip
  | keep
  deriving DecidableEq

/-- What a mark after `|` or `>` says about the last line ends. -/
def chomping? : Option Char → Option Chomping
  | some '-' => some .strip
  | some '+' => some .keep
  | _ => none

/-- The width that a mark after `|` or `>` gives to the indentation. -/
def width? : Option Char → Option Nat
  | some d => if '1' ≤ d ∧ d ≤ '9' then some (d.toNat - '0'.toNat) else none
  | none => none

/-- The marks after `|` or `>` in either order, and the place after them. -/
def blockMarks (c : Cursor) : Chomping × Option Nat × Cursor :=
  match chomping? c.rest.head?, width? c.rest.head? with
  | some chomping, _ =>
    match width? c.next.rest.head? with
    | some width => (chomping, some width, c.skip 2)
    | none => (chomping, none, c.next)
  | none, some width =>
    match chomping? c.next.rest.head? with
    | some chomping => (chomping, some width, c.skip 2)
    | none => (.clip, some width, c.next)
  | none, none => (.clip, none, c)

/-- Empty lines of a block. -/
structure EmptyLines where
  breaks : List Char
  /-- The widest indentation of them and of the line after them. -/
  widest : Nat
  /-- The next line, after its indentation. -/
  after : Cursor

/-- The empty lines that come next, where lines are indented by so many columns, or by any number
of them.  A tab does not indent. -/
def emptyLines (width : Option Nat) : Nat → EmptyLines → Option EmptyLines
  | 0, _ => none
  | fuel + 1, before =>
    let start := before.after
    let spaces := (start.rest.takeWhile (· == ' ')).length
    let c := start.skip (match width with
      | some width => min spaces (width - start.column)
      | none => spaces)
    let lines : EmptyLines := { before with widest := max before.widest c.column, after := c }
    if c.at? '\t' ∧ width.all (c.column < ·) then none
    else
      match c.rest.head? with
      | some d =>
        if isBreak d then
          emptyLines width fuel { lines with breaks := lines.breaks ++ [d], after := c.next }
        else some lines
      | none => some lines

/-- A block of lines that was read. -/
structure BlockText where
  text : List Char
  /-- The end of the last line, and the empty lines after it. -/
  lineEnd : List Char
  breaks : List Char
  after : Cursor

/-- The lines of a block that are indented by so many columns, from the place after empty lines
on; `afterBlank` says whether the line before starts with a blank. -/
def blockLines (isFolded : Bool) (width : Nat) :
    Nat → (lineEnd : List Char) → (afterBlank : Bool) → EmptyLines → Option BlockText
  | 0, _, _, _ => none
  | fuel + 1, lineEnd, afterBlank, before =>
    let c := before.after
    if c.column = width ∧ ¬ c.rest.isEmpty then do
      let startsBlank := c.rest.head?.any isBlank
      let joined := isFolded ∧ lineEnd = ['\n'] ∧ ¬ afterBlank ∧ ¬ startsBlank
      let between := if joined then folded (lineEnd ++ before.breaks) else lineEnd ++ before.breaks
      let line := c.lineRest
      let last := c.skip line.length
      let next ← emptyLines (some width) (last.rest.length + 1) ⟨[], 0, last.next⟩
      let more ← blockLines isFolded width fuel (last.rest.take 1) startsBlank next
      return { more with text := between ++ line ++ more.text }
    else some ⟨[], lineEnd, before.breaks, c⟩

/-- What a block becomes with its last line ends. -/
def BlockText.chomped (block : BlockText) : Chomping → List Char
  | .strip => block.text
  | .clip => block.text ++ block.lineEnd
  | .keep => block.text ++ block.lineEnd ++ block.breaks

/-- A block of lines from its `|` or `>` on, within a collection of a column, if within one. -/
def blockScalar (isFolded : Bool) (outer : Option Nat) (c : Cursor) :
    Option (List Char × Cursor) := do
  let (chomping, given, c) := blockMarks c.next
  let c := c.skipWhile isBlank
  let c := if c.at? '#' then c.skip c.lineRest.length else c
  if c.rest.head?.all isBreak then
    let c := c.next
    let givenWidth := given.map (outer.getD 0 + ·)
    let lines ← emptyLines givenWidth (c.rest.length + 1) ⟨[], 0, c⟩
    let least := (outer.map (· + 1)).getD 1
    let width := givenWidth.getD (max lines.widest least)
    let block ← blockLines isFolded width (c.rest.length + 1) [] false lines
    return (block.chomped chomping, block.after)
  else none

end DropRoom.Yaml
