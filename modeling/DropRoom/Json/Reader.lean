import DropRoom.Json.Reading
import DropRoom.Text.Ascii
import DropRoom.Bytes.Utf8

namespace DropRoom.Json

/-!
# Reading JSON text

Strict JSON: the only blanks are space, tab, line feed and carriage return, no
comma may follow the last item, and a number has no leading zero.  What cannot be
read becomes a fault at its place in the tree.

* `scanText`, `scanNumber` — a text after its opening quote, a number;
* `value`, `items`, `members` — the tree at the front of a text;
* `read` — the tree of a whole text, and whether more follows it.

Containers nested to `depthLimit` or deeper are marked as too deep to be read.
-/

open DropRoom.Text

/-- The nesting at which a container is too deep to be read. -/
def depthLimit : Nat := 128

/-- A blank of JSON. -/
def isSpace (c : Char) : Bool :=
  c == ' ' || c == '\n' || c == '\t' || c == '\r'

/-- Drop the blanks at the front. -/
def skipSpace (cs : List Char) : List Char :=
  cs.dropWhile isSpace

/-! ### Texts -/

/-- The number that four hexadecimal digits denote. -/
def hex4? (a b c d : Char) : Option Nat := do
  let a ← hexValue? a
  let b ← hexValue? b
  let c ← hexValue? c
  let d ← hexValue? d
  return ((a * 16 + b) * 16 + c) * 16 + d

/-- The fault of an escape `\u` followed by these characters, the first four of which are not
hexadecimal digits: the text ended too early where fewer than four octets are left. -/
def hexFault (cs : List Char) : Fault :=
  if (Utf8.encodeChars cs).length < 4 then .ended else .malformed

/-- The character of an escape of one letter. -/
def shortEscape? (c : Char) : Option Char :=
  if c = '"' then some '"'
  else if c = '\\' then some '\\'
  else if c = '/' then some '/'
  else if c = 'b' then some (Char.ofNat 8)
  else if c = 'f' then some (Char.ofNat 12)
  else if c = 'n' then some '\n'
  else if c = 'r' then some '\r'
  else if c = 't' then some '\t'
  else none

/-- Pass over a text after its opening quote.  Escapes need not stand for characters. -/
def skipText : List Char → Except Fault (List Char)
  | [] => .error .ended
  | '"' :: rest => .ok rest
  | '\\' :: 'u' :: a :: b :: c :: d :: rest =>
    match hex4? a b c d with
    | some _ => skipText rest
    | none => .error (hexFault (a :: b :: c :: d :: rest))
  | '\\' :: 'u' :: rest => .error (hexFault rest)
  | ['\\'] => .error .ended
  | '\\' :: e :: rest =>
    match shortEscape? e with
    | some _ => skipText rest
    | none => .error .malformed
  | c :: rest => if c.toNat < 32 then .error .malformed else skipText rest

/-- A text whose last escape was half of a surrogate pair, with these characters after it. -/
def unpairedText (rest : List Char) : Except Fault (Text × List Char) :=
  match skipText rest with
  | .ok after => .ok (.unpaired none, after)
  | .error f => .ok (.unpaired (some f), [])

/-- Put a character in front of a text that was read. -/
def consText (c : Char) (scan : Except Fault (List Char × List Char ⊕ Text × List Char)) :
    Except Fault (List Char × List Char ⊕ Text × List Char) :=
  scan.map fun
    | .inl (cs, rest) => .inl (c :: cs, rest)
    | .inr (t, rest) => .inr (t, rest)

/-- Read the characters of a text after its opening quote: either all of them, or a text that
cannot be read. -/
def scanTextChars : List Char → Except Fault (List Char × List Char ⊕ Text × List Char)
  | [] => .error .ended
  | '"' :: rest => .ok (.inl ([], rest))
  | '\\' :: 'u' :: a :: b :: c :: d :: rest =>
    match hex4? a b c d with
    | none => .error (hexFault (a :: b :: c :: d :: rest))
    | some n =>
      if 0xDC00 ≤ n ∧ n ≤ 0xDFFF then (unpairedText rest).map .inr
      else if 0xD800 ≤ n ∧ n ≤ 0xDBFF then
        match rest with
        | [] => .error .ended
        | ['\\'] => .error .ended
        | '\\' :: 'u' :: a :: b :: c :: d :: more =>
          match hex4? a b c d with
          | none => .error (hexFault (a :: b :: c :: d :: more))
          | some m =>
            if 0xDC00 ≤ m ∧ m ≤ 0xDFFF then
              consText (Char.ofNat (0x10000 + (n - 0xD800) * 0x400 + (m - 0xDC00)))
                (scanTextChars more)
            else (unpairedText ('\\' :: 'u' :: a :: b :: c :: d :: more)).map .inr
        | '\\' :: 'u' :: more => .error (hexFault more)
        | more => (unpairedText more).map .inr
      else consText (Char.ofNat n) (scanTextChars rest)
  | '\\' :: 'u' :: rest => .error (hexFault rest)
  | ['\\'] => .error .ended
  | '\\' :: e :: rest =>
    match shortEscape? e with
    | some c => consText c (scanTextChars rest)
    | none => .error .malformed
  | c :: rest => if c.toNat < 32 then .error .malformed else consText c (scanTextChars rest)

/-- Read a text after its opening quote. -/
def scanText (cs : List Char) : Except Fault (Text × List Char) :=
  match scanTextChars cs with
  | .error f => .error f
  | .ok (.inl (chars, rest)) => .ok (.plain (String.ofList chars), rest)
  | .ok (.inr result) => .ok result

/-! ### Numbers -/

/-- A run of at least one digit, and what follows it. -/
def scanDigits (cs : List Char) : Except Fault (List Char × List Char) :=
  match cs.takeWhile isDigit, cs.dropWhile isDigit with
  | [], [] => .error .ended
  | [], _ :: _ => .error .malformed
  | digits, rest => .ok (digits, rest)

/-- The digits before the point: a zero stands alone. -/
def scanWhole : List Char → Except Fault (List Char × List Char)
  | '0' :: c :: rest => if isDigit c then .error .malformed else .ok (['0'], c :: rest)
  | cs => scanDigits cs

/-- The digits after a point, none where there is no point. -/
def scanFraction : List Char → Except Fault (List Char × List Char)
  | '.' :: rest => scanDigits rest
  | cs => .ok ([], cs)

/-- The exponent, where there is one. -/
def scanExponent : List Char → Except Fault (Option Int × List Char)
  | c :: rest =>
    if c = 'e' ∨ c = 'E' then
      match rest with
      | '-' :: rest => (scanDigits rest).map fun (ds, rest) => (some (-(digitsValue ds : Int)), rest)
      | '+' :: rest => (scanDigits rest).map fun (ds, rest) => (some (digitsValue ds : Int), rest)
      | rest => (scanDigits rest).map fun (ds, rest) => (some (digitsValue ds : Int), rest)
    else .ok (none, c :: rest)
  | [] => .ok (none, [])

/-- A number without its sign. -/
def scanUnsigned (negative : Bool) (cs : List Char) : Except Fault (Numeral × List Char) :=
  match scanWhole cs with
  | .error f => .error f
  | .ok (whole, rest) =>
    match scanFraction rest with
    | .error f => .error f
    | .ok (fraction, rest) =>
      match scanExponent rest with
      | .error f => .error f
      | .ok (exponent, rest) =>
        let value := digitsValue whole
        if fraction = [] ∧ exponent = none ∧ ¬ (negative ∧ value = 0) then
          .ok (.integer (if negative then -(value : Int) else value), rest)
        else
          .ok (.decimal negative (digitsValue (whole ++ fraction))
            (exponent.getD 0 - (fraction.length : Int)), rest)

/-- Read a number. -/
def scanNumber : List Char → Except Fault (Numeral × List Char)
  | '-' :: rest => scanUnsigned true rest
  | cs => scanUnsigned false cs

/-! ### Values -/

/-- A word that must follow its first letter. -/
def scanWord (word : List Char) (meaning : Reading) : List Char → Reading × List Char :=
  match word with
  | [] => fun rest => (meaning, rest)
  | w :: word => fun cs =>
    match cs with
    | [] => (.broken .ended, [])
    | c :: rest => if c = w then scanWord word meaning rest else (.broken .malformed, [])

/-- Mark a container by its nesting. -/
def Reading.atDepth (depth : Nat) (container : Reading) : Reading :=
  if depth < depthLimit then container else .deep container

mutual

/-- The tree of the value at the front of a text, inside `depth` containers, and the text after
it.  After a fault no text is left. -/
def value (fuel depth : Nat) (cs : List Char) : Reading × List Char :=
  match fuel with
  | 0 => (.broken .malformed, [])
  | fuel + 1 =>
    match skipSpace cs with
    | [] => (.broken .ended, [])
    | 'n' :: rest => scanWord ['u', 'l', 'l'] .null rest
    | 't' :: rest => scanWord ['r', 'u', 'e'] (.bool true) rest
    | 'f' :: rest => scanWord ['a', 'l', 's', 'e'] (.bool false) rest
    | '"' :: rest =>
      match scanText rest with
      | .error f => (.broken f, [])
      | .ok (t, rest) => (.text t, rest)
    | '[' :: rest =>
      let (contents, rest) := items fuel (depth + 1) true rest
      (Reading.atDepth (depth + 1) (.array contents), rest)
    | '{' :: rest =>
      let (contents, rest) := members fuel (depth + 1) true rest
      (Reading.atDepth (depth + 1) (.object contents), rest)
    | c :: rest =>
      if c = '-' ∨ isDigit c then
        match scanNumber (c :: rest) with
        | .error f => (.broken f, [])
        | .ok (n, rest) => (.number n, rest)
      else (.broken .malformed, [])

/-- The rest of an array; `first` where no item has been read yet. -/
def items (fuel depth : Nat) (first : Bool) (cs : List Char) : Items × List Char :=
  match fuel with
  | 0 => (.broken .malformed, [])
  | fuel + 1 =>
    match skipSpace cs with
    | [] => (.broken .ended, [])
    | c :: rest =>
      if c = ']' then (.close, rest)
      else if first then
        let (item, rest) := value fuel depth (c :: rest)
        let (more, rest) := items fuel depth false rest
        (.cons item more, rest)
      else if c = ',' then
        let (item, rest) := value fuel depth rest
        let (more, rest) := items fuel depth false rest
        (.cons item more, rest)
      else (.broken .malformed, [])

/-- The rest of an object; `first` where no member has been read yet. -/
def members (fuel depth : Nat) (first : Bool) (cs : List Char) : Members × List Char :=
  match fuel with
  | 0 => (.broken .malformed, [])
  | fuel + 1 =>
    match skipSpace cs with
    | [] => (.broken .ended, [])
    | c :: rest =>
      if c = '}' then (.close, rest)
      else if first then member fuel depth (c :: rest)
      else if c = ',' then member fuel depth rest
      else (.broken .malformed, [])

/-- A member and the rest of its object. -/
def member (fuel depth : Nat) (cs : List Char) : Members × List Char :=
  match fuel with
  | 0 => (.broken .malformed, [])
  | fuel + 1 =>
    match skipSpace cs with
    | [] => (.broken .ended, [])
    | '"' :: rest =>
      match scanText rest with
      | .error f => (.broken f, [])
      | .ok (name, rest) =>
        match skipSpace rest with
        | [] => (.cons name (.broken .ended) (.broken .ended), [])
        | ':' :: rest =>
          let (content, rest) := value fuel depth rest
          let (more, rest) := members fuel depth false rest
          (.cons name content more, rest)
        | _ :: _ => (.cons name (.broken .malformed) (.broken .malformed), [])
    | _ :: _ => (.broken .malformed, [])

end

/-- The tree of a text, and the fault of anything but blanks after it.  Every step of the reader
but one for each container and member takes a character, so three steps a character are enough. -/
def read (text : String) : Reading × Option Fault :=
  let cs := text.toList
  let (tree, rest) := value (3 * (cs.length + 1)) 0 cs
  match skipSpace rest with
  | [] => (tree, none)
  | _ :: _ => (tree, some .malformed)

/-- The value of a text that is one JSON value and nothing else. -/
def parse (text : String) : Except Fault Json :=
  match read text with
  | (tree, trailing) =>
    match tree.complete, trailing with
    | .error f, _ => .error f
    | .ok _, some f => .error f
    | .ok j, none => .ok j

end DropRoom.Json
