namespace DropRoom

/-!
# Byte sequences and UTF-8

Bodies, file contents and stream chunks are byte sequences.  `Utf8.scan` reads
characters from the front of a byte sequence for as long as it can and says why
it stopped, so that a text, a text followed by an error and a text whose last
character has not fully arrived are told apart.

* `Utf8.encode` — the bytes of a text;
* `Utf8.scan` — the longest readable front of a byte sequence and what stopped it;
* `Utf8.decode?` — the text of a byte sequence that is readable to its end.
-/

/-- A sequence of octets. -/
abbrev Bytes := List UInt8

namespace Utf8

/-- The octets of one character. -/
def encodeChar (c : Char) : Bytes :=
  let n := c.toNat
  if n < 0x80 then [UInt8.ofNat n]
  else if n < 0x800 then [UInt8.ofNat (0xC0 + n / 0x40), UInt8.ofNat (0x80 + n % 0x40)]
  else if n < 0x10000 then
    [UInt8.ofNat (0xE0 + n / 0x1000), UInt8.ofNat (0x80 + n / 0x40 % 0x40),
      UInt8.ofNat (0x80 + n % 0x40)]
  else
    [UInt8.ofNat (0xF0 + n / 0x40000), UInt8.ofNat (0x80 + n / 0x1000 % 0x40),
      UInt8.ofNat (0x80 + n / 0x40 % 0x40), UInt8.ofNat (0x80 + n % 0x40)]

/-- The octets of a run of characters. -/
def encodeChars (cs : List Char) : Bytes :=
  cs.flatMap encodeChar

/-- The octets of a text. -/
def encode (s : String) : Bytes :=
  encodeChars s.toList

/-- A continuation octet, `0x80`–`0xBF`. -/
def isTail (b : UInt8) : Bool :=
  0x80 ≤ b && b ≤ 0xBF

/-- How the front of a byte sequence reads. -/
inductive Front where
  /-- Nothing is left. -/
  | finished
  /-- A character and the octets after it. -/
  | char (c : Char) (rest : Bytes)
  /-- No character starts with the given number of octets. -/
  | invalid (length : Nat)
  /-- The sequence ends inside a character. -/
  | incomplete
  deriving DecidableEq, Repr

/-- A character of two octets that starts with `a`. -/
def front2 (a : UInt8) : Bytes → Front
  | [] => .incomplete
  | b :: rest =>
    if isTail b then .char (Char.ofNat ((a.toNat - 0xC0) * 0x40 + (b.toNat - 0x80))) rest
    else .invalid 1

/-- A character of three octets that starts with `a`, its second octet between `low` and `high`. -/
def front3 (a low high : UInt8) : Bytes → Front
  | [] => .incomplete
  | b :: more =>
    if ¬ (low ≤ b ∧ b ≤ high) then .invalid 1
    else match more with
      | [] => .incomplete
      | c :: rest =>
        if isTail c then
          .char (Char.ofNat ((a.toNat - 0xE0) * 0x1000 + (b.toNat - 0x80) * 0x40
            + (c.toNat - 0x80))) rest
        else .invalid 2

/-- A character of four octets that starts with `a`, its second octet between `low` and `high`. -/
def front4 (a low high : UInt8) : Bytes → Front
  | [] => .incomplete
  | b :: more =>
    if ¬ (low ≤ b ∧ b ≤ high) then .invalid 1
    else match more with
      | [] => .incomplete
      | c :: more =>
        if ¬ isTail c then .invalid 2
        else match more with
          | [] => .incomplete
          | d :: rest =>
            if isTail d then
              .char (Char.ofNat ((a.toNat - 0xF0) * 0x40000 + (b.toNat - 0x80) * 0x1000
                + (c.toNat - 0x80) * 0x40 + (d.toNat - 0x80))) rest
            else .invalid 3

/-- Read one character from the front. -/
def front : Bytes → Front
  | [] => .finished
  | a :: more =>
    if a < 0x80 then .char (Char.ofNat a.toNat) more
    else if 0xC2 ≤ a ∧ a ≤ 0xDF then front2 a more
    else if a = 0xE0 then front3 a 0xA0 0xBF more
    else if a = 0xED then front3 a 0x80 0x9F more
    else if 0xE1 ≤ a ∧ a ≤ 0xEF then front3 a 0x80 0xBF more
    else if a = 0xF0 then front4 a 0x90 0xBF more
    else if 0xF1 ≤ a ∧ a ≤ 0xF3 then front4 a 0x80 0xBF more
    else if a = 0xF4 then front4 a 0x80 0x8F more
    else .invalid 1

/-- What stopped a scan. -/
inductive Stop where
  /-- The sequence was read to its end. -/
  | finished
  /-- No character starts with the next octets, `length` of which were looked at. -/
  | invalid (length : Nat)
  /-- The sequence ends inside a character. -/
  | incomplete
  deriving DecidableEq, Repr

/-- The characters at the front of a byte sequence, the octets after them, and what stopped
the scan.  The first argument bounds the number of characters. -/
def scanUpTo : Nat → Bytes → List Char × Bytes × Stop
  | 0, bs => ([], bs, .finished)
  | n + 1, bs =>
    match front bs with
    | .finished => ([], [], .finished)
    | .invalid length => ([], bs, .invalid length)
    | .incomplete => ([], bs, .incomplete)
    | .char c rest =>
      let (cs, left, stop) := scanUpTo n rest
      (c :: cs, left, stop)

/-- The characters at the front of a byte sequence, the octets after them, and what stopped
the scan.  A sequence has at most as many characters as octets. -/
def scan (bs : Bytes) : List Char × Bytes × Stop :=
  scanUpTo (bs.length + 1) bs

/-- The text of a byte sequence, where all of it is UTF-8. -/
def decode? (bs : Bytes) : Option String :=
  match scan bs with
  | (cs, _, .finished) => some (String.ofList cs)
  | _ => none

end Utf8

end DropRoom
