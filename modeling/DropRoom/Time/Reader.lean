import DropRoom.Time.Date
import DropRoom.Text.Ascii
import DropRoom.Text.Blank

namespace DropRoom.DateTime

/-!
# Reading points in time

Three forms are read.  The *local* form has no offset and allows blanks and short
numbers.  The *strict* form is the one of RFC 3339, fixed in width, with an
offset.  The *lenient* form has an offset too, and the freedom of the local form.

* `local?` — the local form;
* `strict?` — the strict form: local time and offset in minutes;
* `timestamp?` — the local form, else the strict form without its offset;
* `universal?` — the lenient form as a point in universal time.
-/

open DropRoom.Text

/-- A number of at least one and at most `width` digits at the front. -/
def number? (width : Nat) (cs : List Char) : Option (Nat × List Char) :=
  match (cs.take width).takeWhile isDigit with
  | [] => none
  | digits => some (digitsValue digits, cs.drop digits.length)

/-- A number of exactly `width` digits at the front. -/
def fixed? (width : Nat) (cs : List Char) : Option (Nat × List Char) :=
  let digits := (cs.take width).takeWhile isDigit
  if digits.length = width then some (digitsValue digits, cs.drop width) else none

/-- The given character at the front. -/
def char? (c : Char) : List Char → Option (List Char)
  | d :: rest => if c = d then some rest else none
  | [] => none

/-- A year: a sign allows any number of digits, and without one there are at most four. -/
def year? (cs : List Char) : Option (Int × List Char) :=
  match trimStart cs with
  | '-' :: rest => (number? rest.length rest).map fun (n, rest) => (-(n : Int), rest)
  | '+' :: rest => (number? rest.length rest).map fun (n, rest) => ((n : Int), rest)
  | cs => (number? 4 cs).map fun (n, rest) => ((n : Int), rest)

/-- A fraction of a second after its point, in nanoseconds; digits after the ninth are dropped. -/
def nanoseconds? (cs : List Char) : Option (Nat × List Char) :=
  match (cs.take 9).takeWhile isDigit with
  | [] => none
  | digits =>
    some (digitsValue digits * Nat.pow 10 (9 - digits.length), (cs.drop digits.length).dropWhile isDigit)

/-- A fraction of a second, zero where no point follows. -/
def fraction? : List Char → Option (Nat × List Char)
  | '.' :: rest => nanoseconds? rest
  | cs => some (0, cs)

/-- The point in time of six numbers and a fraction, where all are in range. -/
def assemble? (year : Int) (month day hour minute second nanosecond : Nat) : Option DateTime := do
  let date ← Date.of? year month day
  let time ← TimeOfDay.of? hour minute second nanosecond
  return ⟨date, time⟩

/-- Year, month and day, with blanks around the numbers. -/
def looseDate? (cs : List Char) : Option ((Int × Nat × Nat) × List Char) := do
  let (year, cs) ← year? cs
  let cs ← char? '-' (trimStart cs)
  let (month, cs) ← number? 2 (trimStart cs)
  let cs ← char? '-' (trimStart cs)
  let (day, cs) ← number? 2 (trimStart cs)
  return ((year, month, day), cs)

/-- Hour, minute, second and fraction, with blanks around the numbers. -/
def looseTime? (cs : List Char) : Option ((Nat × Nat × Nat × Nat) × List Char) := do
  let (hour, cs) ← number? 2 (trimStart cs)
  let cs ← char? ':' (trimStart cs)
  let (minute, cs) ← number? 2 (trimStart cs)
  let cs ← char? ':' (trimStart cs)
  let (second, cs) ← number? 2 (trimStart cs)
  let (nanosecond, cs) ← fraction? cs
  return ((hour, minute, second, nanosecond), trimStart cs)

/-- The local form: `Y-M-DTh:m:s[.f]`. -/
def local? (cs : List Char) : Option DateTime := do
  let ((year, month, day), cs) ← looseDate? cs
  let cs ← char? 'T' (trimStart cs)
  let ((hour, minute, second, nanosecond), cs) ← looseTime? cs
  if cs.isEmpty then assemble? year month day hour minute second nanosecond else none

/-- A sign of an offset, true where it is negative: the minus sign of typography counts too. -/
def offsetSign? : List Char → Option (Bool × List Char)
  | '+' :: rest => some (false, rest)
  | '-' :: rest => some (true, rest)
  | '−' :: rest => some (true, rest)
  | _ => none

/-- An offset from universal time in minutes: a sign, two digits, what `skipColon` allows, and
two digits below 60. -/
def signedOffset? (skipColon : List Char → Option (List Char)) (cs : List Char) :
    Option (Int × List Char) := do
  let (negative, cs) ← offsetSign? cs
  let (hours, cs) ← fixed? 2 cs
  let cs ← skipColon cs
  let (minutes, cs) ← fixed? 2 cs
  if minutes < 60 ∧ 60 * hours + minutes < 1440 then
    return (if negative then -(60 * hours + minutes : Int) else 60 * hours + minutes, cs)
  else none

/-- An offset from universal time, or `Z` for none. -/
def offset? (skipColon : List Char → Option (List Char)) : List Char → Option (Int × List Char)
  | 'Z' :: rest => some (0, rest)
  | 'z' :: rest => some (0, rest)
  | cs => signedOffset? skipColon cs

/-- The mark between date and time. -/
def separator? : List Char → Option (List Char)
  | 'T' :: rest => some rest
  | 't' :: rest => some rest
  | ' ' :: rest => some rest
  | _ => none

/-- The strict form: the local time and its offset in minutes. -/
def strict? (cs : List Char) : Option (DateTime × Int) := do
  let (year, cs) ← fixed? 4 cs
  let cs ← char? '-' cs
  let (month, cs) ← fixed? 2 cs
  let cs ← char? '-' cs
  let (day, cs) ← fixed? 2 cs
  let cs ← separator? cs
  let (hour, cs) ← fixed? 2 cs
  let cs ← char? ':' cs
  let (minute, cs) ← fixed? 2 cs
  let cs ← char? ':' cs
  let (second, cs) ← fixed? 2 cs
  let (nanosecond, cs) ← fraction? cs
  let (offset, cs) ← offset? (char? ':') cs
  let t ← assemble? year month day hour minute second nanosecond
  if cs.isEmpty then return (t, offset) else none

/-- A point in local time: the local form, or else the strict form, whose offset is dropped. -/
def timestamp? (s : String) : Option DateTime :=
  match local? s.toList with
  | some t => some t
  | none => (strict? s.toList).map (·.1)

/-- Skip colons and blanks, of which there may be none. -/
def skipColons (cs : List Char) : Option (List Char) :=
  some (cs.dropWhile fun c => c == ':' || isBlankChar c)

/-- The offset of the lenient form: also `UTC` in letters of either case. -/
def lenientOffset? (cs : List Char) : Option (Int × List Char) :=
  if asciiLower (String.ofList (cs.take 3)) = "utc" then some (0, cs.drop 3)
  else offset? skipColons cs

/-- A point in universal time: a local time and the offset to take off it. -/
def universal? (s : String) : Option DateTime := do
  let ((year, month, day), cs) ← looseDate? s.toList
  let cs ← separator? cs
  let ((hour, minute, second, nanosecond), cs) ← looseTime? cs
  let (offset, cs) ← lenientOffset? cs
  let t ← assemble? year month day hour minute second nanosecond
  if (trimStart cs).isEmpty then t.minusMinutes? offset else none

end DropRoom.DateTime
