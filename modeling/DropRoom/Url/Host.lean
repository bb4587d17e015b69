import DropRoom.Url.Percent

namespace DropRoom.Url

/-!
# Hosts

A host is a name, an IPv4 address or an IPv6 address.  A name whose last label
looks like a number must be an IPv4 address.

* `UrlError` — why a text is not an address;
* `Host` — the type, and `Host.chars`, its text;
* `ipv4?`, `ipv6?` — read the addresses;
* `DomainNames` — what is known of the names of hosts, and `asciiNames`, those in ASCII;
* `Host.readSpecial`, `Host.readOther` — the host of a special scheme, of another.
-/

open DropRoom.Text

/-- Why a text is not an address. -/
inductive UrlError where
  | emptyHost
  | invalidPort
  | invalidIpv4
  | invalidIpv6
  /-- A host holds a character that no name of the domain name system may hold. -/
  | invalidDomainName
  /-- A host of a scheme without rules of its own holds a character that ends hosts. -/
  | invalidHostCharacter
  | relativeWithoutBase
  /-- The base has no hierarchy to resolve the reference in. -/
  | relativeWithRootlessBase
  deriving DecidableEq, Repr

/-- The text of an error. -/
def UrlError.message : UrlError → String
  | .emptyHost => "empty host"
  | .invalidPort => "invalid port number"
  | .invalidIpv4 => "invalid IPv4 address"
  | .invalidIpv6 => "invalid IPv6 address"
  | .invalidDomainName => "invalid international domain name"
  | .invalidHostCharacter => "invalid domain character"
  | .relativeWithoutBase => "relative URL without a base"
  | .relativeWithRootlessBase => "relative URL with a cannot-be-a-base base"

/-- A host. -/
inductive Host where
  /-- A name; empty where an address has a place for a host but leaves it empty. -/
  | domain (name : String)
  /-- An IPv4 address as a number of 32 bits. -/
  | ipv4 (address : Nat)
  /-- An IPv6 address as eight numbers of 16 bits. -/
  | ipv6 (pieces : List Nat)
  deriving DecidableEq, Repr

/-! ### Printing -/

/-- The digits of a number in base 16. -/
def hexChars (n : Nat) : List Char :=
  Nat.toDigits 16 n

/-- The text of an IPv4 address: four numbers with points between them. -/
def ipv4Chars (n : Nat) : List Char :=
  digitsOf (n / 0x1000000) ++ '.' :: digitsOf (n / 0x10000 % 256) ++ '.' ::
    digitsOf (n / 0x100 % 256) ++ '.' :: digitsOf (n % 256)

/-- The number of zeros at the front. -/
def leadingZeros (pieces : List Nat) : Nat :=
  (pieces.takeWhile (· == 0)).length

/-- The first of the longest runs of zeros: its position and length. -/
def longestZeroRun : List Nat → Nat × Nat
  | [] => (0, 0)
  | piece :: pieces =>
    let here := leadingZeros (piece :: pieces)
    let (start, length) := longestZeroRun pieces
    if length ≤ here then (0, here) else (start + 1, length)

/-- Numbers in base 16 with colons between them. -/
def colonSeparated : List Nat → List Char
  | [] => []
  | [n] => hexChars n
  | n :: rest => hexChars n ++ ':' :: colonSeparated rest

/-- The text of an IPv6 address: the first of its longest runs of at least two zeros is left
out. -/
def ipv6Chars (pieces : List Nat) : List Char :=
  let (start, length) := longestZeroRun pieces
  if length < 2 then colonSeparated pieces
  else
    colonSeparated (pieces.take start) ++ ':' :: ':' :: colonSeparated (pieces.drop (start + length))

/-- The text of a host. -/
def Host.chars : Host → List Char
  | .domain name => name.toList
  | .ipv4 address => ipv4Chars address
  | .ipv6 pieces => '[' :: ipv6Chars pieces ++ [']']

/-! ### IPv4 -/

/-- The number of a run of digits in a base. -/
def numberIn? (base : Nat) : Nat → List Char → Option Nat
  | n, [] => some n
  | n, c :: cs =>
    match hexValue? c with
    | some d => if d < base then numberIn? base (base * n + d) cs else none
    | none => none

/-- A number in decimal, in octal after `0`, or in base 16 after `0x`. -/
def ipv4Number? (cs : List Char) : Option Nat :=
  match cs with
  | [] => none
  | '0' :: 'x' :: digits => numberIn? 16 0 digits
  | '0' :: 'X' :: digits => numberIn? 16 0 digits
  | '0' :: d :: digits => numberIn? 8 0 (d :: digits)
  | digits => numberIn? 10 0 digits

/-- The labels of a name, without an empty last one. -/
def labels (cs : List Char) : List (List Char) :=
  let parts := splitAt '.' cs
  if parts.getLast? = some [] then parts.dropLast else parts

/-- Whether the last label of a name looks like a number. -/
def endsInNumber (cs : List Char) : Bool :=
  match (labels cs).getLast? with
  | none => false
  | some [] => false
  | some last => last.all isDigit || (ipv4Number? last).isSome

/-- The address of one to four numbers, all but the last of which stand for one octet each. -/
def ipv4? (cs : List Char) : Option Nat := do
  let parts ← (labels cs).mapM ipv4Number?
  let last ← parts.getLast?
  let octets := parts.dropLast
  if octets.length < 4 ∧ octets.all (· < 256) ∧ last < Nat.pow 256 (4 - octets.length) then
    return octets.foldl (fun acc n => 256 * acc + n) 0 * Nat.pow 256 (4 - octets.length) + last
  else none

/-! ### IPv6 -/

/-- A number below 256 in decimal without leading zeros. -/
def octet? (cs : List Char) : Option Nat :=
  match cs with
  | [] => none
  | ['0'] => some 0
  | '0' :: _ => none
  | digits =>
    if digits.all isDigit ∧ digits.length ≤ 3 ∧ digitsValue digits < 256 then
      some (digitsValue digits)
    else none

/-- The two pieces that an IPv4 address at the end of an IPv6 address stands for. -/
def ipv4Tail? (cs : List Char) : Option (List Nat) := do
  match ← (splitAt '.' cs).mapM octet? with
  | [a, b, c, d] => return [256 * a + b, 256 * c + d]
  | _ => none

/-- Up to four digits in base 16 at the front: their number, how many there are, and the rest. -/
def hexPiece (cs : List Char) : Nat × Nat × List Char :=
  let digits := (cs.take 4).takeWhile fun c => (hexValue? c).isSome
  (digits.foldl (fun n c => 16 * n + (hexValue? c).getD 0) 0, digits.length,
    cs.drop digits.length)

/-- Read pieces after those that have been read, and where a run of zeros was left out, if one
was.  The left-out run counts as one zero piece so far. -/
def ipv6Pieces? : Nat → List Nat → Option Nat → List Char → Option (List Nat × Option Nat)
  | _, pieces, gap, [] => some (pieces, gap)
  | 0, _, _, _ :: _ => none
  | fuel + 1, pieces, gap, c :: rest =>
    if pieces.length = 8 then none
    else if c = ':' then
      if gap.isSome then none
      else ipv6Pieces? fuel (pieces ++ [0]) (some (pieces.length + 1)) rest
    else
      let (n, count, left) := hexPiece (c :: rest)
      match left with
      | [] => some (pieces ++ [n], gap)
      | ':' :: left =>
        if count = 0 ∨ left = [] then none else ipv6Pieces? fuel (pieces ++ [n]) gap left
      | '.' :: _ =>
        if count = 0 ∨ 6 < pieces.length then none
        else (ipv4Tail? (c :: rest)).map fun tail => (pieces ++ tail, gap)
      | _ => none

/-- The eight pieces of an IPv6 address. -/
def ipv6? (cs : List Char) : Option (List Nat) := do
  let (pieces, gap) ←
    match cs with
    | ':' :: ':' :: rest => ipv6Pieces? cs.length [0] (some 1) rest
    | ':' :: _ => none
    | [] => none
    | _ => ipv6Pieces? cs.length [] none cs
  match gap with
  | none => if pieces.length = 8 then some pieces else none
  | some gap =>
    if pieces.length ≤ 8 then
      return pieces.take gap ++ List.replicate (8 - pieces.length) 0 ++ pieces.drop gap
    else none

/-! ### Reading hosts -/

/-- A character that no name of the domain name system may hold. -/
def isForbiddenInDomain (c : Char) : Bool :=
  c.toNat ≤ 0x20 || c.toNat == 0x7F || "%#/:<>?@[\\]^|".toList.contains c

/-- A character that no host of any scheme may hold. -/
def isForbiddenInHost (c : Char) : Bool :=
  c.toNat == 0 || "\t\n\r #/:<>?@[\\]^|".toList.contains c

/-- The address between brackets. -/
def bracketed (cs : List Char) : Except UrlError Host :=
  match cs.getLast? with
  | some ']' =>
    match ipv6? cs.dropLast with
    | some pieces => .ok (.ipv6 pieces)
    | none => .error .invalidIpv6
  | _ => .error .invalidIpv6

/-- The names that hosts of the web may have.  Which names there are, and how those in other
letters are put in ASCII, is for the tables of international names to say; no more is known of
them than that a name in ASCII holds no character that it must not hold. -/
class DomainNames where
  /-- A name in ASCII, if it is one. -/
  toAscii? : List Char → Option (List Char)
  /-- No name in ASCII holds a character that no name may hold. -/
  allowed : ∀ {name ascii}, toAscii? name = some ascii →
    ∀ c ∈ ascii, isForbiddenInDomain c = false

/-- A name that is in ASCII already, in lower case. -/
def asciiName? (name : List Char) : Option (List Char) :=
  let lower := name.map asciiLowerChar
  if lower.any fun c => isForbiddenInDomain c || 0x80 ≤ c.toNat then none else some lower

/-- Only the names that are in ASCII already, unless other tables are given. -/
instance asciiNames : DomainNames where
  toAscii? := asciiName?
  allowed h c hc := by
    simp only [asciiName?, Option.ite_none_left_eq_some, List.any_eq_true, Bool.or_eq_true,
      not_exists, not_and, not_or, Option.some.injEq] at h
    obtain ⟨hallowed, rfl⟩ := h
    exact Bool.eq_false_iff.mpr (hallowed c hc).1

/-- The host of a special scheme: a name without its percent-encoding, or an address. -/
def Host.readSpecial [DomainNames] (cs : List Char) : Except UrlError Host :=
  match cs with
  | '[' :: rest => bracketed rest
  | _ =>
    match Utf8.decode? (percentDecode cs) with
    | none => .error .invalidDomainName
    | some decoded =>
      match DomainNames.toAscii? decoded.toList with
      | none => .error .invalidDomainName
      | some name =>
        if name.isEmpty then .error .emptyHost
        else if endsInNumber name then
          match ipv4? name with
          | some address => .ok (.ipv4 address)
          | none => .error .invalidIpv4
        else .ok (.domain (String.ofList name))

/-- The host of a scheme without rules of its own. -/
def Host.readOther (cs : List Char) : Except UrlError Host :=
  match cs with
  | '[' :: rest => bracketed rest
  | _ =>
    if cs.any isForbiddenInHost then .error .invalidHostCharacter
    else .ok (.domain (String.ofList (percentEncode inNothing cs)))

end DropRoom.Url
