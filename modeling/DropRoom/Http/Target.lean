import DropRoom.Url.Reader

namespace DropRoom.Http

/-!
# Targets of requests

The first line of a request tells what it is for: a path on the server, a full
address, or a host.

* `Target` — what a request is for;
* `Target.parse?` — read it; a fragment is dropped;
* `Target.render` — write it;
* `Target.resolve` — the address of a target on a server.
-/

open DropRoom.Text

/-- What a request is for. -/
inductive Target where
  /-- A path with its query, or the mark `*` for the server as a whole. -/
  | path (text : String)
  /-- A full address. -/
  | address (scheme authority rest : String)
  /-- A host. -/
  | host (authority : String)
  deriving DecidableEq, Repr

namespace Target

/-! ### Paths -/

/-- A character of a path that need not be encoded. -/
def isPathChar (c : Char) : Bool :=
  32 < c.toNat && !"#<>?\x60".toList.contains c

/-- A character of a query that need not be encoded. -/
def isQueryChar (c : Char) : Bool :=
  32 < c.toNat && !"\"#<>".toList.contains c

/-- The characters before a fragment. -/
def withoutFragment (cs : List Char) : List Char :=
  cs.takeWhile (· ≠ '#')

/-- A path with its query; an empty path is that of the root. -/
def pathWithQuery? (cs : List Char) : Option (List Char) :=
  let cs := withoutFragment cs
  let before := cs.takeWhile (· ≠ '?')
  let query := cs.dropWhile (· ≠ '?')
  if before.all isPathChar && query.tail.all isQueryChar then
    some ((if before = [] then ['/'] else before) ++ query)
  else none

/-! ### Hosts -/

/-- A character of an authority. -/
def isAuthorityChar (c : Char) : Bool :=
  isLetter c || isDigit c || "!$&'()*+,-.;=_~".toList.contains c

/-- What has been seen of an authority. -/
structure Authority where
  /-- The colons that may stand before a port. -/
  colons : Nat
  opened : Bool
  closed : Bool
  /-- Whether something was encoded that is no user name or password. -/
  encoded : Bool
  /-- Whether the last character is the mark after user name and password. -/
  marked : Bool
  deriving DecidableEq, Repr

namespace Authority

/-- Nothing has been seen. -/
def initial : Authority :=
  ⟨0, false, false, false, false⟩

/-- What has been seen after one more character. -/
def next (seen : Authority) (c : Char) : Option Authority :=
  match c with
  | ':' =>
    if seen.colons < 8 then some { seen with colons := seen.colons + 1, marked := false } else none
  | '[' =>
    if seen.encoded || seen.opened then none else some { seen with opened := true, marked := false }
  | ']' =>
    if !seen.opened || seen.closed then none
    else some { seen with colons := 0, closed := true, encoded := false, marked := false }
  | '@' => some { seen with colons := 0, encoded := false, marked := true }
  | '%' => some { seen with encoded := true, marked := false }
  | c => if isAuthorityChar c then some { seen with marked := false } else none

/-- Whether what has been seen is an authority. -/
def isComplete (seen : Authority) : Bool :=
  seen.opened == seen.closed && seen.colons ≤ 1 && !seen.encoded && !seen.marked

/-- Whether characters are an authority; none at all are one. -/
def isProper (cs : List Char) : Bool :=
  match cs.foldlM next initial with
  | some seen => seen.isComplete
  | none => false

end Authority

/-! ### Schemes -/

/-- A character of a scheme. -/
def isSchemeChar (c : Char) : Bool :=
  isLetter c || isDigit c || c == '+' || c == '-' || c == '.'

/-- The two schemes of the web are written in lower case. -/
def normalScheme (scheme : String) : String :=
  let lower := asciiLower scheme
  if lower = "http" ∨ lower = "https" then lower else scheme

/-- The scheme of a full address, and what follows it. -/
def cutScheme? (cs : List Char) : Option (List Char × List Char) :=
  match cs.dropWhile isSchemeChar with
  | ':' :: '/' :: '/' :: rest => some (cs.takeWhile isSchemeChar, rest)
  | _ => none

/-! ### Reading and writing -/

/-- The full address of a scheme and what follows it. -/
def address? (scheme cs : List Char) : Option Target :=
  let isEnd := fun c : Char => c == '/' || c == '?' || c == '#'
  let authority := cs.takeWhile fun c => !isEnd c
  if 64 < scheme.length || authority = [] || !Authority.isProper authority then none
  else (pathWithQuery? (cs.dropWhile fun c => !isEnd c)).map fun rest =>
    .address (normalScheme (String.ofList scheme)) (String.ofList authority) (String.ofList rest)

/-- The longest target, in bytes. -/
def sizeLimit : Nat := 65534

/-- Read what a request is for. -/
def parse? (text : String) : Option Target :=
  if sizeLimit < text.utf8ByteSize then none
  else
    match text.toList with
    | [] => none
    | ['*'] => some (.path "*")
    | '/' :: cs => (pathWithQuery? ('/' :: cs)).map fun rest => .path (String.ofList rest)
    | cs =>
      match cutScheme? cs with
      | some (scheme, rest) => address? scheme rest
      | none => if Authority.isProper cs then some (.host text) else none

/-- The text of a target. -/
def render : Target → String
  | .path text => text
  | .address scheme authority rest => scheme ++ "://" ++ authority ++ rest
  | .host authority => authority

/-- The address of a target: full addresses stand for themselves, and paths are resolved on the
server.  A host alone means the root of the server. -/
def resolve [Url.DomainNames] (origin : Url) (target : Target) : Except Url.UrlError Url :=
  match target with
  | .path text => origin.join text
  | .address _ _ _ => Url.parse target.render
  | .host _ => origin.join "/"

end Target

end DropRoom.Http
