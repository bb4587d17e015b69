import DropRoom.Url.Host

namespace DropRoom

/-!
# Addresses

An address of the web in its parts, as the WHATWG standard takes it apart.

* `Url` — the parts;
* `Url.render` — the text of an address;
* `Url.pathText` — the text of its path;
* `Url.isSpecial`, `Url.defaultPort?` — what the standard says about schemes;
* `Url.origin` — scheme, host and port.
-/

namespace Url

/-- The path of an address. -/
inductive Path where
  /-- A text without hierarchy. -/
  | rootless (text : String)
  /-- Segments, each of which follows a slash. -/
  | segments (items : List String)
  deriving DecidableEq, Repr

/-- The schemes that the standard has rules for. -/
def isSpecial (scheme : String) : Bool :=
  scheme == "http" || scheme == "https" || scheme == "ws" || scheme == "wss" ||
    scheme == "ftp" || scheme == "file"

/-- The port that a scheme uses where an address names none. -/
def defaultPort? (scheme : String) : Option Nat :=
  if scheme = "http" ∨ scheme = "ws" then some 80
  else if scheme = "https" ∨ scheme = "wss" then some 443
  else if scheme = "ftp" then some 21
  else none

/-- The segments, each after a slash. -/
def segmentChars (items : List String) : List Char :=
  items.flatMap fun item => '/' :: item.toList

/-- The text of a path. -/
def Path.chars : Path → List Char
  | .rootless text => text.toList
  | .segments items => segmentChars items

end Url

/-- An address. -/
structure Url where
  scheme : String
  username : String
  password : String
  host : Option Url.Host
  port : Option Nat
  path : Url.Path
  query : Option String
  fragment : Option String
  deriving DecidableEq, Repr

namespace Url

/-- Whether the scheme is one of the two of the web. -/
def isHttp (url : Url) : Bool :=
  url.scheme == "http" || url.scheme == "https"

/-- The text of the path. -/
def pathText (url : Url) : String :=
  String.ofList url.path.chars

/-- User name and password before the host. -/
def credentialChars (url : Url) : List Char :=
  if url.username = "" ∧ url.password = "" then []
  else
    url.username.toList ++ (if url.password = "" then [] else ':' :: url.password.toList) ++ ['@']

/-- The port after the host. -/
def portChars (url : Url) : List Char :=
  match url.port with
  | none => []
  | some port => ':' :: Nat.toDigits 10 port

/-- Everything between scheme and path.  Without a host, a path that starts with two slashes is
kept apart from the place of the host. -/
def authorityChars (url : Url) : List Char :=
  match url.host with
  | some host => '/' :: '/' :: url.credentialChars ++ host.chars ++ url.portChars
  | none =>
    match url.path with
    | .segments ("" :: _ :: _) => ['/', '.']
    | _ => []

/-- A part after its mark, where there is one. -/
def markedChars (mark : Char) : Option String → List Char
  | none => []
  | some text => mark :: text.toList

/-- The characters of an address. -/
def chars (url : Url) : List Char :=
  url.scheme.toList ++ ':' :: url.authorityChars ++ url.path.chars ++ markedChars '?' url.query ++
    markedChars '#' url.fragment

/-- The text of an address. -/
def render (url : Url) : String :=
  String.ofList url.chars

/-- Scheme, host and port: what decides which server an address belongs to. -/
structure Origin where
  scheme : String
  host : Option Host
  port : Option Nat
  deriving DecidableEq, Repr

/-- The server that an address belongs to. -/
def origin (url : Url) : Origin :=
  ⟨url.scheme, url.host, url.port⟩

end Url

end DropRoom
