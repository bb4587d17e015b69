import DropRoom.Url.Basic

namespace DropRoom.Url

/-!
# Reading addresses

The reader of the WHATWG standard: blanks and control characters at both ends and
tabs and line ends anywhere are dropped, and what remains is taken apart from left
to right.  A reference is resolved against a base.

* `parse` — read an address;
* `join` — resolve a reference against a base;
* `resolveDots` — append segments to a path, where `.` stays and `..` goes up.
-/

open DropRoom.Text

/-! ### Paths -/

/-- The spellings of `.` as a segment. -/
def isSingleDot (segment : String) : Bool :=
  let s := asciiLower segment
  s == "." || s == "%2e"

/-- The spellings of `..` as a segment. -/
def isDoubleDot (segment : String) : Bool :=
  let s := asciiLower segment
  s == ".." || s == "%2e%2e" || s == "%2e." || s == ".%2e"

/-- A letter and a colon or bar: the name of a drive at the front of a `file` path. -/
def drive? (segment : String) : Option String :=
  match segment.toList with
  | [c, d] => if isLetter c ∧ (d = ':' ∨ d = '|') then some (String.ofList [c, ':']) else none
  | _ => none

/-- The path one level up; a drive stays. -/
def goUp (scheme : String) (path : List String) : List String :=
  match path with
  | [only] =>
    if scheme = "file" ∧ drive? only = some only then [only] else []
  | _ => path.dropLast

/-- The path with one more segment; a drive at the front of a `file` path gets its colon. -/
def append (scheme : String) (path : List String) (segment : String) : List String :=
  if scheme = "file" ∧ path.isEmpty then [(drive? segment).getD segment] else path ++ [segment]

/-- Append segments to a path.  `.` stays and `..` goes up, and where one of them is last the path
ends in an empty segment. -/
def resolveDots (scheme : String) : List String → List String → List String
  | path, [] => path
  | path, [last] =>
    if isDoubleDot last then goUp scheme path ++ [""]
    else if isSingleDot last then path ++ [""]
    else append scheme path last
  | path, segment :: more =>
    if isDoubleDot segment then resolveDots scheme (goUp scheme path) more
    else if isSingleDot segment then resolveDots scheme path more
    else resolveDots scheme (append scheme path segment) more

/-- Split at slashes, and at backslashes where the scheme is special. -/
def splitSegments (special : Bool) (cs : List Char) : List (List Char) :=
  splitAt '/' (if special then cs.map fun c => if c = '\\' then '/' else c else cs)

/-- Drop the empty segments at the front of a `file` path, but for the last segment. -/
def dropEmpty : List String → List String
  | "" :: next :: rest => dropEmpty (next :: rest)
  | path => path

/-- Append the segments of a text to a path. -/
def appendText (scheme : String) (path : List String) (cs : List Char) : List String :=
  let segments := (splitSegments (isSpecial scheme) cs).map fun segment =>
    String.ofList (percentEncode inPath segment)
  let result := resolveDots scheme path segments
  if scheme = "file" then dropEmpty result else result

/-- The path after a host. -/
def pathAfterHost (scheme : String) (cs : List Char) : List String :=
  match cs with
  | '/' :: rest => appendText scheme [] rest
  | '\\' :: rest =>
    if isSpecial scheme then appendText scheme [] rest else appendText scheme [] ('\\' :: rest)
  | [] => if isSpecial scheme then [""] else []
  | cs => appendText scheme [] cs

/-! ### Query and fragment -/

/-- Everything before the first of two characters, and what follows from there on. -/
def splitBefore (stop : Char → Bool) (cs : List Char) : List Char × List Char :=
  (cs.takeWhile fun c => !stop c, cs.dropWhile fun c => !stop c)

/-- A character that ends a path. -/
def endsPath (c : Char) : Bool :=
  c == '?' || c == '#'

/-- A fragment. -/
def fragmentOf (cs : List Char) : String :=
  String.ofList (percentEncode inFragment cs)

/-- Query and fragment of a text that starts with the mark of one of them, or is empty. -/
def queryAndFragment (scheme : String) (cs : List Char) : Option String × Option String :=
  match cs with
  | '?' :: rest =>
    let (query, rest) := splitBefore (· == '#') rest
    let encoded := percentEncode (if isSpecial scheme then inSpecialQuery else inQuery) query
    match rest with
    | '#' :: fragment => (some (String.ofList encoded), some (fragmentOf fragment))
    | _ => (some (String.ofList encoded), none)
  | '#' :: fragment => (none, some (fragmentOf fragment))
  | _ => (none, none)

/-- Give an address its path, query and fragment, the path being read by the given function. -/
def withRest (url : Url) (readPath : List Char → Path) (cs : List Char) : Url :=
  let (path, rest) := splitBefore endsPath cs
  let (query, fragment) := queryAndFragment url.scheme rest
  { url with path := readPath path, query := query, fragment := fragment }

/-- An address that has a scheme only. -/
def bare (scheme : String) : Url :=
  ⟨scheme, "", "", none, none, .segments [], none, none⟩

/-! ### Authorities -/

/-- A character that ends the part with user, host and port. -/
def endsAuthority (special : Bool) (c : Char) : Bool :=
  c == '/' || c == '?' || c == '#' || (special && c == '\\')

/-- User name and password of the text before the last `@`. -/
def credentials (cs : List Char) : String × String :=
  match cut ':' cs with
  | none => (String.ofList (percentEncode inUserinfo cs), "")
  | some (user, password) =>
    (String.ofList (percentEncode inUserinfo user),
      String.ofList (percentEncode inUserinfo password))

/-- Split a host from the colon of its port; colons between brackets belong to the host. -/
def splitPort : Bool → List Char → List Char × Option (List Char)
  | _, [] => ([], none)
  | inside, c :: cs =>
    if c = ':' ∧ ¬ inside then ([], some cs)
    else
      let inside := if c = '[' then true else if c = ']' then false else inside
      let (host, port) := splitPort inside cs
      (c :: host, port)

/-- A port below 65536; none where it is empty or the one that the scheme uses anyway. -/
def readPort (scheme : String) (cs : List Char) : Except UrlError (Option Nat) :=
  if cs.all isDigit then
    let port := digitsValue cs
    if 65535 < port then .error .invalidPort
    else if cs.isEmpty ∨ defaultPort? scheme = some port then .ok none
    else .ok (some port)
  else .error .invalidPort

/-- The host of a scheme. -/
def readHost [DomainNames] (scheme : String) (cs : List Char) : Except UrlError Host :=
  if isSpecial scheme then
    if cs.isEmpty then .error .emptyHost else Host.readSpecial cs
  else Host.readOther cs

/-- User, host and port of an address, from the text between its two slashes and its path, and
what is left of that text: a backslash ends the port of any scheme. -/
def readAuthority [DomainNames] (scheme : String) (cs : List Char) :
    Except UrlError (Url × List Char) :=
  let (user, hostAndPort) :=
    match cutLast '@' cs with
    | none => ([], cs)
    | some (user, rest) => (user, rest)
  let (username, password) := credentials user
  let (hostText, portText) := splitPort false hostAndPort
  match readHost scheme hostText with
  | .error e => .error e
  | .ok host =>
    let url := { bare scheme with username := username, password := password, host := some host }
    if host = .domain "" ∧ (portText.isSome ∨ username ≠ "" ∨ password ≠ "") then
      .error .emptyHost
    else
      match portText with
      | none => .ok (url, [])
      | some portText =>
        let (digits, left) := splitBefore (· == '\\') portText
        match readPort scheme digits with
        | .error e => .error e
        | .ok port => .ok ({ url with port := port }, left)

/-- An address from the text after its two slashes. -/
def afterSlashes [DomainNames] (scheme : String) (cs : List Char) : Except UrlError Url :=
  let (authority, rest) := splitBefore (endsAuthority (isSpecial scheme)) cs
  match readAuthority scheme authority with
  | .error e => .error e
  | .ok (url, left) =>
    .ok (url.withRest (fun path => .segments (pathAfterHost scheme path)) (left ++ rest))

/-! ### Schemes -/

/-- A character of a scheme after its first. -/
def isSchemeChar (c : Char) : Bool :=
  isLetter c || isDigit c || c == '+' || c == '-' || c == '.'

/-- The scheme at the front of a text, in lower case, and what follows its colon. -/
def scheme? : List Char → Option (String × List Char)
  | c :: cs =>
    if isLetter c then
      match (c :: cs).dropWhile isSchemeChar with
      | ':' :: rest => some (asciiLower (String.ofList ((c :: cs).takeWhile isSchemeChar)), rest)
      | _ => none
    else none
  | [] => none

/-- A slash or backslash. -/
def isSlash (c : Char) : Bool :=
  c == '/' || c == '\\'

/-- A `file` address from the text after its scheme. -/
def readFile [DomainNames] (cs : List Char) : Except UrlError Url :=
  let withoutHost := { bare "file" with host := some (.domain "") }
  match cs with
  | a :: b :: rest =>
    if isSlash a ∧ isSlash b then
      let (hostText, after) := splitBefore (endsAuthority true) rest
      if (drive? (String.ofList hostText)).isSome then
        .ok (withoutHost.withRest (fun path => .segments (appendText "file" [] path)) rest)
      else if hostText.isEmpty then
        .ok (withoutHost.withRest (fun path => .segments (pathAfterHost "file" path)) after)
      else
        match Host.readSpecial hostText with
        | .error e => .error e
        | .ok host =>
          let host := if host = .domain "localhost" then .domain "" else host
          .ok ({ bare "file" with host := some host }.withRest
            (fun path => .segments (pathAfterHost "file" path)) after)
    else .ok (withoutHost.withRest (fun path => .segments (pathAfterHost "file" path)) cs)
  | cs => .ok (withoutHost.withRest (fun path => .segments (pathAfterHost "file" path)) cs)

/-- An address of a scheme without rules of its own, from the text after the scheme. -/
def readOther [DomainNames] (scheme : String) (cs : List Char) : Except UrlError Url :=
  match cs with
  | '/' :: '/' :: rest => afterSlashes scheme rest
  | '/' :: rest => .ok ((bare scheme).withRest (fun path => .segments (appendText scheme [] path)) rest)
  | cs =>
    .ok ((bare scheme).withRest
      (fun path => .rootless (String.ofList (percentEncode inNothing path))) cs)

/-- An address from its scheme and the text after it. -/
def readWithScheme [DomainNames] (scheme : String) (cs : List Char) : Except UrlError Url :=
  if scheme = "file" then readFile cs
  else if isSpecial scheme then afterSlashes scheme (cs.dropWhile isSlash)
  else readOther scheme cs

/-! ### References -/

/-- Resolve a reference without a scheme against a base with a hierarchy. -/
def resolve [DomainNames] (base : Url) (basePath : List String) (cs : List Char) :
    Except UrlError Url :=
  match cs with
  | [] => .ok { base with fragment := none }
  | '?' :: rest =>
    let (query, fragment) := queryAndFragment base.scheme ('?' :: rest)
    .ok { base with query := query, fragment := fragment }
  | '#' :: rest => .ok { base with fragment := some (fragmentOf rest) }
  | c :: rest =>
    if c = '/' ∨ (isSpecial base.scheme ∧ c = '\\') then
      if ((c :: rest).takeWhile isSlash).length ≥ 2 then
        match cs with
        | '/' :: '/' :: after => afterSlashes base.scheme after
        | _ => afterSlashes base.scheme (cs.dropWhile isSlash)
      else .ok (base.withRest (fun path => .segments (appendText base.scheme [] path)) rest)
    else
      .ok (base.withRest
        (fun path => .segments (appendText base.scheme (goUp base.scheme basePath) path)) cs)

/-- Drop blanks and control characters at both ends, and tabs and line ends everywhere. -/
def normalized (text : String) : List Char :=
  let isEdge := fun (c : Char) => decide (c.toNat ≤ 0x20)
  let trimmed := ((text.toList.dropWhile isEdge).reverse.dropWhile isEdge).reverse
  trimmed.filter fun c => !(c == '\t' || c == '\n' || c == '\r')

/-- Read an address. -/
def parse [DomainNames] (text : String) : Except UrlError Url :=
  match scheme? (normalized text) with
  | some (scheme, rest) => readWithScheme scheme rest
  | none => .error .relativeWithoutBase

/-- Resolve a reference against a base.  A reference with a scheme stands for itself, unless the
scheme is special, is that of the base, and fewer than two slashes follow. -/
def join [DomainNames] (base : Url) (reference : String) : Except UrlError Url :=
  let cs := normalized reference
  match scheme? cs with
  | some (scheme, rest) =>
    match base.path with
    | .segments basePath =>
      if isSpecial scheme ∧ scheme ≠ "file" ∧ scheme = base.scheme ∧
          (rest.takeWhile isSlash).length < 2 then
        resolve base basePath rest
      else readWithScheme scheme rest
    | .rootless _ => readWithScheme scheme rest
  | none =>
    match cs, base.path with
    | '#' :: rest, _ => .ok { base with fragment := some (fragmentOf rest) }
    | _, .segments basePath => resolve base basePath cs
    | _, .rootless _ => .error .relativeWithRootlessBase

end DropRoom.Url
