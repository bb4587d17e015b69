import DropRoom.Bytes.Utf8
import DropRoom.Text.Ascii

namespace DropRoom.File

/-!
# Media types

* `MediaTypes` — the types of extensions, and `commonMediaTypes`, a few of them;
* `mediaTypeOfName` — the type that the extension of a file name stands for;
* `isMediaType` — whether a text is a type and a subtype with parameters after them;
* `normalMediaType?` — a media type in lower case.
-/

open DropRoom.Text

/-! ### By extension -/

/-- The media types that extensions stand for.  The registry of them is left open. -/
class MediaTypes where
  /-- The type of an extension, if it has one. -/
  ofExtension? : String → Option String

/-- A few of the types of the registry, for the extensions that are met most. -/
def commonTypes : List (String × String) := [
  ("pdf", "application/pdf"),
  ("txt", "text/plain"),
  ("png", "image/png"),
  ("jpg", "image/jpeg"),
  ("jpeg", "image/jpeg"),
  ("gif", "image/gif"),
  ("html", "text/html"),
  ("css", "text/css"),
  ("json", "application/json"),
  ("zip", "application/zip"),
  ("mp4", "video/mp4"),
  ("csv", "text/csv"),
  ("docx", "application/vnd.openxmlformats-officedocument.wordprocessingml.document"),
  ("xlsx", "application/vnd.openxmlformats-officedocument.spreadsheetml.sheet"),
  ("gz", "application/gzip"),
  ("svg", "image/svg+xml"),
  ("mp3", "audio/mpeg"),
  ("xml", "text/xml")]

/-- Only the few common types, unless the whole registry is given. -/
instance commonMediaTypes : MediaTypes where
  ofExtension? ext := commonTypes.lookup (asciiLower ext)

/-- The type of content of which nothing is known. -/
def unknownMediaType : String := "application/octet-stream"

/-- The type that the extension of a file name stands for.  A point at the start of a name does
not begin an extension. -/
def mediaTypeOfName [MediaTypes] (name : String) : String :=
  match cutLast '.' ((splitAt '/' name.toList).getLastD []) with
  | none => unknownMediaType
  | some ([], _) => unknownMediaType
  | some (_, ext) =>
    (MediaTypes.ofExtension? (String.ofList ext)).getD unknownMediaType

/-! ### By form -/

/-- A character of a name within a media type. -/
def isTokenChar (c : Char) : Bool :=
  isLetter c || isDigit c || "!#$%&'*+-.^_\x60|~".toList.contains c

/-- A character between quotes. -/
def isQuotedChar (c : Char) : Bool :=
  31 < c.toNat && c.toNat != 127

/-- After a value between quotes: blanks, and then the next parameter or the end. -/
def afterQuoted : List Char → Option (List Char)
  | [] => some []
  | c :: cs => if c = ';' then some cs else if c = ' ' then afterQuoted cs else none

/-- Pass over one parameter: its name, an equals sign, and a value, which may stand between
quotes.  The first character after an opening quote belongs to the value, whatever it is. -/
def skipParameter (cs : List Char) : Option (List Char) :=
  let name := cs.takeWhile isTokenChar
  match name, cs.drop name.length with
  | [], _ => none
  | _, '=' :: '"' :: c :: rest =>
    let value := rest.takeWhile fun d => isQuotedChar d && d != '"'
    match isQuotedChar c, rest.drop value.length with
    | true, '"' :: rest => afterQuoted rest
    | _, _ => none
  | _, '=' :: rest =>
    let value := rest.takeWhile isTokenChar
    match value, rest.drop value.length with
    | _, [] => some []
    | _ :: _, ';' :: rest => some rest
    | _, _ => none
  | _, _ => none

/-- Whether a text is a list of parameters. -/
def areParameters : Nat → List Char → Bool
  | 0, cs => cs.isEmpty
  | fuel + 1, cs =>
    match cs.dropWhile (· == ' ') with
    | [] => true
    | cs =>
      match skipParameter cs with
      | some rest => areParameters fuel rest
      | none => false

/-- Whether a text is a type and a subtype with parameters after them. -/
def isMediaType (text : String) : Bool :=
  let cs := text.toList
  let kind := cs.takeWhile isTokenChar
  match kind, cs.drop kind.length with
  | [], _ => false
  | _, '/' :: rest =>
    let subkind := rest.takeWhile isTokenChar
    match subkind, rest.drop subkind.length with
    | _, [] => true
    | _ :: _, ';' :: parameters => areParameters parameters.length parameters
    | _, _ => false
  | _, _ => false

/-- A media type in lower case. -/
def normalMediaType? (text : String) : Option String :=
  if isMediaType text then some (asciiLower text) else none

end DropRoom.File
