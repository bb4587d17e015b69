import DropRoom.Http.Message
import DropRoom.Json.Record
import DropRoom.Url.Reader

namespace DropRoom.Cache

/-!
# Matching addresses

* `Matcher` — one way to recognise an address;
* `Matcher.hits` — whether an address is recognised;
* `Matcher.ofAsset` — the ways to recognise a static asset.
-/

/-- One way to recognise an address. -/
inductive Matcher where
  /-- By a part of its path. -/
  | pathContains (part : String)
  /-- By its path. -/
  | exactPath (path : String)
  /-- By the end of its path. -/
  | pathSuffix (ending : String)
  /-- By its text. -/
  | exactUrl (text : String)
  deriving DecidableEq, Repr

namespace Matcher

/-- Whether an address is recognised. -/
def hits (url : Url) : Matcher → Bool
  | .pathContains part => Text.occursIn part.toList url.path.chars
  | .exactPath path => url.pathText == path
  | .pathSuffix ending => ending.toList.isSuffixOf url.path.chars
  | .exactUrl text => url.render == text

/-- Whether a text is an address of the web by its first characters. -/
def looksAbsolute (text : String) : Bool :=
  "http://".toList.isPrefixOf text.toList || "https://".toList.isPrefixOf text.toList

/-- An address in its normal form; other texts stay as they are. -/
def normalForm [Url.DomainNames] (text : String) : String :=
  match Url.parse text with
  | .ok url => url.render
  | .error _ => text

/-- The ways to recognise a static asset: an address by its normal form, a path as a whole or as
the end of another. -/
def ofAsset [Url.DomainNames] (asset : String) : List Matcher :=
  if looksAbsolute asset then [.exactUrl (normalForm asset)]
  else [.exactPath asset, .pathSuffix asset]

/-! ### Document form -/

/-- The names of the kinds of matchers. -/
def kinds : List (String × (String → Matcher)) :=
  [("path_contains", .pathContains), ("exact_path", .exactPath), ("path_suffix", .pathSuffix),
    ("exact_url", .exactUrl)]

/-- The decoder of a matcher. -/
def decoder : Json.Decoder Matcher :=
  Json.adjacent "type" "value" kinds .string

/-- The name of a kind with a text, as a JSON value. -/
def document (kind value : String) : Json :=
  .object [("type", .string kind), ("value", .string value)]

/-- A matcher as a JSON value. -/
def toJson : Matcher → Json
  | .pathContains part => document "path_contains" part
  | .exactPath path => document "exact_path" path
  | .pathSuffix ending => document "path_suffix" ending
  | .exactUrl text => document "exact_url" text

end Matcher

end DropRoom.Cache
