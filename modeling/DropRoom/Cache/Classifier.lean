import DropRoom.Cache.Matcher
import DropRoom.Settings.Basic

namespace DropRoom.Cache

/-!
# Classes of requests

Rules are tried in order, and the first that recognises an address gives its
class.

* `Kind` — the classes, and `Strategy`, how the requests of a class are answered;
* `Classifier` — rules in order, and `Classifier.ofSettings`, those of settings;
* `Classifier.classify` — the class of an address;
* `Classifier.route` — whether a request is intercepted.
-/

/-- How an intercepted request is answered. -/
inductive Strategy where
  /-- From the network, else from the cache, else with a document about being offline. -/
  | networkFirst
  /-- From the cache, else from the network. -/
  | cacheFirst
  /-- From the network, else from the cache, else with a page about being offline. -/
  | networkFirstWithFallback
  deriving DecidableEq, Repr

/-- The class of an address. -/
inductive Kind where
  /-- A file of a room, which is never intercepted. -/
  | dynamic
  | api
  | static
  /-- None of the others. -/
  | residual
  deriving DecidableEq, Repr

/-- How the requests of a class are answered; none where they are not intercepted. -/
def Kind.strategy? : Kind → Option Strategy
  | .dynamic => none
  | .api => some .networkFirst
  | .static => some .cacheFirst
  | .residual => some .networkFirstWithFallback

/-- A class and the ways to recognise its addresses. -/
structure Rule where
  kind : Kind
  matchers : List Matcher
  deriving DecidableEq, Repr

/-- Whether a rule recognises an address. -/
def Rule.hits (rule : Rule) (url : Url) : Bool :=
  rule.matchers.any (Matcher.hits url)

/-- Why a request is not intercepted. -/
inductive PassReason where
  | nonGet
  | unsupportedScheme
  /-- It asks for a stream that does not end. -/
  | eventStream
  | dynamic
  deriving DecidableEq, Repr

/-- What becomes of a request. -/
inductive Decision where
  | pass (reason : PassReason)
  | intercept (kind : Kind) (strategy : Strategy)
  deriving DecidableEq, Repr

/-- Rules in order. -/
structure Classifier where
  rules : List Rule
  deriving DecidableEq, Repr

namespace Classifier

/-- The rules of settings: first the files of rooms, then the paths of the server's interface,
then the static assets. -/
def ofSettings [Url.DomainNames] (settings : CacheSettings) : Classifier where
  rules := [
    ⟨.dynamic, settings.dynamicFiles.map .pathContains⟩,
    ⟨.api, settings.apiPatterns.map .pathContains⟩,
    ⟨.static, settings.staticAssets.flatMap Matcher.ofAsset⟩]

/-- The class of an address: that of the first rule that recognises it. -/
def classify (classifier : Classifier) (url : Url) : Kind :=
  match classifier.rules.find? (Rule.hits · url) with
  | some rule => rule.kind
  | none => .residual

/-- What becomes of a request. -/
def route (classifier : Classifier) (request : Http.Request) : Decision :=
  if request.method ≠ "GET" then .pass .nonGet
  else if ¬ request.url.isHttp then .pass .unsupportedScheme
  else if request.accepts "text/event-stream" then .pass .eventStream
  else
    let kind := classifier.classify request.url
    match kind.strategy? with
    | some strategy => .intercept kind strategy
    | none => .pass .dynamic

end Classifier

/-! ### Document form -/

/-- The name of a class. -/
def Kind.name : Kind → String
  | .dynamic => "dynamic"
  | .api => "api"
  | .static => "static"
  | .residual => "residual"

/-- The decoder of a class. -/
def Kind.decoder : Json.Decoder Kind :=
  .name [("dynamic", .dynamic), ("api", .api), ("static", .static), ("residual", .residual)]

/-- The name of a strategy. -/
def Strategy.name : Strategy → String
  | .networkFirst => "network_first"
  | .cacheFirst => "cache_first"
  | .networkFirstWithFallback => "network_first_with_fallback"

/-- The decoder of a strategy. -/
def Strategy.decoder : Json.Decoder Strategy :=
  .name [("network_first", .networkFirst), ("cache_first", .cacheFirst),
    ("network_first_with_fallback", .networkFirstWithFallback)]

end DropRoom.Cache
