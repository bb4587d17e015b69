import DropRoom.Cache.Serving
import DropRoom.Http.Target
import DropRoom.Http.Wire

namespace DropRoom

/-!
# The proxy

The proxy stands between a browser and the room server.  It passes some requests
on as they are, and answers the others through the engine of the cache.

* `Proxy` — the state, and `Proxy.ofSettings`;
* `Proxy.Incoming` — a request of the browser;
* `Proxy.handle` — the answer to it;
* `Proxy.install`, `Proxy.activate` — keep the static assets, and delete those of
  other versions.
-/

open Cache (Classifier Engine)
open Http (Arriving Body Headers Network Target)

/-- What the proxy knows. -/
structure Proxy where
  /-- The server that it stands for. -/
  origin : Url
  classifier : Classifier
  engine : Engine
  staticAssets : List String

namespace Proxy

/-- The proxy of settings over a store. -/
def ofSettings [Url.DomainNames] (settings : Settings) (store : Cache.Store) :
    Except SettingsError Proxy := do
  settings.check
  let origin ← settings.base
  return {
    origin := origin
    classifier := .ofSettings settings.cache
    engine := .ofSettings settings.cache store
    staticAssets := settings.cache.staticAssets }

/-! ### Requests -/

/-- A request of the browser. -/
structure Incoming where
  method : String
  target : Target
  headers : List (String × Bytes)
  body : Body
  deriving DecidableEq, Repr

/-- A request with its address, before its body has been read.  The names of headers are in
lower case, and values that are no text are left out. -/
def Incoming.request (incoming : Incoming) (url : Url) : Http.Request where
  method := incoming.method
  url := url
  headers := (Http.textHeaders incoming.headers).map fun header =>
    (Text.asciiLower header.1, header.2)
  body := []

/-! ### Answers -/

/-- The header that tells where the body of an answer came from. -/
def sourceHeader : String := "x-eventdrop-cache"

/-- An answer of the proxy's own with a plain text. -/
def plain (status : Nat) (text : String) : Arriving :=
  ⟨status, [("content-type", "text/plain; charset=utf-8")], .ofBytes (Utf8.encode text)⟩

/-- The answer to a target that is no address. -/
def badTarget (target : Target) (e : Url.UrlError) : Arriving :=
  plain 400 ("invalid request URI '" ++ target.render ++ "': " ++ e.message)

/-- The answer where the network failed. -/
def badGateway (url : Url) (message : String) : Arriving where
  status := 502
  headers := [("content-type", "application/json")]
  body := .ofBytes (Utf8.encode
    (Json.object [("error", .string message), ("url", .string url.render)]).render)

/-- Whether a header of a response is passed on. -/
def isPassedOn (name : String) : Bool :=
  !(Http.isHopByHop name || Text.equalsIgnoringCase name "content-length")

/-- A header as it is written in an answer. -/
def checkedHeader (header : String × String) : Except String (String × String) :=
  if ¬ Http.isToken header.1 then .error "invalid HTTP header name"
  else if ¬ Http.isHeaderValue header.2 then .error "failed to parse header value"
  else .ok (Text.asciiLower header.1, header.2)

/-- The headers of an answer. -/
def answerHeaders (headers : Headers) (source : String) : Except String Headers :=
  ((headers.filter fun header => isPassedOn header.1) ++ [(sourceHeader, source)]).mapM
    checkedHeader

/-- The status of an answer: that of the response, if it may be one. -/
def answerStatus (status : Nat) : Nat :=
  if 100 ≤ status ∧ status ≤ 999 then status else 502

/-- The answer that relays a response. -/
def relay (response : Arriving) (source : String) : Arriving :=
  match answerHeaders response.headers source with
  | .ok headers => ⟨answerStatus response.status, headers, response.body⟩
  | .error text => plain 500 text

/-- The answer that passes on what the network said. -/
def passedOn (url : Url) : Except Http.FetchError Arriving → Arriving
  | .ok response => relay response "bypass"
  | .error e => badGateway url e.message

/-- The answer that the engine made. -/
def served (url : Url) : Except Cache.CacheError Cache.Served → Arriving
  | .ok served => relay (.ofResponse served.response) served.source.name
  | .error e => badGateway url e.message

/-- Answers to requests for the headers alone have no body. -/
def forMethod (method : String) (answer : Arriving) : Arriving :=
  if method = "HEAD" then { answer with body := .empty } else answer

/-! ### Handling -/

variable {ν : Type}

/-- The answer to a request that is passed on as it is. -/
def passOn (network : Network ν) (request : Http.Request) (body : Body) (s : ν) : Arriving × ν :=
  let (result, s) :=
    if body.isOver then network.forward request s else network.forwardBody request body s
  (passedOn request.url result, s)

/-- The greatest number of octets in the body of a request that goes through the engine. -/
def maxRequestBody : Nat := 64 * 1024 * 1024

/-- The answer to a request that goes through the engine, once its body has arrived. -/
def intercept (p : Proxy) (network : Network ν) (strategy : Cache.Strategy)
    (request : Http.Request) (body : Body) (s : ν) : Arriving × Proxy × ν :=
  match body.collectUpTo maxRequestBody with
  | .error cause => (plain 400 cause, p, s)
  | .ok bytes =>
    let (result, engine, s) := p.engine.serve network strategy { request with body := bytes } s
    (served request.url result, { p with engine := engine }, s)

/-- The answer to a request with its address. -/
def respond (p : Proxy) (network : Network ν) (request : Http.Request) (body : Body) (s : ν) :
    Arriving × Proxy × ν :=
  match p.classifier.route request with
  | .pass _ =>
    let (answer, s) := passOn network request body s
    (answer, p, s)
  | .intercept _ strategy => p.intercept network strategy request body s

/-- The answer to a request. -/
def handle [Url.DomainNames] (p : Proxy) (network : Network ν) (incoming : Incoming) (s : ν) :
    Arriving × Proxy × ν :=
  match incoming.target.resolve p.origin with
  | .error e => (forMethod incoming.method (badTarget incoming.target e), p, s)
  | .ok url =>
    let (answer, p, s) := p.respond network (incoming.request url) incoming.body s
    (forMethod incoming.method answer, p, s)

/-- Do all background work. -/
def settle (p : Proxy) (network : Network ν) (s : ν) : Proxy × ν :=
  let (engine, s) := p.engine.settle network s
  ({ p with engine := engine }, s)

/-! ### Versions -/

/-- The addresses of the static assets that are fetched: those that are given as a path. -/
def assetUrls [Url.DomainNames] (p : Proxy) : List Url :=
  (p.staticAssets.filter fun asset => !Cache.Matcher.looksAbsolute asset).filterMap fun asset =>
    (p.origin.join asset).toOption

/-- Fetch the static assets and keep those that there are. -/
def install [Url.DomainNames] (p : Proxy) (network : Network ν) (s : ν) :
    Cache.InstallReport × Proxy × ν :=
  let (report, engine, s) := Engine.install network p.assetUrls p.engine s
  (report, { p with engine := engine }, s)

/-- Delete the partitions of other versions; which ones they are. -/
def activate (p : Proxy) : List String × Proxy :=
  let (deleted, engine) := p.engine.activate
  (deleted, { p with engine := engine })

end Proxy

end DropRoom
