import DropRoom.Cache.Classifier
import DropRoom.Cache.Error
import DropRoom.Cache.Offline
import DropRoom.Cache.Store
import DropRoom.Http.Network

namespace DropRoom.Cache

/-!
# The engine of the cache

The engine answers requests from the network, from its store, or with documents
about being offline.  Serving a request has two parts: `begin` gives the answer
that needs no network, and `complete` makes an answer of what the network said.
Responses are written to the store, and kept ones are refreshed, in the
background: such work is listed in the engine until it is done, and it may be
done at any time.

* `Engine` — the state, and `Engine.ofSettings`;
* `Engine.lookup` — the kept response to a request;
* `Engine.begin`, `Engine.complete` — serve a request;
* `Engine.finishWrite`, `Engine.finishRefresh` — do a piece of background work;
* `Engine.keepAsset` — take what the network said of a static asset;
* `Engine.activate` — delete the partitions of other versions.
-/

open Http (Request Response FetchError)

/-- Where a response came from. -/
inductive Source where
  | network
  | cache
  /-- It is a document about being offline. -/
  | offline
  deriving DecidableEq, Repr

/-- The name of a source. -/
def Source.name : Source → String
  | .network => "network"
  | .cache => "cache"
  | .offline => "offline"

/-- An answer with its source. -/
structure Served where
  response : Response
  source : Source
  deriving DecidableEq, Repr

/-- A response on its way into the store. -/
structure Write where
  partition : String
  key : Key
  response : Response
  deriving DecidableEq, Repr

/-- The key of a request. -/
def Key.ofRequest (request : Request) : Key :=
  .of request.method request.url.render

/-- What the engine knows. -/
structure Engine where
  staticPartition : String
  runtimePartition : String
  /-- The addresses whose requests are answered with a notice when there is no network. -/
  noticePaths : List Matcher
  store : Store
  /-- Whether the store can be read. -/
  readable : Bool
  /-- Whether the store can be written to. -/
  writable : Bool
  /-- The responses that are still to be written. -/
  writes : List Write
  /-- The keys that are marked as being refreshed. -/
  refreshing : List Key
  /-- The requests of the refreshes that have not ended. -/
  refreshes : List Request

namespace Engine

/-- The engine of settings over a store. -/
def ofSettings (settings : CacheSettings) (store : Store) : Engine where
  staticPartition := settings.staticPartition
  runtimePartition := settings.runtimePartition
  noticePaths := (settings.offlinePaths ++ settings.apiPatterns).map .pathContains
  store := store
  readable := true
  writable := true
  writes := []
  refreshing := []
  refreshes := []

/-! ### The store -/

/-- The kept response to the requests of a key: that of the static partition first, then that of
the other current one, then that of any other partition.  A store that cannot be read has none. -/
def lookup (e : Engine) (key : Key) : Option Response :=
  if e.readable then e.store.matchAny? [e.staticPartition, e.runtimePartition] key else none

/-- Write a response to the store, if it can be written to. -/
def persist (e : Engine) (partition : String) (key : Key) (response : Response) : Engine :=
  if e.writable then { e with store := e.store.put partition key response } else e

/-- Write a response to the store later, if it tells of success. -/
def persistLater (e : Engine) (partition : String) (key : Key) (response : Response) : Engine :=
  if response.isSuccess then { e with writes := e.writes ++ [⟨partition, key, response⟩] } else e

/-! ### Background work -/

/-- Refresh the kept response to a request later, unless that is already to be done. -/
def refreshLater (e : Engine) (request : Request) : Engine :=
  let key := Key.ofRequest request
  if key ∈ e.refreshing then e
  else { e with
    refreshing := e.refreshing ++ [key]
    refreshes := e.refreshes ++ [request] }

/-- How many refreshes have not ended. -/
def refreshesInFlight (e : Engine) : Nat :=
  e.refreshing.length

/-- Do the write at a place of the list. -/
def finishWrite (e : Engine) (index : Nat) : Engine :=
  match e.writes[index]? with
  | none => e
  | some write =>
    { e with writes := e.writes.eraseIdx index }.persist write.partition write.key write.response

/-- Take what the network said to the refresh at a place of the list, and end it. -/
def finishRefresh (e : Engine) (index : Nat) (answer : Except FetchError Response) : Engine :=
  match e.refreshes[index]? with
  | none => e
  | some request =>
    let key := Key.ofRequest request
    let e := match answer with
      | .ok response =>
        if response.isSuccess then e.persist e.staticPartition key response else e
      | .error _ => e
    { e with
      refreshes := e.refreshes.eraseIdx index
      refreshing := e.refreshing.erase key }

/-! ### Serving -/

/-- Begin to serve a request.  If there is an answer that needs no network, it is given. -/
def begin (e : Engine) (strategy : Strategy) (request : Request) : Option Served × Engine :=
  match strategy with
  | .cacheFirst =>
    match e.lookup (.ofRequest request) with
    | some response => (some ⟨response, .cache⟩, e.refreshLater request)
    | none => (none, e)
  | .networkFirst => (none, e)
  | .networkFirstWithFallback => (none, e)

/-- The partition that keeps the responses of the network. -/
def partitionOf? (e : Engine) : Strategy → Option String
  | .networkFirst => some e.runtimePartition
  | .cacheFirst => some e.staticPartition
  | .networkFirstWithFallback => none

/-- The kept response to a request that the network failed to answer. -/
def stored? (e : Engine) (strategy : Strategy) (request : Request) : Option Response :=
  match strategy with
  | .cacheFirst => none
  | .networkFirst => e.lookup (.ofRequest request)
  | .networkFirstWithFallback => e.lookup (.ofRequest request)

/-- The document about being offline for a request, if there is one. -/
def offline? (e : Engine) (strategy : Strategy) (request : Request) : Option Response :=
  match strategy with
  | .networkFirst =>
    if e.noticePaths.any (Matcher.hits request.url) then some (Offline.notice request.url.pathText)
    else none
  | .cacheFirst => none
  | .networkFirstWithFallback => if request.acceptsHtml then some Offline.page else none

/-- The answer to a request that the network failed to answer. -/
def fallback (e : Engine) (strategy : Strategy) (request : Request) (cause : FetchError) :
    Except CacheError Served :=
  match e.stored? strategy request with
  | some response => .ok ⟨response, .cache⟩
  | none =>
    match e.offline? strategy request with
    | some response => .ok ⟨response, .offline⟩
    | none => .error ⟨request.url.render, cause⟩

/-- Make an answer of what the network said to a request. -/
def complete (e : Engine) (strategy : Strategy) (request : Request)
    (answer : Except FetchError Response) : Except CacheError Served × Engine :=
  match answer with
  | .error cause => (e.fallback strategy request cause, e)
  | .ok response =>
    (.ok ⟨response, .network⟩,
      match e.partitionOf? strategy with
      | some partition => e.persistLater partition (.ofRequest request) response
      | none => e)

/-! ### Versions -/

/-- Take what the network said of a static asset; whether it is kept now. -/
def keepAsset (e : Engine) (url : Url) (answer : Except FetchError Response) : Bool × Engine :=
  match answer with
  | .ok response =>
    if response.isSuccess then
      (true, e.persist e.staticPartition (.ofRequest (.get url)) response)
    else (false, e)
  | .error _ => (false, e)

/-- Whether a partition belongs to the current version. -/
def isCurrent (e : Engine) (partition : String) : Bool :=
  partition == e.staticPartition || partition == e.runtimePartition

/-- Delete partitions; which of them were there. -/
def deletePartitions : List String → Store → List String × Store
  | [], store => ([], store)
  | partition :: partitions, store =>
    let (existed, store) := store.deletePartition partition
    let (deleted, store) := deletePartitions partitions store
    (if existed then partition :: deleted else deleted, store)

/-- Delete the partitions of other versions; which ones they are. -/
def activate (e : Engine) : List String × Engine :=
  let stale := e.store.partitions.filter fun partition => !e.isCurrent partition
  let (deleted, store) := deletePartitions stale e.store
  (deleted, { e with store := store })

end Engine

end DropRoom.Cache
