import DropRoom.Proofs.Cache.SetUp

namespace DropRoom.Cache

/-!
# Engines without background work

Where all background work is done after each request, serving one comes down to one question to the
network and at most one response that is kept.

* `Engine.Idle` — no background work is left;
* `Engine.keep` — what a request leaves in the store, given what the network said to it;
* `Engine.settle_of_idle` — an idle engine has nothing to do;
* `Engine.serve_settle` — to serve a request and to do all background work.
-/

open Http (Request Response FetchError Network)

namespace Engine

variable {ν : Type} {e : Engine}

/-- No background work is left. -/
structure Idle (e : Engine) : Prop where
  writes : e.writes = []
  refreshing : e.refreshing = []
  refreshes : e.refreshes = []

/-- An engine of settings has nothing to do yet. -/
theorem ofSettings_idle (settings : CacheSettings) (store : Store) :
    (ofSettings settings store).Idle :=
  ⟨rfl, rfl, rfl⟩

/-- To keep a response leaves nothing to do. -/
theorem Idle.persist (h : e.Idle) (partition : String) (key : Key) (response : Response) :
    (e.persist partition key response).Idle := by
  rw [Engine.persist]
  split
  · exact ⟨h.writes, h.refreshing, h.refreshes⟩
  · exact h

/-- So does keeping an asset. -/
theorem Idle.keepAsset (h : e.Idle) (url : Url) (answer : Except FetchError Response) :
    (e.keepAsset url answer).2.Idle := by
  rcases e.keepAsset_cases url answer with ⟨response, _, _, hkept⟩ | ⟨_, hkept⟩
  · rw [hkept]
    exact h.persist _ _ response
  · rwa [hkept]

/-- To fetch static assets leaves no background work. -/
theorem Idle.install (network : Network ν) (urls : List Url) (h : e.Idle) (s : ν) :
    (Engine.install network urls e s).2.1.Idle := by
  induction urls generalizing e s with
  | nil => exact h
  | cons url urls ih => exact ih (h.keepAsset url (network.fetch (.get url) s).1) _

/-! ### Background work -/

/-- An idle engine has nothing to do. -/
theorem settle_of_idle (h : e.Idle) (network : Network ν) (s : ν) :
    e.settle network s = (e, s) := by
  have hwrites : e.settleWrites = e := by
    rw [settleWrites, h.writes]
    rfl
  show settleRefreshes network e.settleWrites.refreshes e.settleWrites s = (e, s)
  rw [hwrites, h.refreshes]
  rfl

/-- What a request that is served leaves in the store, given what the network said to it. -/
def keep (e : Engine) (strategy : Strategy) (request : Request) :
    Except FetchError Response → Engine
  | .error _ => e
  | .ok response =>
    match e.partitionOf? strategy with
    | none => e
    | some partition =>
      if response.isSuccess then e.persist partition (.ofRequest request) response else e

/-- So does keeping what a request was answered with. -/
theorem Idle.keep (h : e.Idle) (strategy : Strategy) (request : Request)
    (answer : Except FetchError Response) : (e.keep strategy request answer).Idle := by
  cases answer with
  | error cause => exact h
  | ok response =>
    rw [Engine.keep]
    split
    · exact h
    · split
      · exact h.persist _ _ response
      · exact h

@[simp] theorem setUp_keep (e : Engine) (strategy : Strategy) (request : Request)
    (answer : Except FetchError Response) : (e.keep strategy request answer).setUp = e.setUp := by
  cases answer with
  | error cause => rfl
  | ok response =>
    rw [keep]
    split
    · rfl
    · split
      · exact setUp_persist e _ _ response
      · rfl

/-- A response that is to be written is written. -/
theorem settle_persistLater (h : e.Idle) (partition : String) (key : Key) (response : Response)
    (network : Network ν) (s : ν) :
    (e.persistLater partition key response).settle network s =
      (if response.isSuccess then e.persist partition key response else e, s) := by
  rw [persistLater]
  by_cases hsuccess : response.isSuccess
  · rw [if_pos hsuccess, if_pos hsuccess]
    -- the write is the only one that is listed, and no refresh is
    obtain ⟨static, runtime, notices, store, readable, writable, writes, refreshing, refreshes⟩ := e
    obtain ⟨rfl, rfl, rfl⟩ := h
    cases writable with
    | true => rfl
    | false => rfl
  · rw [if_neg hsuccess, if_neg hsuccess]
    exact settle_of_idle h network s

/-- The only refresh that is listed keeps what the network says as a request does. -/
theorem finishRefresh_of_single (h : e.Idle) (request : Request)
    (answer : Except FetchError Response) :
    { e with refreshing := [.ofRequest request], refreshes := [request] }.finishRefresh 0 answer =
      e.keep .cacheFirst request answer := by
  obtain ⟨static, runtime, notices, store, readable, writable, writes, refreshing, refreshes⟩ := e
  obtain ⟨rfl, rfl, rfl⟩ := h
  cases answer with
  | error cause => simp [finishRefresh, keep]
  | ok response =>
    by_cases hsuccess : response.isSuccess
    · cases writable <;> simp [finishRefresh, keep, partitionOf?, persist, hsuccess]
    · simp [finishRefresh, keep, partitionOf?, hsuccess]

/-- A refresh that is to be made is made: its request goes to the network. -/
theorem settle_refreshLater (h : e.Idle) (request : Request) (network : Network ν) (s : ν) :
    (e.refreshLater request).settle network s =
      (e.keep .cacheFirst request (network.fetch request s).1, (network.fetch request s).2) := by
  have hlisted : e.refreshLater request =
      { e with refreshing := [.ofRequest request], refreshes := [request] } := by
    simp [refreshLater, h.refreshing, h.refreshes]
  -- there is nothing to write before the refresh
  have hwrites : { e with refreshing := [.ofRequest request], refreshes := [request] }.settleWrites
      = { e with refreshing := [.ofRequest request], refreshes := [request] } := by
    rw [settleWrites, h.writes]
    rfl
  rw [hlisted, settle, hwrites]
  show ({ e with refreshing := [.ofRequest request], refreshes := [request] }.finishRefresh 0
    (network.fetch request s).1, (network.fetch request s).2) = _
  rw [finishRefresh_of_single h]

/-- When an answer is complete and all writes are done, the engine has kept what it was to keep. -/
theorem settle_complete (h : e.Idle) (strategy : Strategy) (request : Request)
    (answer : Except FetchError Response) (network : Network ν) (s : ν) :
    (e.complete strategy request answer).2.settle network s =
      (e.keep strategy request answer, s) := by
  cases answer with
  | error cause => exact settle_of_idle h network s
  | ok response =>
    rw [complete, keep]
    cases e.partitionOf? strategy with
    | none => exact settle_of_idle h network s
    | some partition => exact settle_persistLater h partition _ response network s

/-- **A request and its background work.** To serve a request and to do all background work asks the
network once, and keeps what it says as the strategy does. -/
theorem serve_settle (h : e.Idle) (network : Network ν) (strategy : Strategy) (request : Request)
    (s : ν) :
    (e.serve network strategy request s).2.1.settle network
        (e.serve network strategy request s).2.2 =
      (e.keep strategy request (network.fetch request s).1, (network.fetch request s).2) := by
  have hasked (hbegin : e.begin strategy request = (none, e)) :
      (e.serve network strategy request s).2 =
        ((e.complete strategy request (network.fetch request s).1).2,
          (network.fetch request s).2) := by
    rw [serve, hbegin]
  cases strategy with
  | networkFirst =>
    rw [hasked rfl]
    exact settle_complete h .networkFirst request _ network _
  | networkFirstWithFallback =>
    rw [hasked rfl]
    exact settle_complete h .networkFirstWithFallback request _ network _
  | cacheFirst =>
    cases hlookup : e.lookup (.ofRequest request) with
    | none =>
      rw [hasked (by rw [begin, hlookup])]
      exact settle_complete h .cacheFirst request _ network _
    | some response =>
      -- the kept response is the answer, and the network is asked afterwards
      have hhit : (e.serve network .cacheFirst request s).2 = (e.refreshLater request, s) := by
        rw [serve, begin, hlookup]
      rw [hhit]
      exact settle_refreshLater h request network s

end Engine

end DropRoom.Cache
