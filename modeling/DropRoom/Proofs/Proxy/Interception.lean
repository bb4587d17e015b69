import DropRoom.Proofs.Cache.NetworkFirst
import DropRoom.Proofs.Settings.Check
import DropRoom.Proxy

namespace DropRoom.Proxy

/-!
# Requests that come to the engine

A request of the browser comes to the engine of the cache once its target is an address, its class
is one that is intercepted, and its body has arrived and is not too long.  The others leave the
proxy as it is.

* `admitted?` — the request that comes to the engine, and how it is to be served;
* `handle_of_admitted`, `handle_of_not_admitted` — what becomes of a request of the browser;
* `SetUpBy`, `ofSettings_cases` — the proxy of settings;
* `admitted?_cases` — what is known of a request that comes to the engine.
-/

open Cache (Classifier Engine Strategy)
open Http (Network Request)

/-- The request that comes to the engine for a request of the browser, and how it is to be
served. -/
def admitted? [Url.DomainNames] (p : Proxy) (incoming : Incoming) : Option (Strategy × Request) :=
  match incoming.target.resolve p.origin with
  | .error _ => none
  | .ok url =>
    match p.classifier.route (incoming.request url), incoming.body.collectUpTo maxRequestBody with
    | .intercept _ strategy, .ok bytes =>
      some (strategy, { incoming.request url with body := bytes })
    | _, _ => none

section

variable {ν : Type} {p : Proxy} {incoming : Incoming}

/-! ### Handling -/

/-- A request that comes to the engine is served there. -/
theorem handle_of_admitted [Url.DomainNames] {strategy : Strategy} {request : Request}
    (h : p.admitted? incoming = some (strategy, request)) (network : Network ν) (s : ν) :
    p.handle network incoming s =
      (forMethod incoming.method
          (served request.url (p.engine.serve network strategy request s).1),
        { p with engine := (p.engine.serve network strategy request s).2.1 },
        (p.engine.serve network strategy request s).2.2) := by
  cases hurl : incoming.target.resolve p.origin with
  | error e =>
    simp only [admitted?, hurl] at h
    cases h
  | ok url =>
    simp only [admitted?, hurl] at h
    split at h
    · rename_i kind found bytes hroute hbody
      cases h
      simp only [handle, hurl, respond, hroute, intercept, hbody]
    · cases h

/-- A request that does not come to the engine leaves the proxy as it is, and is at most passed on to
the network. -/
theorem handle_of_not_admitted [Url.DomainNames] (h : p.admitted? incoming = none)
    (network : Network ν) (s : ν) :
    (p.handle network incoming s).2.1 = p ∧
      ((p.handle network incoming s).2.2 = s ∨ ∃ request,
        (p.handle network incoming s).2.2 = (network.forward request s).2 ∨
          (p.handle network incoming s).2.2 = (network.forwardBody request incoming.body s).2) := by
  cases hurl : incoming.target.resolve p.origin with
  | error e =>
    simp only [handle, hurl]
    exact ⟨trivial, .inl trivial⟩
  | ok url =>
    simp only [handle, hurl, respond]
    cases hroute : p.classifier.route (incoming.request url) with
    | pass reason =>
      refine ⟨rfl, .inr ⟨incoming.request url, ?_⟩⟩
      simp only [passOn]
      split
      · exact .inl rfl
      · exact .inr rfl
    | intercept kind strategy =>
      simp only [intercept]
      cases hbody : incoming.body.collectUpTo maxRequestBody with
      | error cause => exact ⟨rfl, .inl rfl⟩
      | ok bytes => simp [admitted?, hurl, hroute, hbody] at h

end

/-! ### Settings -/

/-- A proxy has the rules of settings, and its engine was set up with them. -/
structure SetUpBy [Url.DomainNames] (settings : CacheSettings) (p : Proxy) : Prop where
  classifier : p.classifier = .ofSettings settings
  engine : p.engine.SetUpBy settings

/-- The proxy of settings stands for a server of the web, and has their tables. -/
theorem ofSettings_cases [Url.DomainNames] {settings : Settings} {store : Cache.Store} {p : Proxy}
    (h : ofSettings settings store = .ok p) :
    p.origin.IsWeb ∧ p.classifier = .ofSettings settings.cache ∧
      p.engine = .ofSettings settings.cache store ∧
      p.staticAssets = settings.cache.staticAssets := by
  rw [ofSettings] at h
  cases hcheck : settings.check with
  | error e =>
    rw [hcheck] at h
    cases h
  | ok _ =>
    obtain ⟨origin, hbase, hweb⟩ := Settings.base_isWeb hcheck
    rw [hcheck, hbase] at h
    cases h
    exact ⟨hweb, rfl, rfl, rfl⟩

/-! ### Requests that come to the engine -/

/-- A target that is resolved on a server of the web is an address of the web, where its scheme is
one. -/
theorem resolve_isWeb [Url.DomainNames] {origin url : Url} (horigin : origin.IsWeb)
    {target : Http.Target}
    (h : target.resolve origin = .ok url) (hhttp : url.isHttp = true) : url.IsWeb := by
  cases target with
  | path text => exact Url.join_isWeb horigin h hhttp
  | address scheme authority rest => exact Url.parse_isWeb h hhttp
  | host authority =>
    have hroot : origin.join "/" = .ok url := h
    exact Url.join_isWeb horigin hroot hhttp

/-- A request that comes to the engine is one that is intercepted, for an address of the web. -/
theorem admitted?_cases [Url.DomainNames] {p : Proxy} (horigin : p.origin.IsWeb)
    {incoming : Incoming} {strategy : Strategy} {request : Request}
    (h : p.admitted? incoming = some (strategy, request)) :
    request.url.IsWeb ∧ ∃ kind, p.classifier.route request = .intercept kind strategy := by
  rw [admitted?] at h
  split at h
  · cases h
  · rename_i url hurl
    split at h
    · rename_i kind found bytes hroute _
      cases h
      have hhttp : url.isHttp = true := (Classifier.route_cases hroute).2.1
      -- the body does not count for the way
      exact ⟨resolve_isWeb horigin hurl hhttp, kind, hroute⟩
    · cases h

end DropRoom.Proxy
