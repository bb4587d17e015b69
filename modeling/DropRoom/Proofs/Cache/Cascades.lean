import DropRoom.Proofs.Cache.Lookup
import DropRoom.Proofs.Proxy.Sources

namespace DropRoom

/-!
# What a request is answered with

Each strategy has an order of its own in which it takes the network, the store and the documents
about being offline.

* `Http.Request.AsksForPage` — the first `Accept` header names the type of a page;
* `Cache.StandsIn` — the document about being offline that stands in for an answer;
* `Cache.Engine.serves_by_cascade` — which requests have an answer, and which one.
-/

open Http (FetchError Network Request Response)

/-! ### Documents about being offline -/

/-- The first `Accept` header of a request, in whatever case its name is written, names the type of
a page. -/
def Http.Request.AsksForPage (request : Request) : Prop :=
  ∃ before header after, request.headers = before ++ header :: after ∧
    Text.equalsIgnoringCase header.1 "accept" = true ∧
    (∀ other ∈ before, Text.equalsIgnoringCase other.1 "accept" = false) ∧
    "text/html".toList <:+: header.2.toList

/-- A request accepts a page exactly if it asks for one. -/
theorem Http.Request.acceptsHtml_iff {request : Request} :
    request.acceptsHtml = true ↔ request.AsksForPage := by
  rw [acceptsHtml, accepts_iff, AsksForPage]
  constructor
  · rintro ⟨value, hfirst, hpage⟩
    obtain ⟨before, header, after, hheaders, hname, hbefore, rfl⟩ :=
      Headers.first?_eq_some_iff.mp hfirst
    exact ⟨before, header, after, hheaders, hname, hbefore, hpage⟩
  · rintro ⟨before, header, after, hheaders, hname, hbefore, hpage⟩
    exact ⟨header.2, Headers.first?_eq_some_iff.mpr
      ⟨before, header, after, hheaders, hname, hbefore, rfl⟩, hpage⟩

namespace Cache

/-- The document about being offline that stands in for an answer: a notice where an entry of the
settings occurs in the path, or the page where the client asks for one. -/
inductive StandsIn (settings : CacheSettings) (request : Request) : Strategy → Response → Prop
  | notice {part : String} : part ∈ settings.offlinePaths ++ settings.apiPatterns →
      part.toList <:+: request.url.pathText.toList →
      StandsIn settings request .networkFirst (Offline.notice request.url.pathText)
  | page : request.AsksForPage →
      StandsIn settings request .networkFirstWithFallback Offline.page

namespace Engine

variable {settings : CacheSettings} {e : Engine} {strategy : Strategy} {request : Request}
  {ν : Type}

/-- A notice is for an address exactly if one of the paths that settings give for it occurs in that
of the address. -/
theorem SetUpBy.any_noticePaths_iff (h : e.SetUpBy settings) {url : Url} :
    e.noticePaths.any (Matcher.hits url) = true ↔
      ∃ part ∈ settings.offlinePaths ++ settings.apiPatterns,
        part.toList <:+: url.pathText.toList := by
  rw [h.noticePaths, List.any_map, List.any_eq_true, Url.pathText, String.toList_ofList]
  exact exists_congr fun part => and_congr_right' Text.occursIn_iff

/-- A document stands in for an answer exactly where it is to. -/
theorem SetUpBy.offline?_eq_some_iff (h : e.SetUpBy settings) {document : Response} :
    e.offline? strategy request = some document ↔
      StandsIn settings request strategy document := by
  cases strategy with
  | networkFirst =>
    rw [offline?, Option.ite_none_right_eq_some, h.any_noticePaths_iff, Option.some.injEq]
    constructor
    · rintro ⟨⟨part, hpart, hoccurs⟩, rfl⟩
      exact .notice hpart hoccurs
    · intro hstands
      cases hstands with
      | notice hpart hoccurs => exact ⟨⟨_, hpart, hoccurs⟩, rfl⟩
  | cacheFirst =>
    -- what takes the store first has no document
    refine iff_of_false ?_ ?_
    · intro hdocument
      cases hdocument
    · intro hstands
      cases hstands
  | networkFirstWithFallback =>
    rw [offline?, Option.ite_none_right_eq_some, Request.acceptsHtml_iff, Option.some.injEq]
    constructor
    · rintro ⟨hpage, rfl⟩
      exact .page hpage
    · intro hstands
      cases hstands with
      | page hpage => exact ⟨hpage, rfl⟩

/-- No document does exactly where none is to. -/
theorem SetUpBy.offline?_eq_none_iff (h : e.SetUpBy settings) :
    e.offline? strategy request = none ↔
      ∀ document, ¬ StandsIn settings request strategy document := by
  rw [Option.eq_none_iff_forall_ne_some]
  exact forall_congr' fun document => not_congr h.offline?_eq_some_iff

/-! ### Requests without an answer -/

/-- A request has no answer if the network was asked and failed, and there is neither a kept response
nor a document. -/
theorem serve_eq_error_iff {network : Network ν} {s : ν} {error : CacheError} :
    (e.serve network strategy request s).1 = .error error ↔
      ∃ cause, (network.fetch request s).1 = .error cause ∧ error = ⟨request.url.render, cause⟩ ∧
        e.lookup (.ofRequest request) = none ∧ e.offline? strategy request = none := by
  by_cases hasked : strategy = .cacheFirst → e.lookup (.ofRequest request) = none
  · rw [serve_of_asked hasked]
    cases (network.fetch request s).1 with
    | ok response =>
      refine iff_of_false ?_ ?_
      · intro herror
        cases herror
      · rintro ⟨cause, hcause, -⟩
        cases hcause
    | error cause =>
      rw [complete, fallback, stored?_of_asked hasked]
      cases e.lookup (.ofRequest request) with
      | some response => simp
      | none => cases e.offline? strategy request <;> simp [eq_comm]
  · -- a kept response is taken first
    rw [Classical.not_imp, ← ne_eq, Option.ne_none_iff_exists'] at hasked
    obtain ⟨rfl, kept, hkept⟩ := hasked
    have hserve : (e.serve network .cacheFirst request s).1 = .ok ⟨kept, .cache⟩ := by
      rw [serve, begin, hkept]
    rw [hserve, hkept]
    refine iff_of_false ?_ ?_
    · intro herror
      cases herror
    · rintro ⟨cause, -, -, hnone, -⟩
      cases hnone

/-- So nothing may be kept for it, either, and no document may stand in. -/
theorem SetUpBy.fails_iff (h : e.SetUpBy settings) (hreadable : e.readable = true)
    {network : Network ν} {s : ν} :
    (∃ error, (e.serve network strategy request s).1 = .error error) ↔
      (∃ cause, (network.fetch request s).1 = .error cause) ∧ e.Lacks (.ofRequest request) ∧
        ∀ document, ¬ StandsIn settings request strategy document := by
  constructor
  · rintro ⟨error, herror⟩
    obtain ⟨cause, hcause, _, hnone, hdocument⟩ := serve_eq_error_iff.mp herror
    exact ⟨⟨cause, hcause⟩, (lookup_eq_none_iff hreadable).mp hnone,
      h.offline?_eq_none_iff.mp hdocument⟩
  · rintro ⟨⟨cause, hcause⟩, hnone, hdocument⟩
    exact ⟨⟨request.url.render, cause⟩, serve_eq_error_iff.mpr ⟨cause, hcause, rfl,
      (lookup_eq_none_iff hreadable).mpr hnone, h.offline?_eq_none_iff.mpr hdocument⟩⟩

/-- The network is asked once, or not at all where a kept response is taken first. -/
theorem serve_state (network : Network ν) (s : ν) :
    (e.serve network strategy request s).2.2 =
      if strategy = .cacheFirst ∧ (e.lookup (.ofRequest request)).isSome then s
      else (network.fetch request s).2 := by
  cases strategy with
  | cacheFirst => cases hkept : e.lookup (.ofRequest request) <;> simp [serve, begin, hkept]
  | networkFirst => rfl
  | networkFirstWithFallback => rfl

/-! ### All answers -/

/-- **Cascades.** In every state that an engine over any store can come to: a request has no answer
exactly if the network was needed and failed, no partition has a response under its key, and no
document about being offline stands in; what is said then is the cause.  Where the network comes
first, its response is the answer, whatever its status; else a kept response, else the document.
Where the store comes first, a kept response is the answer, and the network is not waited for; else
the response of the network.  The kept response is that of the first partition that has one, of the
static one, the other current one, and then the others in the order in which they were made.  The
network is asked once, if at all. -/
theorem serves_by_cascade (settings : CacheSettings) (store : Store) (steps : List Session.Step)
    (network : Network ν) (strategy : Strategy) (request : Request) (s : ν) :
    let e := ((Session.ofEngine (.ofSettings settings store)).run steps).engine
    let key := Key.ofRequest request
    let said := (network.fetch request s).1
    let answer := (e.serve network strategy request s).1
    let asked := (e.serve network strategy request s).2.2
    ((∃ error, answer = .error error) ↔
      (∃ cause, said = .error cause) ∧ e.Lacks key ∧
        ∀ document, ¬ StandsIn settings request strategy document) ∧
    (∀ error, answer = .error error →
      ∃ cause, said = .error cause ∧ error = ⟨request.url.render, cause⟩) ∧
    (strategy ≠ .cacheFirst →
      asked = (network.fetch request s).2 ∧
      (∀ response, said = .ok response → answer = .ok ⟨response, .network⟩) ∧
      ∀ cause, said = .error cause →
        (∀ name response, e.FoundIn name key response → answer = .ok ⟨response, .cache⟩) ∧
        (e.Lacks key → ∀ document, StandsIn settings request strategy document →
          answer = .ok ⟨document, .offline⟩)) ∧
    (strategy = .cacheFirst →
      (∀ name response, e.FoundIn name key response →
        answer = .ok ⟨response, .cache⟩ ∧ asked = s) ∧
      (e.Lacks key → asked = (network.fetch request s).2 ∧
        ∀ response, said = .ok response → answer = .ok ⟨response, .network⟩)) ∧
    (e.Lacks key ∨ ∃ name response, e.FoundIn name key response) := by
  intro e key said answer asked
  -- no step changes how the engine is set up; its store is all that the steps decide
  have hsetUp := (Session.ofEngine (.ofSettings settings store)).setUp_run steps
  have hreadable : e.readable = true := congrArg SetUp.readable hsetUp
  have hby : e.SetUpBy settings := (ofSettings_setUpBy settings store).of_setUp_eq hsetUp
  have hfound {name : String} {response : Response} (h : e.FoundIn name key response) :
      e.lookup key = some response := (lookup_eq_some_iff hreadable).mpr ⟨name, h⟩
  have hlacks (h : e.Lacks key) : e.lookup key = none := (lookup_eq_none_iff hreadable).mpr h
  have hok {response : Response} {source : Source}
      (h : e.Supplies strategy request said response source) :
      answer = .ok ⟨response, source⟩ := serve_eq_ok_iff.mpr h
  have hasked : asked = if strategy = .cacheFirst ∧ (e.lookup key).isSome then s
      else (network.fetch request s).2 := serve_state network s
  refine ⟨hby.fails_iff hreadable, ?_, ?_, ?_, ?_⟩
  · intro error herror
    obtain ⟨cause, hcause, hsaid, _⟩ := serve_eq_error_iff.mp herror
    exact ⟨cause, hcause, hsaid⟩
  · intro hstrategy
    refine ⟨by rw [hasked, if_neg fun h => hstrategy h.1], fun response hresponse => ?_,
      fun cause hcause => ⟨fun name response hheld => ?_, fun hnone document hdocument => ?_⟩⟩
    · exact hok (.network (fun h => absurd h hstrategy) hresponse)
    · exact hok (.cache (hfound hheld) (.inr ⟨cause, hcause⟩))
    · exact hok (.offline (hlacks hnone) hcause (hby.offline?_eq_some_iff.mpr hdocument))
  · intro hstrategy
    refine ⟨fun name response hheld => ⟨?_, ?_⟩, fun hnone => ⟨?_, fun response hresponse => ?_⟩⟩
    · exact hok (.cache (hfound hheld) (.inl hstrategy))
    · rw [hasked, hfound hheld, if_pos ⟨hstrategy, rfl⟩]
    · rw [hasked, hlacks hnone, if_neg fun h => Bool.false_ne_true h.2]
    · exact hok (.network (fun _ => hlacks hnone) hresponse)
  · exact lacks_or_foundIn hreadable key

end Engine

end Cache

end DropRoom
