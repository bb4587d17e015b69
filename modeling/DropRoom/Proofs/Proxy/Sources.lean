import DropRoom.Proofs.Proxy.Passage
import DropRoom.Proofs.Url.Percent

namespace DropRoom

/-!
# Where the body of an answer comes from

The proxy adds a header to each response that it relays, which tells where its body comes from.  It
is added to what the response has already, so that a response that comes with such a header of its
own is relayed with two.

* `Cache.Engine.Supplies`, `Cache.Engine.serve_eq_ok_iff` — what the engine serves, and its source;
* `Proxy.Relays` — the response that answers a request, and where its body comes from;
* `Proxy.marks` — what the headers tell about the source;
* `Proxy.marks_relay_of_passable` — what they tell of a relayed response;
* `Proxy.answers_name_their_source` — what the answers tell.
-/

open Http (Arriving Body FetchError Headers Network Request Response)

namespace Text

/-! ### Names in lower case -/

theorem asciiLowerChar_idem (c : Char) : asciiLowerChar (asciiLowerChar c) = asciiLowerChar c := by
  rcases Url.asciiLowerChar_cases (asciiLowerChar c) with hsame | ⟨hrange, _⟩
  · exact hsame
  · -- a letter in lower case is above those in upper case, and other characters stay as they are
    rcases Url.asciiLowerChar_cases c with hsame | ⟨hupper, hlower⟩
    · rw [hsame, hsame]
    · omega

/-- What is in lower case stays so. -/
theorem asciiLower_idem (s : String) : asciiLower (asciiLower s) = asciiLower s := by
  rw [asciiLower, asciiLower, String.toList_ofList, List.map_map]
  exact congrArg String.ofList (List.map_congr_left fun c _ => asciiLowerChar_idem c)

/-- The case of a name does not count where names are compared without it. -/
theorem equalsIgnoringCase_asciiLower (s t : String) :
    equalsIgnoringCase (asciiLower s) t = equalsIgnoringCase s t := by
  rw [equalsIgnoringCase, asciiLower_idem, equalsIgnoringCase]

end Text

/-! ### What the engine serves -/

namespace Cache.Engine

/-- The response to a request, and its source, where the network would answer as told: a kept
response if the strategy takes those first or the network failed, what the network said if it was
asked, or a document about being offline if there is neither. -/
inductive Supplies (e : Engine) (strategy : Strategy) (request : Request)
    (answer : Except FetchError Response) : Response → Source → Prop
  | cache {response : Response} : e.lookup (.ofRequest request) = some response →
      (strategy = .cacheFirst ∨ ∃ cause, answer = .error cause) →
      Supplies e strategy request answer response .cache
  | network {response : Response} :
      (strategy = .cacheFirst → e.lookup (.ofRequest request) = none) → answer = .ok response →
      Supplies e strategy request answer response .network
  | offline {response : Response} {cause : FetchError} : e.lookup (.ofRequest request) = none →
      answer = .error cause → e.offline? strategy request = some response →
      Supplies e strategy request answer response .offline

variable {e : Engine} {strategy : Strategy} {request : Request} {ν : Type}

/-- A document about being offline has a type and its mark. -/
theorem headers_of_offline? {response : Response} (h : e.offline? strategy request = some response) :
    response.headers =
        [("content-type", "text/html; charset=utf-8"), (Offline.markHeader, "1")] ∨
      response.headers = [("content-type", "application/json"), (Offline.markHeader, "1")] := by
  cases strategy with
  | cacheFirst => cases h
  | networkFirst =>
    rw [offline?] at h
    split at h
    · cases h
      exact .inr rfl
    · cases h
  | networkFirstWithFallback =>
    rw [offline?] at h
    split at h
    · cases h
      exact .inl rfl
    · cases h

/-- Where the strategy does not take a kept response first, the network is asked. -/
theorem serve_of_asked (h : strategy = .cacheFirst → e.lookup (.ofRequest request) = none)
    (network : Network ν) (s : ν) :
    (e.serve network strategy request s).1 =
      (e.complete strategy request (network.fetch request s).1).1 := by
  cases strategy with
  | cacheFirst => rw [serve, begin, h rfl]
  | networkFirst => rfl
  | networkFirstWithFallback => rfl

/-- Where the network is asked, the store has what a lookup finds. -/
theorem stored?_of_asked (h : strategy = .cacheFirst → e.lookup (.ofRequest request) = none) :
    e.stored? strategy request = e.lookup (.ofRequest request) := by
  cases strategy with
  | cacheFirst => exact (h rfl).symm
  | networkFirst => rfl
  | networkFirstWithFallback => rfl

/-- What the engine makes of what the network said comes from where it says. -/
theorem complete_eq_ok_iff (h : strategy = .cacheFirst → e.lookup (.ofRequest request) = none)
    {answer : Except FetchError Response} {served : Served} :
    (e.complete strategy request answer).1 = .ok served ↔
      e.Supplies strategy request answer served.response served.source := by
  obtain ⟨response, source⟩ := served
  cases answer with
  -- the network has answered, so neither the store nor the document is asked
  | ok said =>
    constructor
    · rintro ⟨⟩
      exact .network h rfl
    · intro hsupplies
      cases hsupplies with
      | cache hkept hfirst =>
        obtain hstrategy | ⟨cause, hcause⟩ := hfirst
        · cases hkept.symm.trans (h hstrategy)
        · cases hcause
      | network _ hsaid =>
        cases hsaid
        rfl
      | offline _ hcause _ => cases hcause
  | error cause =>
    -- the network has failed: a kept response comes before the document
    rw [complete, fallback, stored?_of_asked h]
    constructor
    · intro hserved
      split at hserved
      · rename_i hkept
        cases hserved
        exact .cache hkept (.inr ⟨cause, rfl⟩)
      · rename_i hnone
        split at hserved
        · rename_i hoffline
          cases hserved
          exact .offline hnone rfl hoffline
        · cases hserved
    · intro hsupplies
      cases hsupplies with
      | cache hkept _ => simp only [hkept]
      | network _ hsaid => cases hsaid
      | offline hnone _ hoffline => simp only [hnone, hoffline]

/-- What the engine serves comes from where it says. -/
theorem serve_eq_ok_iff {network : Network ν} {s : ν} {served : Served} :
    (e.serve network strategy request s).1 = .ok served ↔
      e.Supplies strategy request (network.fetch request s).1 served.response served.source := by
  by_cases hasked : strategy = .cacheFirst → e.lookup (.ofRequest request) = none
  · rw [serve_of_asked hasked, complete_eq_ok_iff hasked]
  · -- the strategy takes a kept response first, and there is one
    rw [Classical.not_imp, ← ne_eq, Option.ne_none_iff_exists'] at hasked
    obtain ⟨rfl, kept, hkept⟩ := hasked
    have hserve : (e.serve network .cacheFirst request s).1 = .ok ⟨kept, .cache⟩ := by
      rw [serve, begin, hkept]
    rw [hserve]
    obtain ⟨response, source⟩ := served
    constructor
    · rintro ⟨⟩
      exact .cache hkept (.inl rfl)
    · intro hsupplies
      cases hsupplies with
      | cache hown _ =>
        cases hown.symm.trans hkept
        rfl
      | network hnone _ => cases hkept.symm.trans (hnone rfl)
      | offline hnone _ _ => cases hkept.symm.trans hnone

end Cache.Engine

namespace Proxy

variable {ν : Type}

/-- The response that answers a request, and where its body comes from: from the network for a
request that is passed on, and else from where the engine takes it. -/
inductive Relays [Url.DomainNames] (p : Proxy) (network : Network ν) (incoming : Incoming) (s : ν) :
    Arriving → String → Prop
  | bypass {url : Url} {reason : Cache.PassReason} {response : Arriving} :
      incoming.target.resolve p.origin = .ok url →
      p.classifier.route (incoming.request url) = .pass reason →
      (if incoming.body.isOver then network.forward (incoming.request url) s
        else network.forwardBody (incoming.request url) incoming.body s).1 = .ok response →
      Relays p network incoming s response "bypass"
  | served {strategy : Cache.Strategy} {request : Request} {response : Response}
      {source : Cache.Source} :
      p.admitted? incoming = some (strategy, request) →
      p.engine.Supplies strategy request (network.fetch request s).1 response source →
      Relays p network incoming s (.ofResponse response) source.name

/-! ### Headers -/

/-- What headers tell about the source of a body. -/
def marks (headers : Headers) : List String :=
  (headers.filter fun header => Text.equalsIgnoringCase header.1 sourceHeader).map (·.2)

/-- The marks of headers come in their order. -/
theorem marks_append (headers more : Headers) :
    marks (headers ++ more) = marks headers ++ marks more := by
  rw [marks, List.filter_append, List.map_append, ← marks, ← marks]

/-- The header of the source is one mark. -/
theorem marks_source (source : String) : marks [(sourceHeader, source)] = [source] := by
  have hname : Text.equalsIgnoringCase sourceHeader sourceHeader = true := beq_self_eq_true _
  simp only [marks, List.filter_cons, hname]
  rfl

/-- The case of names makes no difference. -/
theorem marks_lower (headers : Headers) :
    marks (headers.map fun header => (Text.asciiLower header.1, header.2)) = marks headers := by
  rw [marks, List.filter_map, List.map_map, marks]
  simp only [Function.comp_def, Text.equalsIgnoringCase_asciiLower]

/-- A header that looks like a mark is passed on. -/
theorem isPassedOn_of_mark {name : String} (h : Text.equalsIgnoringCase name sourceHeader = true) :
    isPassedOn name = true := by
  have hname : Text.asciiLower name = Text.asciiLower sourceHeader := eq_of_beq h
  simp only [isPassedOn, Http.isHopByHop, Text.equalsIgnoringCase, hname]
  rfl

/-- Nothing that is told about the source is left out on the way. -/
theorem marks_filter (headers : Headers) :
    marks (headers.filter fun header => isPassedOn header.1) = marks headers := by
  rw [marks, List.filter_filter, marks]
  refine congrArg _ (List.filter_congr fun header _ => ?_)
  rw [Bool.and_eq_left_iff_imp]
  exact isPassedOn_of_mark

/-- A document about being offline can be relayed, and tells nothing about the source itself. -/
theorem passable_of_offline? {e : Cache.Engine} {strategy : Cache.Strategy} {request : Request}
    {document : Response} (h : e.offline? strategy request = some document) :
    Passable document.headers ∧ marks document.headers = [] := by
  rw [Passable]
  rcases Cache.Engine.headers_of_offline? h with hheaders | hheaders
  · rw [hheaders]
    decide
  · rw [hheaders]
    decide

/-- Headers that are not all proper are not written. -/
theorem mapM_checkedHeader_of_improper {headers : Headers} {header : String × String}
    (hmem : header ∈ headers)
    (h : ¬(Http.isToken header.1 = true ∧ Http.isHeaderValue header.2 = true)) :
    ∃ text, headers.mapM checkedHeader = .error text := by
  induction headers with
  | nil => cases hmem
  | cons first headers ih =>
    rw [List.mapM_cons]
    cases hfirst : checkedHeader first with
    | error text => exact ⟨text, rfl⟩
    | ok written =>
      rcases List.mem_cons.mp hmem with rfl | hmem
      · rw [checkedHeader] at hfirst
        split at hfirst
        · cases hfirst
        · split at hfirst
          · cases hfirst
          · rename_i hname hvalue
            exact absurd ⟨not_not.mp hname, not_not.mp hvalue⟩ h
      · obtain ⟨text, htext⟩ := ih hmem
        exact ⟨text, by rw [htext]; rfl⟩

section

variable {response : Arriving} {source : String}

/-- What is told about a relayed response is what it told itself, and then where it comes from. -/
theorem marks_relay_of_passable (h : Passable response.headers)
    (hsource : Http.isHeaderValue source = true) :
    marks (relay response source).headers = marks response.headers ++ [source] := by
  rw [relay, answerHeaders_of_passable h hsource]
  show marks (List.map _ _) = _
  rw [marks_lower, marks_append, marks_filter, marks_source]

/-- A response with headers that cannot be passed on is not relayed. -/
theorem relay_of_not_passable (h : ¬ Passable response.headers) :
    ∃ text, relay response source = plain 500 text := by
  obtain ⟨header, hheader⟩ := not_forall.mp h
  rw [Classical.not_imp, Classical.not_imp] at hheader
  obtain ⟨hmem, hpassed, himproper⟩ := hheader
  have hleft : header ∈ response.headers.filter fun header => isPassedOn header.1 :=
    List.mem_filter.mpr ⟨hmem, hpassed⟩
  obtain ⟨text, htext⟩ := mapM_checkedHeader_of_improper
    (List.mem_append_left [(sourceHeader, source)] hleft) himproper
  refine ⟨text, ?_⟩
  rw [relay, answerHeaders, htext]

end

/-! ### Answers -/

variable {p : Proxy} {network : Network ν} {incoming : Incoming} {s : ν}

/-- The response that answers a request is relayed. -/
theorem Relays.handle [Url.DomainNames] {response : Arriving} {source : String}
    (h : p.Relays network incoming s response source) :
    (p.handle network incoming s).1 = forMethod incoming.method (relay response source) := by
  cases h with
  | bypass hurl hroute hresult =>
    simp only [Proxy.handle, hurl, respond, hroute, passOn, hresult]
    rfl
  | served hadmitted hsupplies =>
    rename_i strategy request response source
    have hserve : (p.engine.serve network strategy request s).1 = .ok ⟨response, source⟩ :=
      Cache.Engine.serve_eq_ok_iff.mpr hsupplies
    rw [handle_of_admitted hadmitted, hserve]
    rfl

/-- Where no response answers a request, the answer is the proxy's own. -/
theorem handle_of_not_relays [Url.DomainNames]
    (h : ∀ response source, ¬ p.Relays network incoming s response source) :
    ∃ own, (p.handle network incoming s).1 = forMethod incoming.method own ∧
      ((∃ text, own = plain 400 text) ∨ ∃ url message, own = badGateway url message) := by
  -- along the branches of `handle`; each response that there is would be relayed, against `h`
  cases hurl : incoming.target.resolve p.origin with
  | error e =>
    refine ⟨badTarget incoming.target e, ?_, .inl ⟨_, rfl⟩⟩
    simp only [handle, hurl]
  | ok url =>
    cases hroute : p.classifier.route (incoming.request url) with
    | pass reason =>
      cases hresult : (if incoming.body.isOver then network.forward (incoming.request url) s
          else network.forwardBody (incoming.request url) incoming.body s).1 with
      | ok response => exact absurd (.bypass hurl hroute hresult) (h response "bypass")
      | error e =>
        refine ⟨badGateway url e.message, ?_, .inr ⟨url, e.message, rfl⟩⟩
        simp only [handle, hurl, respond, hroute, passOn, hresult]
        rfl
    | intercept kind strategy =>
      cases hbody : incoming.body.collectUpTo maxRequestBody with
      | error cause =>
        refine ⟨plain 400 cause, ?_, .inl ⟨cause, rfl⟩⟩
        simp only [handle, hurl, respond, hroute, intercept, hbody]
      | ok bytes =>
        have hadmitted : p.admitted? incoming =
            some (strategy, { incoming.request url with body := bytes }) := by
          simp only [admitted?, hurl, hroute, hbody]
        rw [handle_of_admitted hadmitted]
        cases hserve : (p.engine.serve network strategy
            { incoming.request url with body := bytes } s).1 with
        | ok served =>
          exact absurd (.served hadmitted (Cache.Engine.serve_eq_ok_iff.mp hserve)) (h _ _)
        | error e => exact ⟨badGateway url e.message, rfl, .inr ⟨url, e.message, rfl⟩⟩

/-- A source has a name that may be written in a header. -/
theorem Relays.isHeaderValue [Url.DomainNames] {response : Arriving} {source : String}
    (h : p.Relays network incoming s response source) : Http.isHeaderValue source = true := by
  cases h with
  | bypass _ _ _ => decide
  | served _ hsupplies => cases hsupplies <;> decide

/-- A document about being offline has no mark of its own, and headers that can be passed on. -/
theorem Relays.of_offline [Url.DomainNames] {response : Arriving}
    (h : p.Relays network incoming s response "offline") :
    Passable response.headers ∧ marks response.headers = [] := by
  generalize hsource : "offline" = source at h
  cases h with
  | bypass _ _ _ => exact absurd hsource (by decide)
  | served _ hsupplies =>
    cases hsupplies with
    | cache _ _ => exact absurd hsource (by decide)
    | network _ _ => exact absurd hsource (by decide)
    | offline _ _ hoffline => exact passable_of_offline? hoffline

/-- **Where the body comes from.** A response that answers a request is relayed with what its headers
tell about the source, followed by where its body really comes from: from the network, from the
store, from the proxy itself while it is offline, or past the cache.  So the answer tells the source
alone exactly if the response tells none, as the documents about being offline do.  A response whose
headers cannot be written is not relayed; the answer that says so, and the answers to requests that
no response answers, tell no source. -/
theorem answers_name_their_source [Url.DomainNames] (p : Proxy) (network : Network ν)
    (incoming : Incoming) (s : ν) :
    let answer := (p.handle network incoming s).1
    (∀ response source, p.Relays network incoming s response source →
      answer = forMethod incoming.method (relay response source) ∧
      (Passable response.headers →
        marks answer.headers = marks response.headers ++ [source] ∧
          (marks answer.headers = [source] ↔ marks response.headers = [])) ∧
      (¬ Passable response.headers → answer.status = 500 ∧ marks answer.headers = []) ∧
      (source = "offline" → marks answer.headers = ["offline"])) ∧
    ((∀ response source, ¬ p.Relays network incoming s response source) →
      (answer.status = 400 ∨ answer.status = 502) ∧ marks answer.headers = []) := by
  intro answer
  refine ⟨fun response source hrelays => ?_, fun hnone => ?_⟩
  · have hanswer : answer = forMethod incoming.method (relay response source) := hrelays.handle
    have hmarks (hpassable : Passable response.headers) :
        marks answer.headers = marks response.headers ++ [source] := by
      rw [hanswer, headers_forMethod, marks_relay_of_passable hpassable hrelays.isHeaderValue]
    refine ⟨hanswer, fun hpassable => ⟨hmarks hpassable, ?_⟩, fun himproper => ?_, ?_⟩
    · rw [hmarks hpassable, List.append_left_eq_self]
    · obtain ⟨text, htext⟩ := relay_of_not_passable himproper
      rw [hanswer, status_forMethod, headers_forMethod, htext]
      exact ⟨rfl, rfl⟩
    · rintro rfl
      obtain ⟨hpassable, hown⟩ := hrelays.of_offline
      rw [hmarks hpassable, hown]
      rfl
  · obtain ⟨own, hanswer, hown⟩ := handle_of_not_relays hnone
    rw [show answer = _ from hanswer, status_forMethod, headers_forMethod]
    rcases hown with ⟨text, rfl⟩ | ⟨url, message, rfl⟩
    · exact ⟨.inl rfl, rfl⟩
    · exact ⟨.inr rfl, rfl⟩

/-- A version of the style sheet that another proxy had. -/
def markedSheet : Response :=
  (sheet 1).withHeader "X-EventDrop-Cache" "hit"

/-- A response of the network that tells of a source is relayed with two. -/
theorem answers_name_their_source_of_marked :
    let answer := (sheetProxy.handle scripted (sheetIncoming []) [.ok markedSheet]).1
    sheetProxy.Relays scripted (sheetIncoming []) [.ok markedSheet] (.ofResponse markedSheet)
        "network" ∧
      Passable markedSheet.headers ∧ marks markedSheet.headers = ["hit"] ∧
      marks answer.headers = ["hit", "network"] := by
  intro answer
  have hrelays : sheetProxy.Relays scripted (sheetIncoming []) [.ok markedSheet]
      (.ofResponse markedSheet) Cache.Source.network.name := by
    have hadmitted : sheetProxy.admitted? (sheetIncoming []) =
        some (.networkFirst, sheetRequest) := by rfl
    exact .served hadmitted (.network nofun rfl)
  have hpassable : Passable markedSheet.headers := by
    rw [Passable]
    decide
  have hmarks : marks markedSheet.headers = ["hit"] := by decide
  obtain ⟨_, htold, _⟩ :=
    (answers_name_their_source sheetProxy scripted (sheetIncoming []) [.ok markedSheet]).1 _ _
      hrelays
  refine ⟨hrelays, hpassable, hmarks, ?_⟩
  rw [(htold hpassable).1]
  show marks markedSheet.headers ++ ["network"] = _
  rw [hmarks]
  rfl

end Proxy

end DropRoom
