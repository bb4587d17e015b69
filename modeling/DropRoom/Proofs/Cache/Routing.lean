import DropRoom.Cache.Engine

namespace DropRoom

/-!
# Classes of addresses

The class of an address decides how its requests are answered.  Nothing but the path and the text
of an address counts for its class, and the rules that recognise a path of the server's interface
are among those that promise a notice about being offline.

* `Text.occursIn_iff` — a text occurs in another as a run of its characters;
* `Http.Headers.first?_eq_some_iff`, `Http.Request.accepts_iff` — the first header of a name, and what
  a request accepts by its first `Accept` header;
* `Cache.Classifier.classify_congr` — addresses with the same path and text are of the same class;
* `Cache.Classifier.classify_ofSettings` — the class of an address by the tables of settings;
* `Cache.Classifier.hits_of_classify_api` — what recognises the addresses of the interface;
* `Cache.Classifier.route_of_get` — the way of a request for what is at an address of the web;
* `Cache.Classifier.route_cases` — which requests are intercepted.
-/

open Http (Request)

/-! ### What counts of a request -/

/-- A text occurs in another exactly if it is a part of it. -/
theorem Text.occursIn_iff {part cs : List Char} : occursIn part cs = true ↔ part <:+: cs := by
  induction cs with
  | nil => rw [occursIn, List.isEmpty_iff, List.infix_nil]
  | cons c cs ih => rw [occursIn, Bool.or_eq_true, ih, List.isPrefixOf_iff_prefix, List.infix_cons_iff]

/-- The first value of a name is that of the first header of the name, in whatever case it is
written. -/
theorem Http.Headers.first?_eq_some_iff {headers : Headers} {name value : String} :
    headers.first? name = some value ↔
      ∃ before header after, headers = before ++ header :: after ∧
        Text.equalsIgnoringCase header.1 name = true ∧
        (∀ other ∈ before, Text.equalsIgnoringCase other.1 name = false) ∧ header.2 = value := by
  rw [first?, Option.map_eq_some_iff]
  constructor
  · rintro ⟨header, hfind, hvalue⟩
    obtain ⟨hname, before, after, hheaders, hbefore⟩ := List.find?_eq_some_iff_append.mp hfind
    refine ⟨before, header, after, hheaders, hname, fun other hother => ?_, hvalue⟩
    simpa using hbefore other hother
  · rintro ⟨before, header, after, hheaders, hname, hbefore, hvalue⟩
    refine ⟨header, List.find?_eq_some_iff_append.mpr ⟨hname, before, after, hheaders, ?_⟩, hvalue⟩
    exact fun other hother => by rw [hbefore other hother]; rfl

/-- A text is looked for in the first `Accept` header. -/
theorem Http.Request.accepts_iff {request : Request} {kind : String} :
    request.accepts kind = true ↔
      ∃ value, request.header? "accept" = some value ∧ kind.toList <:+: value.toList := by
  rw [accepts]
  cases request.header? "accept" with
  | none => simp
  | some value => simp [Text.occursIn_iff]

namespace Cache

/-! ### What counts of an address -/

/-- Addresses with one path and one text are hit alike. -/
theorem Matcher.hits_congr {a b : Url} (hpath : a.path.chars = b.path.chars)
    (htext : a.render = b.render) (matcher : Matcher) : matcher.hits a = matcher.hits b := by
  cases matcher with
  | pathContains part => rw [hits, hits, hpath]
  | exactPath path => rw [hits, hits, Url.pathText, Url.pathText, hpath]
  | pathSuffix ending => rw [hits, hits, hpath]
  | exactUrl text => rw [hits, hits, htext]

/-- What becomes of the requests of a class that are not for a push stream. -/
def Kind.decision (kind : Kind) : Decision :=
  match kind.strategy? with
  | some strategy => .intercept kind strategy
  | none => .pass .dynamic

namespace Classifier

/-- Addresses with the same path and text are of the same class. -/
theorem classify_congr (classifier : Classifier) {a b : Url}
    (hpath : a.path.chars = b.path.chars) (htext : a.render = b.render) :
    classifier.classify a = classifier.classify b := by
  have hrules : (Rule.hits · a) = (Rule.hits · b) := by
    funext rule
    have hmatchers : Matcher.hits a = Matcher.hits b :=
      funext fun matcher => matcher.hits_congr hpath htext
    rw [Rule.hits, Rule.hits, hmatchers]
  rw [classify, classify, hrules]

/-! ### Tables -/

/-- The tables of settings are asked in order. -/
theorem classify_ofSettings [Url.DomainNames] (settings : CacheSettings) (url : Url) :
    (ofSettings settings).classify url =
      if (settings.dynamicFiles.map Matcher.pathContains).any (Matcher.hits url) then .dynamic
      else if (settings.apiPatterns.map Matcher.pathContains).any (Matcher.hits url) then .api
      else if (settings.staticAssets.flatMap Matcher.ofAsset).any (Matcher.hits url) then .static
      else .residual := by
  have hrule (kind : Kind) (matchers : List Matcher) :
      Rule.hits ⟨kind, matchers⟩ url = matchers.any (Matcher.hits url) := rfl
  simp only [classify, ofSettings, List.find?_cons, List.find?_nil, hrule]
  generalize (settings.dynamicFiles.map Matcher.pathContains).any (Matcher.hits url) = dynamic
  generalize (settings.apiPatterns.map Matcher.pathContains).any (Matcher.hits url) = api
  generalize (settings.staticAssets.flatMap Matcher.ofAsset).any (Matcher.hits url) = asset
  cases dynamic <;> cases api <;> cases asset <;> rfl

/-- What recognises an address of the server's interface is one of the patterns for it. -/
theorem hits_of_classify_api [Url.DomainNames] {settings : CacheSettings} {url : Url}
    (h : (ofSettings settings).classify url = .api) :
    (settings.apiPatterns.map Matcher.pathContains).any (Matcher.hits url) = true := by
  rw [classify_ofSettings] at h
  split at h
  · cases h
  · split at h
    · assumption
    · split at h
      · cases h
      · cases h

/-! ### Routes -/

/-- A request for what is at an address of the web is passed on as one for a push stream, or else it
is treated as its class is. -/
theorem route_of_get {classifier : Classifier} {request : Request} (hmethod : request.method = "GET")
    (hhttp : request.url.isHttp = true) :
    classifier.route request =
      if request.accepts "text/event-stream" then .pass .eventStream
      else (classifier.classify request.url).decision := by
  rw [route, if_neg (not_not_intro hmethod), if_neg (not_not_intro hhttp)]
  rfl

/-- A request is intercepted if it asks for what is at an address of the web and is answered as its
class is. -/
theorem route_cases {classifier : Classifier} {request : Request} {kind : Kind}
    {strategy : Strategy} (h : classifier.route request = .intercept kind strategy) :
    request.method = "GET" ∧ request.url.isHttp = true ∧
      classifier.classify request.url = kind ∧ kind.strategy? = some strategy := by
  rw [route] at h
  by_cases hmethod : request.method = "GET"
  · rw [if_neg (not_not_intro hmethod)] at h
    by_cases hhttp : request.url.isHttp = true
    · rw [if_neg (not_not_intro hhttp)] at h
      split at h
      · cases h
      · dsimp only at h
        split at h
        · rename_i hstrategy
          cases h
          exact ⟨hmethod, hhttp, rfl, hstrategy⟩
        · cases h
    · rw [if_pos hhttp] at h
      cases h
  · rw [if_pos hmethod] at h
    cases h

end Classifier

/-- Only the class of the interface is answered from the network first. -/
theorem Kind.strategy?_eq_networkFirst {kind : Kind} :
    kind.strategy? = some .networkFirst ↔ kind = .api := by
  cases kind <;> simp [strategy?]

end Cache

end DropRoom
