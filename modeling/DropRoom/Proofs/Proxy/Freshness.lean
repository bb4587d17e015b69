import DropRoom.Proofs.Cache.Idle
import DropRoom.Proofs.Proxy.Interception
import DropRoom.Proofs.Proxy.Run

namespace DropRoom.Proxy

/-!
# The age of kept responses

For an address of the server's interface, the static partition keeps the newest response that an
installation fetched, and the other current partition the newest one that a request was answered
with.  The static partition is asked first, however old its response is.

* `keeper?` — the partition that keeps what the network says on an occasion;
* `Fresh` — each partition keeps the newest response of its occasion;
* `Course.Tracked`, `Course.Tracked.step` — so it is for all addresses of the interface, and every
  step keeps it so;
* `lost_request_gets_newest_copy` — the answer to a request that the network fails to answer.
-/

open Cache (Classifier Engine Key Kind Strategy)
open Http (Arriving FetchError Network Request Response)

/-- The partition that keeps what the network says on an occasion to requests for the interface. -/
def keeper? (e : Engine) : Occasion → Option String
  | .installation => some e.staticPartition
  | .service => some e.runtimePartition
  | .passage => none

/-- Under a key, each partition keeps the newest response of the occasion that it is for, and there
is nothing in other partitions. -/
structure Fresh (key : Key) (e : Engine) (said : List Exchange) : Prop where
  copies : ∀ occasion partition, keeper? e occasion = some partition →
    (e.store.get? partition key).map .ofResponse = newest? key (during occasion said)
  others : ∀ partition, (∀ occasion, keeper? e occasion ≠ some partition) →
    e.store.get? partition key = none

variable {key : Key} {e : Engine} {said : List Exchange}

/-! ### Partitions -/

/-- To keep a response does not change what the partitions are for. -/
theorem keeper?_persist (e : Engine) (partition : String) (key : Key) (response : Response) :
    keeper? (e.persist partition key response) = keeper? e := by
  rw [Engine.persist]
  split
  · rfl
  · rfl

/-- Each partition is for one occasion. -/
theorem keeper?_injective (hdistinct : e.staticPartition ≠ e.runtimePartition)
    {a b : Occasion} {partition : String} (ha : keeper? e a = some partition)
    (hb : keeper? e b = some partition) : a = b := by
  cases a with
  | installation =>
    cases b with
    | installation => rfl
    | service => exact absurd (Option.some.inj (ha.trans hb.symm)) hdistinct
    | passage => cases hb
  | service =>
    cases b with
    | installation => exact absurd (Option.some.inj (hb.trans ha.symm)) hdistinct
    | service => rfl
    | passage => cases hb
  | passage => cases ha

/-- The partitions that keep something are the current ones. -/
theorem isCurrent_of_keeper? {occasion : Occasion} {partition : String}
    (h : keeper? e occasion = some partition) : e.isCurrent partition = true := by
  cases occasion with
  | installation =>
    cases h
    simp [Engine.isCurrent]
  | service =>
    cases h
    simp [Engine.isCurrent]
  | passage => cases h

/-! ### One key -/

/-- Nothing is kept at the start. -/
theorem fresh_of_empty (key : Key) (settings : CacheSettings) :
    Fresh key (.ofSettings settings .empty) [] :=
  ⟨fun _ _ _ => rfl, fun _ _ => rfl⟩

/-- What does not count for the key may be said. -/
theorem Fresh.hear (h : Fresh key e said) {exchange : Exchange}
    (hexchange : exchange.success? key = none ∨ keeper? e exchange.occasion = none) :
    Fresh key e (said ++ [exchange]) := by
  refine ⟨fun occasion partition hkeeper => ?_, h.others⟩
  rw [newest?_during_append, h.copies occasion partition hkeeper]
  split
  · rename_i hoccasion
    rcases hexchange with hnone | hpassage
    · rw [hnone, Option.none_or]
    · rw [hoccasion, hkeeper] at hpassage
      cases hpassage
  · rfl

/-- Responses to the requests of other keys may be kept. -/
theorem Fresh.persist_other (h : Fresh key e said) (hwritable : e.writable = true)
    (partition : String) {other : Key} (hkey : other ≠ key) (response : Response) :
    Fresh key (e.persist partition other response) said := by
  have hget (name : String) :
      (e.persist partition other response).store.get? name key = e.store.get? name key := by
    rw [Engine.get?_persist hwritable, if_neg fun hsame => hkey hsame.2]
  constructor
  · intro occasion name hkeeper
    rw [keeper?_persist] at hkeeper
    rw [hget]
    exact h.copies occasion name hkeeper
  · intro name hname
    rw [keeper?_persist] at hname
    rw [hget]
    exact h.others name hname

/-- A response of success is the newest, and is kept where it belongs. -/
theorem Fresh.persist (h : Fresh key e said) (hwritable : e.writable = true)
    (hdistinct : e.staticPartition ≠ e.runtimePartition) {occasion : Occasion}
    {partition : String} (hkeeper : keeper? e occasion = some partition) {request : Request}
    (hkey : Key.ofRequest request = key) {response : Response} (hsuccess : response.isSuccess) :
    Fresh key (e.persist partition key response)
      (said ++ [⟨occasion, request, .ok (.ofResponse response)⟩]) := by
  have hnewest : Exchange.success? key ⟨occasion, request, .ok (.ofResponse response)⟩ =
      some (.ofResponse response) := if_pos ⟨hsuccess, hkey⟩
  constructor
  · intro other name hother
    rw [keeper?_persist] at hother
    rw [Engine.get?_persist hwritable, newest?_during_append]
    by_cases hoccasion : occasion = other
    · have hname : partition = name := by
        rw [hoccasion, hother] at hkeeper
        exact (Option.some.inj hkeeper).symm
      rw [if_pos ⟨hname, rfl⟩, if_pos hoccasion, hnewest]
      rfl
    · -- another occasion has another partition, and neither has changed
      have hname : partition ≠ name := fun hname =>
        hoccasion (keeper?_injective hdistinct (hname ▸ hkeeper) hother)
      rw [if_neg fun hsame => hname hsame.1, if_neg hoccasion]
      exact h.copies other name hother
  · intro name hname
    rw [keeper?_persist] at hname
    have hne : partition ≠ name := fun heq => hname occasion (heq ▸ hkeeper)
    rw [Engine.get?_persist hwritable, if_neg fun hsame => hne hsame.1]
    exact h.others name hname

/-- What is fetched may be written to the partition of its occasion if it tells of success. -/
theorem Fresh.write (h : Fresh key e said) (hwritable : e.writable = true)
    (hdistinct : e.staticPartition ≠ e.runtimePartition) {occasion : Occasion}
    {partition : String} {request : Request}
    (hkeeper : Key.ofRequest request = key → keeper? e occasion = some partition)
    (response : Response) :
    Fresh key
      (if response.isSuccess then e.persist partition (.ofRequest request) response else e)
      (said ++ [⟨occasion, request, .ok (.ofResponse response)⟩]) := by
  by_cases hsuccess : response.isSuccess
  · rw [if_pos hsuccess]
    by_cases hkey : Key.ofRequest request = key
    · rw [hkey]
      exact h.persist hwritable hdistinct (hkeeper hkey) hkey hsuccess
    · refine (h.persist_other hwritable partition hkey response).hear (.inl ?_)
      exact if_neg fun hcounts => hkey hcounts.2
  · rw [if_neg hsuccess]
    exact h.hear (.inl (if_neg fun hcounts => hsuccess hcounts.1))

/-! ### What happens to one key -/

/-- A request that is served keeps the newest response, if those of the key are served from the
network first. -/
theorem Fresh.keep (h : Fresh key e said) (hwritable : e.writable = true)
    (hdistinct : e.staticPartition ≠ e.runtimePartition) {strategy : Strategy} {request : Request}
    (hstrategy : Key.ofRequest request = key → strategy = .networkFirst)
    (answer : Except FetchError Response) :
    Fresh key (e.keep strategy request answer)
      (said ++ [⟨.service, request, answer.map .ofResponse⟩]) := by
  cases answer with
  | error cause => exact h.hear (.inl rfl)
  | ok response =>
    rw [Engine.keep]
    cases hpartition : e.partitionOf? strategy with
    | none =>
      -- a strategy that keeps nothing is not that of the key
      refine h.hear (.inl (if_neg fun hcounts => ?_))
      rw [hstrategy hcounts.2] at hpartition
      cases hpartition
    | some partition =>
      refine h.write hwritable hdistinct (fun hkey => ?_) response
      rw [hstrategy hkey] at hpartition
      exact hpartition

/-- A static asset that is fetched is kept, whatever the class of its address. -/
theorem Fresh.keepAsset (h : Fresh key e said) (hwritable : e.writable = true)
    (hdistinct : e.staticPartition ≠ e.runtimePartition) (url : Url)
    (answer : Except FetchError Response) :
    Fresh key (e.keepAsset url answer).2
      (said ++ [⟨.installation, .get url, answer.map .ofResponse⟩]) := by
  cases answer with
  | error cause => exact h.hear (.inl rfl)
  | ok response =>
    have hwrite := @Fresh.write key e said h hwritable hdistinct .installation e.staticPartition
      (.get url) (fun _ => rfl) response
    rw [Engine.keepAsset]
    split
    · rename_i hsuccess
      rwa [if_pos hsuccess] at hwrite
    · rename_i hsuccess
      rwa [if_neg hsuccess] at hwrite

variable {ν : Type}

/-- All static assets may be fetched. -/
theorem Fresh.install (network : Network ν) (urls : List Url) {world : World ν}
    (h : Fresh key e world.said) (hwritable : e.writable = true)
    (hdistinct : e.staticPartition ≠ e.runtimePartition) :
    Fresh key (Engine.install (recorded network .installation) urls e world).2.1
      (Engine.install (recorded network .installation) urls e world).2.2.said := by
  induction urls generalizing e world with
  | nil => exact h
  | cons url urls ih =>
    -- the engine stays set up as it was, so the next asset is kept in the same way
    have hsetUp := e.setUp_keepAsset url (network.fetch (.get url) world.state).1
    obtain ⟨hstatic, hruntime, _, _, hwritable'⟩ := Engine.SetUp.mk.inj hsetUp
    have hasset := h.keepAsset hwritable hdistinct url (network.fetch (.get url) world.state).1
    have hdistinct' : (e.keepAsset url (network.fetch (.get url) world.state).1).2.staticPartition ≠
        (e.keepAsset url (network.fetch (.get url) world.state).1).2.runtimePartition := by
      rw [hstatic, hruntime]
      exact hdistinct
    exact @ih _ ⟨(network.fetch (.get url) world.state).2, _⟩ hasset (hwritable'.trans hwritable)
      hdistinct'

/-- Partitions of other versions may be deleted. -/
theorem Fresh.activate (h : Fresh key e said) : Fresh key e.activate.2 said := by
  -- what keeps something is current, and only other partitions are deleted
  constructor
  · intro occasion partition hkeeper
    have hcurrent : e.isCurrent partition = true := isCurrent_of_keeper? hkeeper
    rw [Engine.get?_activate, if_pos hcurrent]
    exact h.copies occasion partition hkeeper
  · intro partition hpartition
    rw [Engine.get?_activate]
    split
    · exact h.others partition hpartition
    · rfl

/-- What is found under the key: the newest response of an installation, else the newest one of a
request. -/
theorem Fresh.lookup (h : Fresh key e said) (hreadable : e.readable = true) :
    (e.lookup key).map .ofResponse =
      (newest? key (during .installation said)).or (newest? key (during .service said)) := by
  have hlookup := @Engine.lookup_of_current e hreadable key fun partition hstatic hruntime =>
    h.others partition fun occasion hkeeper => by
      cases occasion with
      | installation => exact hstatic (Option.some.inj hkeeper).symm
      | service => exact hruntime (Option.some.inj hkeeper).symm
      | passage => cases hkeeper
  rw [hlookup, Option.map_or, h.copies .installation _ rfl, h.copies .service _ rfl]

/-- A response that has arrived as a whole is known from what has arrived. -/
theorem ofResponse_injective {a b : Response} (h : Arriving.ofResponse a = .ofResponse b) :
    a = b := by
  obtain ⟨status, headers, body⟩ := a
  obtain ⟨status', headers', body'⟩ := b
  cases h
  rfl

/-! ### Courses -/

namespace Course

variable {settings : Settings} {course : Course ν} {network : Network ν}

/-- A proxy of settings, without background work, that keeps the newest responses of the addresses
of the server's interface. -/
structure Tracked [Url.DomainNames] (settings : Settings) (course : Course ν) : Prop where
  origin : course.proxy.origin.IsWeb
  classifier : course.proxy.classifier = .ofSettings settings.cache
  setUp : course.proxy.engine.setUp = (Engine.ofSettings settings.cache .empty).setUp
  idle : course.proxy.engine.Idle
  fresh : ∀ url : Url, url.IsWeb → course.proxy.classifier.classify url = .api →
    Fresh (.get url.render) course.proxy.engine course.world.said

/-- A proxy that has just started keeps the newest of nothing. -/
theorem start_tracked [Url.DomainNames] {p : Proxy}
    (hp : Proxy.ofSettings settings .empty = .ok p) (state : ν) :
    (start p state).Tracked settings := by
  obtain ⟨horigin, hclassifier, hengine, _⟩ := ofSettings_cases hp
  refine ⟨horigin, hclassifier, congrArg Engine.setUp hengine, ?_, fun url _ _ => ?_⟩
  · show p.engine.Idle
    rw [hengine]
    exact Engine.ofSettings_idle settings.cache .empty
  · show Fresh _ p.engine []
    rw [hengine]
    exact fresh_of_empty _ settings.cache

section

variable [Url.DomainNames] (h : course.Tracked settings)

include h

/-- Its proxy is set up by the settings. -/
theorem Tracked.setUpBy : course.proxy.SetUpBy settings.cache :=
  ⟨h.classifier, (Engine.ofSettings_setUpBy settings.cache .empty).of_setUp_eq h.setUp⟩

/-- So its two partitions are different. -/
theorem Tracked.distinct :
    course.proxy.engine.staticPartition ≠ course.proxy.engine.runtimePartition :=
  h.setUpBy.engine.partitions_ne

/-- Its store can be read. -/
theorem Tracked.readable : course.proxy.engine.readable = true :=
  congrArg Engine.SetUp.readable h.setUp

/-- It can be written to. -/
theorem Tracked.writable : course.proxy.engine.writable = true :=
  congrArg Engine.SetUp.writable h.setUp

end

/-- There is nothing to do for an idle engine. -/
theorem settle_of_idle (network : Network ν) (h : course.proxy.engine.Idle) :
    course.settle network = course := by
  have hengine := Engine.settle_of_idle h (recorded network .service) course.world
  rw [settle, Proxy.settle, hengine]

/-- An address of the interface whose key a request has is that of the request. -/
theorem Tracked.strategy_of_key [Url.DomainNames] (h : course.Tracked settings)
    {incoming : Incoming} {strategy : Strategy} {request : Request}
    (hrequest : course.proxy.admitted? incoming = some (strategy, request)) {url : Url}
    (hurl : url.IsWeb) (hclass : course.proxy.classifier.classify url = .api)
    (hkey : Key.ofRequest request = .get url.render) : strategy = .networkFirst := by
  obtain ⟨hweb, kind, hroute⟩ := admitted?_cases h.origin hrequest
  obtain ⟨_, _, hkind, hstrategy⟩ := Classifier.route_cases hroute
  have htext : request.url.render = url.render := (Key.mk.inj hkey).2
  -- the same text has the same path, and so the same class
  have hsame : course.proxy.classifier.classify request.url = .api :=
    (course.proxy.classifier.classify_congr (hweb.path_chars_eq hurl htext) htext).trans hclass
  rw [← hkind, hsame] at hstrategy
  exact (Option.some.inj hstrategy).symm

/-- A request that comes to the engine is one question to the network. -/
theorem step_of_admitted [Url.DomainNames] (network : Network ν) (h : course.proxy.engine.Idle)
    {incoming : Incoming} {strategy : Strategy} {request : Request}
    (hrequest : course.proxy.admitted? incoming = some (strategy, request)) :
    course.step network (.request incoming) =
      ⟨{ course.proxy with
          engine := course.proxy.engine.keep strategy request
            (network.fetch request course.world.state).1 },
        ⟨(network.fetch request course.world.state).2, course.world.said ++
          [⟨.service, request, (network.fetch request course.world.state).1.map .ofResponse⟩]⟩⟩ := by
  -- the network that is asked is the recorded one, so its answer is written down
  have hserve := Engine.serve_settle h (recorded network .service) strategy request course.world
  rw [step, handle_of_admitted hrequest]
  show settle network ⟨_, _⟩ = _
  rw [settle, Proxy.settle, hserve]
  rfl

/-- A request that does not come to the engine leaves the proxy as it is, and at most something that
is passed on is said. -/
theorem step_of_not_admitted [Url.DomainNames] (network : Network ν) (h : course.proxy.engine.Idle)
    {incoming : Incoming} (hrequest : course.proxy.admitted? incoming = none) :
    (course.step network (.request incoming)).proxy = course.proxy ∧
      ((course.step network (.request incoming)).world.said = course.world.said ∨
        ∃ request answer, (course.step network (.request incoming)).world.said =
          course.world.said ++ [⟨.passage, request, answer⟩]) := by
  obtain ⟨hproxy, hworld⟩ :=
    handle_of_not_admitted hrequest (recorded network .service) course.world
  have hstep : course.step network (.request incoming) = ⟨course.proxy,
      (course.proxy.handle (recorded network .service) incoming course.world).2.2⟩ := by
    show settle network ⟨(course.proxy.handle _ incoming course.world).2.1, _⟩ = _
    rw [hproxy]
    exact settle_of_idle network h
  rw [hstep]
  refine ⟨rfl, ?_⟩
  rcases hworld with hsame | ⟨request, hforward | hforward⟩
  · exact .inl (congrArg World.said hsame)
  · exact .inr ⟨request, (network.forward request course.world.state).1,
      congrArg World.said hforward⟩
  · exact .inr ⟨request, (network.forwardBody request incoming.body course.world.state).1,
      congrArg World.said hforward⟩

/-- **What a step keeps.** Whatever happens, the newest responses are kept. -/
theorem Tracked.step [Url.DomainNames] (h : course.Tracked settings) (s : Step) :
    (course.step network s).Tracked settings := by
  cases s with
  | install =>
    have hsetUp := Engine.setUp_install (recorded network .installation) course.proxy.assetUrls
      course.proxy.engine course.world
    have hidle := h.idle.install (recorded network .installation) course.proxy.assetUrls
      course.world
    show (settle network ⟨_, _⟩).Tracked settings
    rw [settle_of_idle network hidle]
    exact ⟨h.origin, h.classifier, hsetUp.trans h.setUp, hidle, fun url hurl hclass =>
      (h.fresh url hurl hclass).install network _ h.writable h.distinct⟩
  | activate =>
    have hidle : course.proxy.engine.activate.2.Idle :=
      ⟨h.idle.writes, h.idle.refreshing, h.idle.refreshes⟩
    show (settle network ⟨_, _⟩).Tracked settings
    rw [settle_of_idle network hidle]
    exact ⟨h.origin, h.classifier, h.setUp, hidle, fun url hurl hclass =>
      (h.fresh url hurl hclass).activate⟩
  | request incoming =>
    cases hrequest : course.proxy.admitted? incoming with
    | none =>
      obtain ⟨hproxy, hsaid⟩ := step_of_not_admitted network h.idle hrequest
      refine ⟨hproxy ▸ h.origin, hproxy ▸ h.classifier, hproxy ▸ h.setUp, hproxy ▸ h.idle, ?_⟩
      rw [hproxy]
      intro url hurl hclass
      have hfresh := h.fresh url hurl hclass
      rcases hsaid with hsame | ⟨request, answer, hpassage⟩
      · rw [hsame]
        exact hfresh
      · -- what is passed on is kept nowhere
        rw [hpassage]
        exact hfresh.hear (.inr rfl)
    | some admitted =>
      obtain ⟨strategy, request⟩ := admitted
      rw [step_of_admitted network h.idle hrequest]
      refine ⟨h.origin, h.classifier, (Engine.setUp_keep _ _ _ _).trans h.setUp,
        h.idle.keep strategy request _, fun url hurl hclass => ?_⟩
      exact (h.fresh url hurl hclass).keep h.writable h.distinct
        (h.strategy_of_key hrequest hurl hclass) _

/-- **The newest responses.** They are kept in every run. -/
theorem run_tracked [Url.DomainNames] {p : Proxy} (hp : Proxy.ofSettings settings .empty = .ok p)
    (network : Network ν) (state : ν) (steps : List Step) :
    ((start p state).run network steps).Tracked settings :=
  run_induction (fun _ s h => h.step s) steps (start_tracked hp state)

end Course

/-- **The age of an answer from the store.** However a proxy got to where it is, a request that is
to be answered from the network first and that the network fails to answer is answered from the
store with the newest response of success that installations fetched for its key, if there is one,
and else with the newest one that requests of its key were served. -/
theorem lost_request_gets_newest_copy [Url.DomainNames] {settings : Settings} {p : Proxy}
    (hp : ofSettings settings .empty = .ok p) (network : Network ν) (state : ν)
    (steps : List Course.Step) {course : Course ν}
    (hcourse : course = (Course.start p state).run network steps) {incoming : Incoming}
    {request : Request}
    (hrequest : course.proxy.admitted? incoming = some (.networkFirst, request))
    {cause : FetchError}
    (hlost : (network.fetch request course.world.state).1 = .error cause) (response : Response) :
    (course.proxy.engine.serve network .networkFirst request course.world.state).1 =
        .ok ⟨response, .cache⟩ ↔
      (newest? (.ofRequest request) (during .installation course.world.said)).or
          (newest? (.ofRequest request) (during .service course.world.said)) =
        some (.ofResponse response) := by
  have h : course.Tracked settings := hcourse ▸ Course.run_tracked hp network state steps
  obtain ⟨hweb, kind, hroute⟩ := admitted?_cases h.origin hrequest
  obtain ⟨hmethod, _, hkind, hstrategy⟩ := Classifier.route_cases hroute
  have hclass : course.proxy.classifier.classify request.url = .api :=
    hkind.trans (Kind.strategy?_eq_networkFirst.mp hstrategy)
  have hkey : Key.ofRequest request = .get request.url.render := by
    rw [Key.ofRequest, hmethod, Key.get]
  -- so the address is one whose newest responses are kept
  have hlookup := (h.fresh request.url hweb hclass).lookup h.readable
  rw [h.setUpBy.engine.serve_networkFirst (h.classifier ▸ hroute) network course.world.state, hlost,
    Engine.firstOfNetwork, hkey, ← hlookup]
  cases course.proxy.engine.lookup (.get request.url.render) with
  | none =>
    -- the answer is the notice, which does not come from the store
    constructor
    · intro hnotice
      cases hnotice
    · intro hnone
      cases hnone
  | some kept =>
    constructor
    · intro hkept
      cases hkept
      rfl
    · intro hkept
      rw [ofResponse_injective (Option.some.inj hkept)]

/-! ### A style sheet under the interface -/

/-- The network that says what is written down for it, and nothing more. -/
def scripted : Network (List (Except FetchError Response)) :=
  .ofFetch fun _ script => (script.headD (.error .timeout), script.tail)

/-- Settings with a static asset that has a path of the server's interface. -/
def sheetSettings : Settings :=
  { Settings.ofBaseUrl "http://origin.test" with
    cache := { CacheSettings.initial with staticAssets := ["/rooms/a.css"] } }

/-- The address of a path on the server. -/
def sheetUrl (items : List String) : Url :=
  ⟨"http", "", "", some (.domain "origin.test"), none, .segments items, none, none⟩

/-- The proxy of the settings. -/
def sheetProxy : Proxy where
  origin := sheetUrl [""]
  classifier := .ofSettings sheetSettings.cache
  engine := .ofSettings sheetSettings.cache .empty
  staticAssets := sheetSettings.cache.staticAssets

/-- The request for the asset, with the kind of answer that is asked for, if any. -/
def sheetIncoming (accept : List String) : Incoming where
  method := "GET"
  target := .path "/rooms/a.css"
  headers := accept.map fun kind => ("accept", Utf8.encode kind)
  body := .empty

/-- The request that comes to the engine. -/
def sheetRequest : Request :=
  .get (sheetUrl ["rooms", "a.css"])

/-- Versions of the asset. -/
def sheet (version : UInt8) : Response :=
  .ofBody 200 [version]

/-- The course of the proxy where the network knows two versions of the asset. -/
def sheetCourse (steps : List Course.Step) : Course (List (Except FetchError Response)) :=
  (Course.start sheetProxy [.ok (sheet 1), .ok (sheet 2)]).run scripted steps

theorem ofSettings_sheet : ofSettings sheetSettings .empty = .ok sheetProxy := by rfl

/-- An asset that was installed is served without a network, and not the newer version that was
fetched for a request. -/
theorem lost_request_gets_newest_copy_of_asset :
    let course := sheetCourse [.install, .request (sheetIncoming [])]
    ofSettings sheetSettings .empty = .ok sheetProxy ∧
      course.proxy.admitted? (sheetIncoming []) = some (.networkFirst, sheetRequest) ∧
      (scripted.fetch sheetRequest course.world.state).1 = .error .timeout ∧
      newest? (.ofRequest sheetRequest) (during .installation course.world.said) =
        some (.ofResponse (sheet 1)) ∧
      newest? (.ofRequest sheetRequest) (during .service course.world.said) =
        some (.ofResponse (sheet 2)) ∧
      (course.proxy.engine.serve scripted .networkFirst sheetRequest course.world.state).1 =
        .ok ⟨sheet 1, .cache⟩ := by
  intro course
  have hrequest :
      course.proxy.admitted? (sheetIncoming []) = some (.networkFirst, sheetRequest) := by rfl
  have hlost : (scripted.fetch sheetRequest course.world.state).1 = .error .timeout := by rfl
  have hinstalled : newest? (.ofRequest sheetRequest) (during .installation course.world.said) =
      some (.ofResponse (sheet 1)) := by rfl
  have hrequested : newest? (.ofRequest sheetRequest) (during .service course.world.said) =
      some (.ofResponse (sheet 2)) := by rfl
  have hcourse : course = (Course.start sheetProxy [.ok (sheet 1), .ok (sheet 2)]).run scripted
      [.install, .request (sheetIncoming [])] := rfl
  refine ⟨ofSettings_sheet, hrequest, hlost, hinstalled, hrequested, ?_⟩
  apply (lost_request_gets_newest_copy ofSettings_sheet scripted _ _ hcourse hrequest hlost _).mpr
  rw [hinstalled]
  rfl

/-- The proxy answers a request for the asset, to which the network has nothing more to say, with the
first version, although the second is the newest. -/
def AnswersWithOlder (steps : List Course.Step) : Prop :=
  let course := sheetCourse steps
  course.proxy.admitted? (sheetIncoming []) = some (.networkFirst, sheetRequest) ∧
    (scripted.fetch sheetRequest course.world.state).1 = .error .timeout ∧
    newest? (.ofRequest sheetRequest) course.world.said = some (.ofResponse (sheet 2)) ∧
    (course.proxy.engine.serve scripted .networkFirst sheetRequest course.world.state).1 =
      .ok ⟨sheet 1, .cache⟩

/-- **Not the newest of all.** What is served from the store may be older than what the network said
last: an installed copy comes before a newer one of a request, and what is passed on is kept
nowhere. -/
theorem kept_answer_need_not_be_newest :
    ofSettings sheetSettings .empty = .ok sheetProxy ∧ sheet 1 ≠ sheet 2 ∧
      AnswersWithOlder [.install, .request (sheetIncoming [])] ∧
      AnswersWithOlder [.request (sheetIncoming []),
        .request (sheetIncoming ["text/event-stream"])] := by
  have hinstalled : AnswersWithOlder [.install, .request (sheetIncoming [])] :=
    ⟨by rfl, by rfl, by rfl, by rfl⟩
  have hpassed : AnswersWithOlder [.request (sheetIncoming []),
      .request (sheetIncoming ["text/event-stream"])] :=
    ⟨by rfl, by rfl, by rfl, by rfl⟩
  exact ⟨ofSettings_sheet, by decide, hinstalled, hpassed⟩

end DropRoom.Proxy
