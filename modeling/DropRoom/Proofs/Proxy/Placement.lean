import DropRoom.Proofs.Cache.Placement
import DropRoom.Proofs.Proxy.Freshness

namespace DropRoom

/-!
# What a proxy keeps

A proxy has two partitions, one for what the server's interface answers and one for static assets.
Requests are served, assets fetched and other versions deleted at the same time, and responses are
written in the background.  In whatever order all this comes, no response gets into a partition that
is not for its address.

* `Proxy.Event`, `Proxy.after` — what can happen to a proxy, in parts between which others may
  happen, and the proxy afterwards;
* `Proxy.after_handle`, `Proxy.after_settle`, `Proxy.after_install`, `Proxy.after_activate`,
  `Proxy.after_course` — all that a proxy does consists of such parts;
* `Cache.Classifier.Calls`, `Proxy.HasFetched`, `Proxy.Belongs` — which addresses a partition is
  for;
* `Proxy.Bypasses` — requests of which nothing is to be kept;
* `Proxy.keeps_by_class` — what a proxy keeps, and that those requests leave it as it is.
-/

open Cache (Classifier Engine Key Kind Session Strategy)
open Http (FetchError Network Request Response)

namespace Cache.Classifier

/-! ### The class of a text -/

/-- All addresses of the web that read so are of a class, and there are some. -/
structure Calls (classifier : Classifier) (kind : Kind) (text : String) : Prop where
  exists_url : ∃ url : Url, url.IsWeb ∧ url.render = text
  classify : ∀ url : Url, url.IsWeb → url.render = text → classifier.classify url = kind

/-- The text of an address is enough for its class. -/
theorem calls_render (classifier : Classifier) {url : Url} (h : url.IsWeb) :
    classifier.Calls (classifier.classify url) url.render :=
  ⟨⟨url, h, rfl⟩, fun _ hother htext =>
    classifier.classify_congr (hother.path_chars_eq h htext) htext⟩

end Cache.Classifier

namespace Proxy

/-! ### Events -/

/-- What can happen to a request of the browser. -/
inductive Stage where
  /-- It comes in. -/
  | arrival
  /-- Its lookup, which is under way, finds a response in the partition that it asks now. -/
  | hit (partition : String)
  /-- Its lookup has found nothing, and it goes to the network. -/
  | miss

/-- What this is to the engine. -/
def Stage.step (strategy : Strategy) (request : Request) : Stage → Session.Step
  | .arrival => .serve strategy request
  | .hit partition => .find strategy request partition
  | .miss => .miss strategy request

/-- One thing that can happen to a proxy. -/
inductive Event where
  /-- A request of the browser gets on. -/
  | request (stage : Stage) (incoming : Incoming)
  /-- The network has answered a request that waits. -/
  | answer (index : Nat) (answer : Except FetchError Response)
  /-- A write is done. -/
  | write (index : Nat)
  /-- The network has answered a refresh. -/
  | refresh (index : Nat) (answer : Except FetchError Response)
  /-- The network has answered an installation. -/
  | asset (url : Url) (answer : Except FetchError Response)
  | activate
  /-- The deletion of other versions, which is under way, comes to a partition. -/
  | delete (partition : String)

/-- What an event is to the engine: a request counts if it comes to the engine, and an answer to an
installation if it is one to the request for an asset. -/
def step? [Url.DomainNames] (p : Proxy) : Event → Option Session.Step
  | .request stage incoming =>
    (p.admitted? incoming).map fun admitted => stage.step admitted.1 admitted.2
  | .answer index answer => some (.answer index answer)
  | .write index => some (.write index)
  | .refresh index answer => some (.refresh index answer)
  | .asset url answer => if url ∈ p.assetUrls then some (.asset url answer) else none
  | .activate => some .activate
  | .delete partition => some (.delete partition)

/-- The engine of a proxy with what goes on around it, after events in order. -/
def session [Url.DomainNames] (p : Proxy) (events : List Event) : Session :=
  (Session.ofEngine p.engine).run (events.filterMap p.step?)

/-- A proxy after events in order. -/
def after [Url.DomainNames] (p : Proxy) (events : List Event) : Proxy :=
  { p with engine := (p.session events).engine }

variable {p : Proxy} {events : List Event}

/-- Later events find the engine as the earlier ones have left it. -/
theorem session_append [Url.DomainNames] (p : Proxy) (events later : List Event) :
    p.session (events ++ later) = (p.session events).run (later.filterMap p.step?) := by
  rw [session, List.filterMap_append, Session.run_append, ← session]

/-- What is nothing to the engine leaves the proxy as it is. -/
theorem after_append_of_none [Url.DomainNames] {event : Event} (h : p.step? event = none) :
    p.after (events ++ [event]) = p.after events := by
  rw [after, session_append, List.filterMap_cons_none h]
  rfl

/-- Any other event is a step of the engine. -/
theorem after_append_of_some [Url.DomainNames] {event : Event} {step : Session.Step}
    (h : p.step? event = some step) :
    p.after (events ++ [event]) = { p with engine := ((p.session events).step step).engine } := by
  rw [after, session_append, List.filterMap_cons_some h]
  rfl

/-! ### What a proxy does -/

/-- The engine may take any steps that are events. -/
theorem after_run [Url.DomainNames] (p : Proxy) (events : List Event) {steps : List Session.Step}
    (h : ∀ step ∈ steps, ∃ event, p.step? event = some step) :
    ∃ later, p.after (events ++ later) =
      { p with engine := ((p.session events).run steps).engine } := by
  have hlater : ∃ later : List Event, later.filterMap p.step? = steps := by
    induction steps with
    | nil => exact ⟨[], rfl⟩
    | cons step steps ih =>
      obtain ⟨event, hevent⟩ := h step List.mem_cons_self
      obtain ⟨later, hlater⟩ := ih fun other hmem => h other (List.mem_cons_of_mem _ hmem)
      exact ⟨event :: later, by rw [List.filterMap_cons_some hevent, hlater]⟩
  obtain ⟨later, hlater⟩ := hlater
  exact ⟨later, by rw [after, session_append, hlater]⟩

variable {ν : Type}

/-- To handle a request is to let events happen. -/
theorem after_handle [Url.DomainNames] (p : Proxy) (events : List Event) (network : Network ν)
    (incoming : Incoming) (s : ν) : ∃ later,
      ((p.after events).handle network incoming s).2.1 = p.after (events ++ later) := by
  cases hrequest : p.admitted? incoming with
  | none =>
    have hnone : (p.after events).admitted? incoming = none := hrequest
    exact ⟨[], by rw [(handle_of_not_admitted hnone network s).1, List.append_nil]⟩
  | some admitted =>
    obtain ⟨strategy, request⟩ := admitted
    have hsome : (p.after events).admitted? incoming = some (strategy, request) := hrequest
    obtain ⟨steps, hsteps, _, hengine, _⟩ :=
      (p.session events).run_serve network strategy request s
    have hevents : ∀ step ∈ steps, ∃ event, p.step? event = some step := by
      intro step hmem
      rcases hsteps step hmem with rfl | ⟨index, answer, rfl⟩
      · exact ⟨.request .arrival incoming, by rw [step?, hrequest]; rfl⟩
      · exact ⟨.answer index answer, rfl⟩
    obtain ⟨later, hlater⟩ := p.after_run events hevents
    exact ⟨later, by rw [hlater, hengine, handle_of_admitted hsome]; rfl⟩

/-- To do all background work is to let events happen. -/
theorem after_settle [Url.DomainNames] (p : Proxy) (events : List Event) (network : Network ν)
    (s : ν) :
    ∃ later, ((p.after events).settle network s).1 = p.after (events ++ later) := by
  obtain ⟨answers, hengine⟩ := (p.session events).run_settle network s
  have hevents : ∀ step ∈ (p.session events).engine.writes.map (fun _ => .write 0) ++
      answers.map (.refresh 0), ∃ event, p.step? event = some step := by
    intro step hmem
    rcases List.mem_append.mp hmem with hwrite | hrefresh
    · obtain ⟨_, _, rfl⟩ := List.mem_map.mp hwrite
      exact ⟨.write 0, rfl⟩
    · obtain ⟨answer, _, rfl⟩ := List.mem_map.mp hrefresh
      exact ⟨.refresh 0 answer, rfl⟩
  obtain ⟨later, hlater⟩ := p.after_run events hevents
  exact ⟨later, by rw [hlater, hengine]; rfl⟩

/-- To fetch the static assets is to let events happen. -/
theorem after_install [Url.DomainNames] (p : Proxy) (events : List Event) (network : Network ν)
    (s : ν) :
    ∃ later, ((p.after events).install network s).2.1 = p.after (events ++ later) := by
  obtain ⟨answers, hurls, hengine, _⟩ := (p.session events).run_install network p.assetUrls s
  have hevents : ∀ step ∈ Session.assetSteps answers, ∃ event, p.step? event = some step := by
    intro step hmem
    obtain ⟨⟨url, answer⟩, hanswer, rfl⟩ := List.mem_map.mp hmem
    have hurl : url ∈ p.assetUrls := hurls ▸ List.mem_map_of_mem (f := Prod.fst) hanswer
    exact ⟨.asset url answer, if_pos hurl⟩
  obtain ⟨later, hlater⟩ := p.after_run events hevents
  exact ⟨later, by rw [hlater, hengine]; rfl⟩

/-- To delete other versions is an event. -/
theorem after_activate [Url.DomainNames] (p : Proxy) (events : List Event) :
    (p.after events).activate.2 = p.after (events ++ [.activate]) := by
  rw [after_append_of_some rfl]
  rfl

/-- Whatever a proxy does, it has become what it is by events. -/
theorem after_course [Url.DomainNames] (p : Proxy) (network : Network ν) (state : ν)
    (steps : List Course.Step) :
    ∃ events, ((Course.start p state).run network steps).proxy = p.after events := by
  refine Course.run_induction (motive := fun course => ∃ events, course.proxy = p.after events)
    (fun course step h => ?_) steps ⟨[], rfl⟩
  obtain ⟨events, hproxy⟩ := h
  have hsettle {now : Proxy} {first : List Event} (hnow : now = p.after first) (world : World ν) :
      ∃ events, (Course.settle network ⟨now, world⟩).proxy = p.after events := by
    obtain ⟨later, hlater⟩ := p.after_settle first (recorded network .service) world
    exact ⟨first ++ later, by rw [← hlater, ← hnow]; rfl⟩
  cases step with
  | install =>
    obtain ⟨later, hlater⟩ :=
      p.after_install events (recorded network .installation) course.world
    exact hsettle (hproxy ▸ hlater) _
  | activate => exact hsettle (hproxy ▸ p.after_activate events) _
  | request incoming =>
    obtain ⟨later, hlater⟩ :=
      p.after_handle events (recorded network .service) incoming course.world
    exact hsettle (hproxy ▸ hlater) _

/-! ### Where responses belong -/

/-- An installation has fetched a static asset that has an address. -/
def HasFetched [Url.DomainNames] (p : Proxy) (events : List Event) (text : String) : Prop :=
  ∃ url ∈ p.assetUrls, url.render = text ∧
    ∃ response, .asset url (.ok response) ∈ events ∧ response.isSuccess

/-- Which keys a partition is for: one is for the addresses of the interface, and one is for static
addresses and for the assets that installations have fetched. -/
def Belongs [Url.DomainNames] (p : Proxy) (events : List Event) (name : String) (key : Key)
    : Prop :=
  key.method = "GET" ∧
    (name = p.engine.runtimePartition ∧ p.classifier.Calls .api key.url ∨
      name = p.engine.staticPartition ∧
        (p.classifier.Calls .static key.url ∨ p.HasFetched events key.url))

/-- The key of a `GET` request is one of these. -/
theorem method_ofRequest {request : Request} (h : request.method = "GET") :
    (Key.ofRequest request).method = "GET" := by
  have hupper : Text.asciiUpper "GET" = "GET" := by decide
  rw [Key.ofRequest, h]
  exact hupper

/-- A request of the browser comes to the engine as this one. -/
def Admits [Url.DomainNames] (p : Proxy) (strategy : Strategy) (request : Request) : Prop :=
  ∃ incoming, p.admitted? incoming = some (strategy, request)

/-- The class of a request that comes to the engine is that of the way in which it is served. -/
theorem Admits.class [Url.DomainNames] (horigin : p.origin.IsWeb) {strategy : Strategy}
    {request : Request} (h : p.Admits strategy request) :
    request.method = "GET" ∧ request.url.IsWeb ∧
      (p.classifier.classify request.url).strategy? = some strategy := by
  obtain ⟨incoming, hrequest⟩ := h
  obtain ⟨hweb, kind, hroute⟩ := admitted?_cases horigin hrequest
  obtain ⟨hmethod, _, rfl, hstrategy⟩ := Classifier.route_cases hroute
  exact ⟨hmethod, hweb, hstrategy⟩

/-- A request that comes to the engine is kept where its address belongs. -/
theorem Admits.fits [Url.DomainNames] (horigin : p.origin.IsWeb) {strategy : Strategy}
    {request : Request} (h : p.Admits strategy request) (events : List Event) :
    p.engine.Fits (p.Belongs events) strategy request := by
  obtain ⟨hmethod, hweb, hstrategy⟩ := h.class horigin
  have hcalls := p.classifier.calls_render hweb
  intro partition hpartition
  refine ⟨method_ofRequest hmethod, ?_⟩
  cases hkind : p.classifier.classify request.url with
  | dynamic =>
    rw [hkind] at hstrategy
    cases hstrategy
  | api =>
    rw [hkind] at hstrategy hcalls
    cases hstrategy
    cases hpartition
    exact .inl ⟨rfl, hcalls⟩
  | static =>
    rw [hkind] at hstrategy hcalls
    cases hstrategy
    cases hpartition
    exact .inr ⟨rfl, .inl hcalls⟩
  | residual =>
    rw [hkind] at hstrategy
    cases hstrategy
    cases hpartition

/-- What events are to the engine suits it. -/
theorem suits_of_step? [Url.DomainNames] {event : Event} (hevent : event ∈ events)
    {step : Session.Step} (hstep : p.step? event = some step) :
    step.Suits p.Admits (p.Belongs events) p.engine := by
  cases event with
  | request stage incoming =>
    obtain ⟨⟨strategy, request⟩, hrequest, rfl⟩ := Option.map_eq_some_iff.mp hstep
    have hadmits : p.Admits strategy request := ⟨incoming, hrequest⟩
    cases stage with
    | arrival => exact hadmits
    | hit partition => exact hadmits
    | miss => exact hadmits
  | asset url answer =>
    rw [step?] at hstep
    split at hstep
    · rename_i hurl
      cases hstep
      rintro response rfl hsuccess
      exact ⟨method_ofRequest rfl, .inr ⟨rfl, .inr ⟨url, hurl, rfl, response, hevent, hsuccess⟩⟩⟩
    · cases hstep
  | answer index answer =>
    cases hstep
    trivial
  | write index =>
    cases hstep
    trivial
  | refresh index answer =>
    cases hstep
    trivial
  | activate =>
    cases hstep
    trivial
  | delete partition =>
    cases hstep
    trivial

/-- All that a proxy keeps is placed where it belongs, whatever events happen. -/
theorem session_placed [Url.DomainNames] {settings : Settings}
    (hp : ofSettings settings .empty = .ok p)
    (events : List Event) : (p.session events).Placed p.Admits (p.Belongs events) := by
  obtain ⟨horigin, _, hengine, _⟩ := ofSettings_cases hp
  have hstart : (Session.ofEngine p.engine).Placed p.Admits (p.Belongs events) := by
    refine ⟨?_, fun _ _ hmem => absurd hmem List.not_mem_nil, fun _ _ h => h.fits horigin events⟩
    show p.engine.Placed _
    rw [hengine]
    exact Engine.ofSettings_placed _ settings.cache
  refine hstart.run fun step hmem => ?_
  obtain ⟨event, hevent, hstep⟩ := List.mem_filterMap.mp hmem
  exact suits_of_step? hevent hstep

/-! ### Requests of which nothing is kept -/

/-- The target of a request is no address, or the request is passed on, or its address is of none of
the classes that are looked for. -/
def Bypasses [Url.DomainNames] (p : Proxy) (incoming : Incoming) : Prop :=
  ∀ url, incoming.target.resolve p.origin = .ok url → ∀ kind strategy,
    p.classifier.route (incoming.request url) = .intercept kind strategy → kind = .residual

/-- Such a request does not come to the engine, or comes as one of which nothing is kept. -/
theorem Bypasses.admitted?_cases [Url.DomainNames] {incoming : Incoming} (h : p.Bypasses incoming) :
    p.admitted? incoming = none ∨
      ∃ request, p.admitted? incoming = some (.networkFirstWithFallback, request) := by
  rw [admitted?]
  split
  · exact .inl rfl
  · rename_i url hurl
    split
    · rename_i kind strategy bytes hroute _
      obtain rfl := h url hurl kind strategy hroute
      obtain ⟨_, _, _, hstrategy⟩ := Classifier.route_cases hroute
      cases hstrategy
      exact .inr ⟨_, rfl⟩
    · exact .inl rfl

/-- Such a request leaves the proxy as it is when it comes in, and when it goes to the network. -/
theorem Bypasses.after_append [Url.DomainNames] {incoming : Incoming} (h : p.Bypasses incoming)
    (stage : Stage) :
    p.after (events ++ [.request stage incoming]) = p.after events := by
  rcases h.admitted?_cases with hnone | ⟨request, hsome⟩
  · apply after_append_of_none
    rw [step?, hnone]
    rfl
  · have hstep : p.step? (.request stage incoming) =
        some (stage.step .networkFirstWithFallback request) := by
      rw [step?, hsome]
      rfl
    rw [after_append_of_some hstep]
    cases stage with
    | arrival => rfl
    | hit partition =>
      rw [Stage.step, Session.engine_step_find_fallback]
      rfl
    | miss => rfl

/-- So it does when it is handled as a whole. -/
theorem Bypasses.handle [Url.DomainNames] {incoming : Incoming} (h : p.Bypasses incoming)
    (network : Network ν) (s : ν) : (p.handle network incoming s).2.1 = p := by
  rcases h.admitted?_cases with hnone | ⟨request, hsome⟩
  · exact (handle_of_not_admitted hnone network s).1
  · rw [handle_of_admitted hsome, Session.engine_serve_fallback]

/-- So it does when the network has answered. -/
theorem after_answer_of_residual [Url.DomainNames] {settings : Settings}
    (hp : ofSettings settings .empty = .ok p)
    {index : Nat} {strategy : Strategy} {request : Request}
    (hwaiting : (p.session events).waiting[index]? = some (strategy, request))
    (hclass : p.classifier.classify request.url = .residual)
    (answer : Except FetchError Response) :
    p.after (events ++ [.answer index answer]) = p.after events := by
  obtain ⟨horigin, _⟩ := ofSettings_cases hp
  have hadmits := (session_placed hp events).waiting strategy request
    (List.mem_of_getElem? hwaiting)
  obtain ⟨_, _, hstrategy⟩ := hadmits.class horigin
  rw [hclass] at hstrategy
  cases hstrategy
  rw [after_append_of_some rfl, Session.engine_step_answer_fallback hwaiting]
  rfl

/-! ### Runs -/

/-- **What a proxy keeps.** Whatever happens to a proxy that starts with an empty store, in whatever
order: it has no partitions but the two of its settings.  All keys are those of `GET` requests.  One
partition has only keys of addresses of the interface, and the other one only those of static
addresses and of assets that an installation has fetched.  A request that is passed on, or that has
no address or one of no class that is looked for, leaves the proxy as it is, with all that it keeps,
whatever else happens between its parts. -/
theorem keeps_by_class [Url.DomainNames] {settings : Settings}
    (hp : ofSettings settings .empty = .ok p) (events : List Event) :
    let store := (p.after events).engine.store
    (∀ name ∈ store.partitions, name = settings.cache.staticPartition ∨
      name = settings.cache.runtimePartition) ∧
    (∀ name, ∀ key ∈ store.keys name, key.method = "GET") ∧
    (∀ key ∈ store.keys settings.cache.runtimePartition, p.classifier.Calls .api key.url) ∧
    (∀ key ∈ store.keys settings.cache.staticPartition,
      p.classifier.Calls .static key.url ∨ p.HasFetched events key.url) ∧
    (∀ incoming, p.Bypasses incoming → ∀ stage,
      p.after (events ++ [.request stage incoming]) = p.after events) ∧
    (∀ index strategy request answer,
      (p.session events).waiting[index]? = some (strategy, request) →
      p.classifier.classify request.url = .residual →
      p.after (events ++ [.answer index answer]) = p.after events) ∧
    ∀ incoming, p.Bypasses incoming → ∀ (ν : Type) (network : Network ν) (s : ν),
      ((p.after events).handle network incoming s).2.1 = p.after events := by
  intro store
  obtain ⟨_, _, hengine, _⟩ := ofSettings_cases hp
  -- every key of the store belongs to its partition; the rest is read off `Belongs`
  have hplaced : (p.after events).engine.Placed (p.Belongs events) :=
    (session_placed hp events).engine
  have hsetUp : p.engine.SetUpBy settings.cache :=
    hengine ▸ Engine.ofSettings_setUpBy settings.cache .empty
  have hbelongs {name : String} {key : Key} (hmem : key ∈ store.keys name) :
      p.Belongs events name key := by
    obtain ⟨response, hget⟩ := Cache.Store.mem_keys_iff.mp hmem
    exact hplaced.kept name key response hget
  rw [← hsetUp.staticPartition, ← hsetUp.runtimePartition]
  refine ⟨fun name hmem => ?_, fun name key hmem => (hbelongs hmem).1, fun key hmem => ?_,
    fun key hmem => ?_, fun incoming h stage => h.after_append stage,
    fun index strategy request answer hwaiting hclass =>
      after_answer_of_residual hp hwaiting hclass answer,
    fun incoming h ν network s => ?_⟩
  · obtain ⟨key, _, hname | hname⟩ := hplaced.partitions name hmem
    · exact .inr hname.1
    · exact .inl hname.1
  · rcases (hbelongs hmem).2 with hcalls | hother
    · exact hcalls.2
    · exact absurd hother.1.symm hsetUp.partitions_ne
  · rcases (hbelongs hmem).2 with hother | hcalls
    · exact absurd hother.1 hsetUp.partitions_ne
    · exact hcalls.2
  · have hbypasses : (p.after events).Bypasses incoming := h
    exact hbypasses.handle network s

/-- The request for a page that is in no table. -/
def pageIncoming : Incoming where
  method := "GET"
  target := .path "/other.html"
  headers := []
  body := .empty

/-- A style sheet has an address of the interface.  It is in both partitions once an installation
and then a request have fetched it, and the answer to the request was written.  A page that is in no
table changes nothing. -/
theorem keeps_by_class_of_sheet :
    let text := "http://origin.test/rooms/a.css"
    let events : List Event := [.asset sheetRequest.url (.ok (sheet 1)),
      .request .arrival (sheetIncoming []), .answer 0 (.ok (sheet 2)), .write 0]
    let store := (sheetProxy.after events).engine.store
    ofSettings sheetSettings .empty = .ok sheetProxy ∧
      store.partitions = ["eventdrop-static-v1", "eventdrop-v1"] ∧
      store.keys "eventdrop-v1" = [.get text] ∧ sheetProxy.classifier.Calls .api text ∧
      store.keys "eventdrop-static-v1" = [.get text] ∧ sheetProxy.HasFetched events text ∧
      sheetProxy.Bypasses pageIncoming ∧
      sheetProxy.after (events ++ [.request .arrival pageIncoming]) = sheetProxy.after events := by
  intro text events store
  have hruntime : store.keys "eventdrop-v1" = [.get text] := by rfl
  have hstatic : store.keys "eventdrop-static-v1" = [.get text] := by rfl
  have hbypasses : sheetProxy.Bypasses pageIncoming := by
    intro url hurl kind strategy hroute
    have hpage : url = sheetUrl ["other.html"] := (Except.ok.inj hurl).symm
    have hresidual : sheetProxy.classifier.route (pageIncoming.request (sheetUrl ["other.html"])) =
        .intercept .residual .networkFirstWithFallback := by rfl
    rw [hpage, hresidual] at hroute
    cases hroute
    rfl
  obtain ⟨_, _, hinterface, hassets, hbypass, _⟩ := keeps_by_class ofSettings_sheet events
  have hcalls : sheetProxy.classifier.Calls .api text :=
    hinterface (.get text) (hruntime ▸ List.mem_singleton_self _)
  have hfetched : sheetProxy.HasFetched events text := by
    refine (hassets (.get text) (hstatic ▸ List.mem_singleton_self _)).resolve_left fun hother => ?_
    -- one text has one class
    obtain ⟨url, hweb, htext⟩ := hcalls.exists_url
    have hkinds : Kind.api = .static :=
      (hcalls.classify url hweb htext).symm.trans (hother.classify url hweb htext)
    cases hkinds
  exact ⟨ofSettings_sheet, by rfl, hruntime, hcalls, hstatic, hfetched, hbypasses,
    hbypass pageIncoming hbypasses .arrival⟩

end Proxy

end DropRoom
