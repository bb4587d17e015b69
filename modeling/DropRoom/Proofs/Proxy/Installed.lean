import DropRoom.Proofs.Cache.Retention
import DropRoom.Proofs.Proxy.Freshness

namespace DropRoom.Proxy

/-!
# Assets that are installed

An asset that an installation has reported as kept is there for good: whatever else the proxy does,
and whatever the network says, requests for it have an answer.

* `Installed` — an installation has come to its end and has reported an asset as kept;
* `installed_of_install` — so it is after `Proxy.install`, whatever had happened before;
* `installed_stays` — what is promised then.
-/

open Cache (InstallReport Session Store)
open Http (FetchError Network Request Response)

/-- Among the steps, an installation has come to its end, and has reported that what is at an address
is kept.  Other steps may stand between those of the installation. -/
def Installed [Url.DomainNames] (p : Proxy) (steps : List Session.Step) (text : String) : Prop :=
  ∃ answers, answers.map Prod.fst = p.assetUrls ∧ (Session.assetSteps answers).Sublist steps ∧
    text ∈ (InstallReport.ofAnswers answers).cached

variable {p : Proxy} {steps : List Session.Step} {text : String}

/-- An installation that nothing interrupts, after any other steps. -/
theorem installed_of_install [Url.DomainNames] {ν : Type} (p : Proxy) (before : List Session.Step)
    (network : Network ν) (s : ν) :
    let now := { p with engine := ((Session.ofEngine p.engine).run before).engine }
    ∃ steps, ((Session.ofEngine p.engine).run (before ++ steps)).engine =
        (now.install network s).2.1.engine ∧
      ∀ text ∈ (now.install network s).1.cached, p.Installed (before ++ steps) text := by
  intro now
  obtain ⟨answers, hurls, hengine, hreport⟩ :=
    ((Session.ofEngine p.engine).run before).run_install network p.assetUrls s
  refine ⟨Session.assetSteps answers, ?_, fun text hmem => ?_⟩
  · rw [Session.run_append, hengine]
    rfl
  · have hcached : text ∈ (InstallReport.ofAnswers answers).cached := hreport ▸ hmem
    exact ⟨answers, hurls, List.sublist_append_right before _, hcached⟩

/-- What an installation has reported as kept is held from then on. -/
theorem Installed.holds [Url.DomainNames] (h : p.Installed steps text) {start : Store}
    {session : Session}
    (htraced : session.Traced start) (hreadable : session.engine.readable = true)
    (hwritable : session.engine.writable = true) :
    (session.run steps).engine.Holds (.get text) := by
  obtain ⟨answers, _, hsublist, hcached⟩ := h
  obtain ⟨url, response, hanswer, hsuccess, rfl⟩ := InstallReport.exists_of_mem_cached hcached
  have hmem : .asset url (.ok response) ∈ steps :=
    hsublist.subset (List.mem_map.mpr ⟨(url, .ok response), hanswer, rfl⟩)
  obtain ⟨before, later, rfl⟩ := List.append_of_mem hmem
  have hsetUp := session.setUp_run before
  rw [Session.run_append, Session.run_cons]
  refine Session.holds_run ((htraced.run before).step _) ?_ later
  exact Cache.Engine.holds_keepAsset
    ((congrArg Cache.Engine.SetUp.readable hsetUp).trans hreadable)
    ((congrArg Cache.Engine.SetUp.writable hsetUp).trans hwritable) url hsuccess

/-- **Installed for good.** In every run of a proxy, whatever the network says and in whatever order
installations, deletions, requests and background work come: once an installation has reported an
asset as kept, a response of success is found for it, and requests for it have an answer, in
whichever way they are served.  Nothing takes a key from a current partition; its response only
gives way to one of success. -/
theorem installed_stays [Url.DomainNames] {settings : Settings} {store : Store}
    (hp : ofSettings settings store = .ok p) (steps : List Session.Step) :
    let session := (Session.ofEngine p.engine).run steps
    (∀ text, p.Installed steps text →
      (∃ response, session.engine.lookup (.get text) = some response ∧ response.isSuccess) ∧
      ∀ strategy request, request.method = "GET" → request.url.render = text →
        session.AlwaysAnswers strategy request) ∧
    ∀ partition key response later, session.engine.isCurrent partition = true →
      session.engine.store.get? partition key = some response →
      (session.run later).engine.store.Keeps partition key response := by
  intro session
  obtain ⟨_, _, hengine, _⟩ := ofSettings_cases hp
  have hstart : (Session.ofEngine p.engine).Traced store := by
    rw [hengine]
    exact Session.ofEngine_traced (.ofSettings settings.cache store) rfl
  have htraced : session.Traced store := hstart.run steps
  refine ⟨fun text hinstalled => ?_, fun partition key response later hcurrent hget => ?_⟩
  · have hholds : session.engine.Holds (.get text) :=
      hinstalled.holds hstart (by rw [hengine]; rfl) (by rw [hengine]; rfl)
    refine ⟨hholds.lookup, fun strategy request hmethod hurl => ?_⟩
    have hkey : Cache.Key.ofRequest request = .get text := by
      rw [Cache.Key.ofRequest, hmethod, hurl, Cache.Key.get]
    exact Session.alwaysAnswers_of_holds htraced (hkey ▸ hholds) strategy
  · exact Session.keeps_run htraced hcurrent ⟨response, hget, .inl rfl⟩ later

/-- A style sheet is installed while another version is deleted.  Although the next installation and
a refresh fail, requests for it have an answer, and its copy stays. -/
theorem installed_stays_of_failed_refresh :
    let steps : List Session.Step := [.delete "eventdrop-v0",
      .asset sheetRequest.url (.ok (sheet 1)), .serve .cacheFirst sheetRequest,
      .asset sheetRequest.url (.error .timeout), .refresh 0 (.error .timeout)]
    let session := (Session.ofEngine sheetProxy.engine).run steps
    ofSettings sheetSettings .empty = .ok sheetProxy ∧
      sheetProxy.Installed steps "http://origin.test/rooms/a.css" ∧
      (∃ response, session.engine.lookup (.get "http://origin.test/rooms/a.css") =
        some response ∧ response.isSuccess) ∧
      session.AlwaysAnswers .networkFirst sheetRequest ∧
      session.engine.store.get? "eventdrop-static-v1" (.ofRequest sheetRequest) =
        some (sheet 1) ∧
      (session.run [.activate]).engine.store.Keeps "eventdrop-static-v1" (.ofRequest sheetRequest)
        (sheet 1) := by
  intro steps session
  have hinstalled : sheetProxy.Installed steps "http://origin.test/rooms/a.css" := by
    refine ⟨[(sheetRequest.url, .ok (sheet 1))], by rfl, ?_, by decide⟩
    exact .cons _ (.cons_cons _ (List.nil_sublist _))
  have hget : session.engine.store.get? "eventdrop-static-v1" (.ofRequest sheetRequest) =
      some (sheet 1) := by rfl
  obtain ⟨hasset, hkeeps⟩ := installed_stays ofSettings_sheet steps
  obtain ⟨hlookup, hanswers⟩ := hasset _ hinstalled
  exact ⟨ofSettings_sheet, hinstalled, hlookup, hanswers _ sheetRequest rfl rfl, hget,
    hkeeps _ _ _ [.activate] (by rfl) hget⟩

end DropRoom.Proxy
