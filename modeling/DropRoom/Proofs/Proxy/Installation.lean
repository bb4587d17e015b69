import DropRoom.Proofs.Proxy.Freshness

namespace DropRoom.Proxy

/-!
# Installations

An installation asks for each of its addresses in order, whatever became of those before, and keeps
the responses of success.  So it can do no more than replace some responses of the static partition
by newer ones: where it fails, what was kept before stays.

* `Exchange.succeeded` — the network has answered a request with success;
* `Installs` — an installation has reported and kept what it should, given what was said;
* `installs_install` — every installation has;
* `installs_each_once` — what an installation asks for, reports, keeps and leaves as it was.
-/

open Cache (Engine InstallReport Key)
open Http (Arriving FetchError Network Request Response)

variable {ν : Type}

/-! ### Success -/

namespace Exchange

/-- The network has answered a request with success. -/
def succeeded (exchange : Exchange) : Bool :=
  match exchange.answer with
  | .ok response => Http.isSuccess response.status
  | .error _ => false

variable {exchange : Exchange}

/-- An asset is kept exactly if it was fetched with success. -/
theorem succeeded_ofAsset (url : Url) (answer : Except FetchError Response) :
    (ofAsset url answer).succeeded = Cache.isKept answer := by
  cases answer with
  | error cause => rfl
  | ok response => rfl

/-- Without success there is no response that counts. -/
theorem success?_of_not_succeeded (h : exchange.succeeded = false) (key : Key) :
    exchange.success? key = none := by
  rw [succeeded] at h
  rw [success?]
  split
  · rfl
  · rename_i response hanswer
    rw [hanswer] at h
    exact if_neg fun hcounts => Bool.false_ne_true (h.symm.trans hcounts.1)

/-- With success the response counts for the key of its request. -/
theorem success?_of_succeeded {response : Arriving} (hanswer : exchange.answer = .ok response)
    (h : exchange.succeeded = true) (key : Key) :
    exchange.success? key =
      if Key.ofRequest exchange.request = key then some response else none := by
  rw [succeeded, hanswer] at h
  simp [success?, hanswer, h]

end Exchange

/-! ### Reports and copies -/

/-- An installation has reported and kept what it should, given what the network said to it: each
asset in its turn; under each key of the static partition the newest response of success, and what
was there before if there is none; and nothing anywhere else. -/
structure Installs (said : List Exchange) (e : Engine) (report : InstallReport) (done : Engine) :
    Prop where
  cached : report.cached =
    (said.filter Exchange.succeeded).map fun exchange => exchange.request.url.render
  failed : report.failed =
    (said.filter fun exchange => !exchange.succeeded).map fun exchange => exchange.request.url.render
  copies : ∀ key, (done.store.get? e.staticPartition key).map .ofResponse =
    (newest? key said).or ((e.store.get? e.staticPartition key).map .ofResponse)
  others : ∀ name, name ≠ e.staticPartition → done.store.entries name = e.store.entries name
  partitions : done.store.partitions =
    if report.cached = [] ∨ e.staticPartition ∈ e.store.partitions then e.store.partitions
    else e.store.partitions ++ [e.staticPartition]
  frame : done = { e with store := done.store }

variable {said : List Exchange} {e done : Engine} {report : InstallReport}

/-- An installation without assets does nothing. -/
theorem installs_nil (e : Engine) : Installs [] e .empty e where
  cached := rfl
  failed := rfl
  copies _ := rfl
  others _ _ := rfl
  partitions := (if_pos (.inl rfl)).symm
  frame := rfl

/-- An asset that is not kept is reported, and changes nothing. -/
theorem Installs.cons_failed (h : Installs said e report done) {exchange : Exchange} {url : Url}
    (hrequest : exchange.request = .get url) (hfailed : exchange.succeeded = false) :
    Installs (exchange :: said) e (report.report url false) done where
  cached := by
    rw [List.filter_cons_of_neg (by simp [hfailed])]
    exact h.cached
  failed := by
    rw [List.filter_cons_of_pos (by simp [hfailed]), List.map_cons, ← h.failed, hrequest]
    rfl
  copies key := by
    rw [h.copies, ← List.singleton_append, newest?_append, newest?_singleton,
      exchange.success?_of_not_succeeded hfailed, Option.or_none]
  others := h.others
  partitions := h.partitions
  frame := h.frame

/-- An asset that is kept is reported, and its response is the newest until another one of success
comes. -/
theorem Installs.cons_kept {url : Url} {response : Response}
    (h : Installs said
      { e with store := e.store.put e.staticPartition (.ofRequest (.get url)) response } report done)
    {exchange : Exchange} (hrequest : exchange.request = .get url)
    (hanswer : exchange.answer = .ok (.ofResponse response)) (hkept : exchange.succeeded = true) :
    Installs (exchange :: said) e (report.report url true) done where
  cached := by
    rw [List.filter_cons_of_pos hkept, List.map_cons, ← h.cached, hrequest]
    rfl
  failed := by
    rw [List.filter_cons_of_neg (by simp [hkept])]
    exact h.failed
  copies key := by
    -- the response is both the first that was said and what was there before the others
    rw [h.copies, ← List.singleton_append, newest?_append, newest?_singleton, Option.or_assoc,
      exchange.success?_of_succeeded hanswer hkept, hrequest, Cache.Store.get?_put]
    by_cases hsame : Key.ofRequest (.get url) = key <;> simp [hsame]
  others name hname := by
    rw [h.others name hname]
    exact (Cache.Store.entries_update _ _ _ _).trans (if_neg hname.symm)
  partitions := by
    -- the partition is made with the first asset that is kept
    have hput := e.store.partitions_put e.staticPartition (.ofRequest (.get url)) response
    have hreported : (report.report url true).cached ≠ [] := List.cons_ne_nil _ _
    rw [h.partitions]
    by_cases hthere : e.staticPartition ∈ e.store.partitions
    · rw [if_pos hthere] at hput
      simp [hput, hthere]
    · rw [if_neg hthere] at hput
      simp [hput, hthere, hreported]
  frame := h.frame

/-- Every installation has reported and kept what it should. -/
theorem installs_install (network : Network ν) (urls : List Url) {e : Engine}
    (hwritable : e.writable = true) (s : ν) :
    Installs (heard network urls s) e (Engine.install network urls e s).1
      (Engine.install network urls e s).2.1 := by
  induction urls generalizing e s with
  | nil => exact installs_nil e
  | cons url urls ih =>
    simp only [heard, Engine.install]
    -- the store of the engine that goes on works as well
    rcases e.keepAsset_cases url (network.fetch (.get url) s).1 with
      ⟨response, hanswer, hsuccess, hkept⟩ | ⟨hfailed, hkept⟩
    · rw [Engine.persist, if_pos hwritable] at hkept
      simp only [hkept]
      have hrest := @ih
        { e with store := e.store.put e.staticPartition (.ofRequest (.get url)) response }
        hwritable (network.fetch (.get url) s).2
      refine hrest.cons_kept rfl ?_ ?_
      · exact congrArg (Except.map Arriving.ofResponse) hanswer
      · rw [Exchange.succeeded_ofAsset, hanswer]
        exact hsuccess
    · simp only [hkept]
      exact (ih hwritable (network.fetch (.get url) s).2).cons_failed rfl
        ((Exchange.succeeded_ofAsset url _).trans hfailed)

/-- **Installation.** Whatever the network says and whatever is kept before, an installation asks for
each of its addresses once, in order, and for nothing else.  It reports those that were answered with
success, and the others, in their order.  Afterwards the static partition has under each key the last
response of success that came, and what it had before if none came.  All other partitions have what
they had, and the static one is made, after them, if it was not there and something is kept.  So what
was there under some key still is, or has made way for a newer response. -/
theorem installs_each_once (network : Network ν) (urls : List Url) {e : Engine}
    (hwritable : e.writable = true) (s : ν) :
    let result := Engine.install (recorded network .installation) urls e ⟨s, []⟩
    let report := result.1
    let done := result.2.1
    let said := result.2.2.said
    Engine.install network urls e s = (report, done, result.2.2.state) ∧
    said.map Exchange.request = urls.map .get ∧
    report.cached =
      (said.filter fun exchange => exchange.succeeded).map (·.request.url.render) ∧
    report.failed =
      (said.filter fun exchange => !exchange.succeeded).map (·.request.url.render) ∧
    (∀ key, (done.store.get? e.staticPartition key).map .ofResponse =
      (newest? key said).or ((e.store.get? e.staticPartition key).map .ofResponse)) ∧
    (∀ name, name ≠ e.staticPartition → done.store.entries name = e.store.entries name) ∧
    done.store.partitions =
      (if report.cached = [] ∨ e.staticPartition ∈ e.store.partitions then e.store.partitions
      else e.store.partitions ++ [e.staticPartition]) ∧
    done = { e with store := done.store } ∧
    ∀ name key, done.store.get? name key = none → e.store.get? name key = none := by
  intro result report done said
  have hresult : result = ((Engine.install network urls e s).1,
      (Engine.install network urls e s).2.1,
      ⟨(Engine.install network urls e s).2.2, heard network urls s⟩) :=
    install_recorded network urls e s []
  have hsame : Engine.install network urls e s = (report, done, result.2.2.state) := by
    simp only [report, done, hresult]
  have hsaid : said = heard network urls s := by
    simp only [said, hresult]
  have hinstalls : Installs said e report done := by
    simp only [hsaid, report, done, hresult]
    exact installs_install network urls hwritable s
  refine ⟨hsame, hsaid ▸ map_request_heard network urls s, hinstalls.cached, hinstalls.failed,
    hinstalls.copies, hinstalls.others, hinstalls.partitions, hinstalls.frame,
    fun name key hnone => ?_⟩
  by_cases hname : name = e.staticPartition
  · have hcopies := hinstalls.copies key
    rw [← hname, hnone] at hcopies
    exact Option.map_eq_none_iff.mp (Option.or_eq_none_iff.mp hcopies.symm).2
  · rwa [Cache.Store.get?, hinstalls.others name hname] at hnone

/-- A page that is listed twice has its second response at last.  The style sheet, for which nothing
comes, keeps an old one, and a page that is not found is not kept. -/
theorem installs_each_once_of_failures :
    let page := sheetUrl ["create.html"]
    let style := sheetUrl ["a.css"]
    let lost := sheetUrl ["lost.html"]
    let urls := [page, style, page, lost]
    let e := Engine.ofSettings .initial
      ((Cache.Store.empty.put "notes" (.get page.render) (sheet 7)).put "eventdrop-static-v1"
        (.get style.render) (sheet 0))
    let result := Engine.install (recorded scripted .installation) urls e
      ⟨[.ok (sheet 1), .error .timeout, .ok (sheet 2), .ok (.ofBody 404 [])], []⟩
    let kept := fun url : Url =>
      (result.2.1.store.get? e.staticPartition (.get url.render)).map Arriving.ofResponse
    e.writable = true ∧
      result.2.2.said.map Exchange.request = urls.map .get ∧
      result.1.cached = [page.render, page.render] ∧ result.1.failed = [style.render, lost.render] ∧
      kept page = some (.ofResponse (sheet 2)) ∧ kept style = some (.ofResponse (sheet 0)) ∧
      kept lost = none ∧
      result.2.1.store.entries "notes" = [(.get page.render, sheet 7)] := by
  intro page style lost urls e result kept
  obtain ⟨_, hrequests, hcached, hfailed, hcopies, hothers, _⟩ :=
    installs_each_once scripted urls (e := e) rfl
      [.ok (sheet 1), .error .timeout, .ok (sheet 2), .ok (.ofBody 404 [])]
  exact ⟨rfl, hrequests, hcached.trans (by rfl), hfailed.trans (by rfl),
    (hcopies _).trans (by decide), (hcopies _).trans (by decide), (hcopies _).trans (by decide),
    (hothers _ (by decide)).trans (by rfl)⟩

end DropRoom.Proxy
