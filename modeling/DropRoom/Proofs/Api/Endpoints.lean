import DropRoom.Proofs.Api.Reports
import DropRoom.Proofs.Api.Requests
import DropRoom.Proofs.Settings.Check
import DropRoom.Proofs.Url.ServerPath

namespace DropRoom.Api

/-!
# The endpoints of the server

All requests of a user are for a handful of paths of the server, and for files below one of them.
The address of such a path is made by replacing the path of the address of the server, so that query
and fragment of that address are kept, which they are not where the path is resolved.

* `endpointPaths` — the paths;
* `AtEndpoint` — a request for one of them, or for a file;
* `Errand.perform_congr`, `metrics_congr` — nothing else is asked for;
* `endpoint_eq_join_iff` — when the address of an endpoint is what its path is resolved to.
-/

open Settings (base_isWeb)

variable {server other : Server} {base : Url}

/-- The paths of the server that requests are for. -/
def endpointPaths : List String :=
  ["/files", "/files/batch", "/rooms/leave", "/rooms/delete", "/rooms/create", "/rooms/join",
    "/metrics"]

/-- A request for one of the endpoints, or for a file. -/
def AtEndpoint (base : Url) (call : Call) : Prop :=
  (∃ path ∈ endpointPaths, call.url = endpoint base path) ∨ ∃ id, fileUrl base id = .ok call.url

/-! ### What is asked for -/

/-- A call to the path of an endpoint is one at an endpoint. -/
theorem atEndpoint_of_path {path method : String} {payload : Payload} (h : path ∈ endpointPaths) :
    AtEndpoint base ⟨method, endpoint base path, payload⟩ :=
  .inl ⟨path, h, rfl⟩

/-- Two servers that answer alike where an action asks are the same to it. -/
theorem Asks.congr {α : Type} {sent : Option Call} {act : Server → Except RequestError α}
    (h : Asks sent act) (hsent : ∀ call ∈ sent, AtEndpoint base call)
    (hsame : ∀ call, AtEndpoint base call → other call = server call) : act other = act server :=
  h.same server other fun call hcall => hsame call (hsent call hcall)

/-- A user who enters or makes a room sends one document, if there is nothing to complain about. -/
theorem asks_enter (base : Url) (path : String) (complaints : List Complaint) (document : Json)
    (default : String) :
    Asks (if complaints = [] then some ⟨"POST", endpoint base path, .document document⟩ else none)
      fun server => enter server base path complaints document default := by
  unfold enter
  cases complaints with
  | cons complaint complaints => exact asks_nothing rfl
  | nil =>
    have hsend := (asks_send ⟨"POST", endpoint base path, .document document⟩ default
      (isGone_ensureSuccess default)).bind fun reply => isGone_read reply Membership.decoder default
    simp only [bind_assoc] at hsend
    exact hsend

/-- The metrics are asked for once. -/
theorem asks_metrics (base : Url) :
    Asks (some ⟨"GET", endpoint base "/metrics", .nothing⟩) fun server => metrics server base := by
  have hsend := (asks_send ⟨"GET", endpoint base "/metrics", .nothing⟩ "Failed to load metrics"
    (isGone_ensureSuccess "Failed to load metrics")).bind fun reply =>
      isGone_read reply Metrics.decoder "Failed to load metrics"
  simp only [bind_assoc] at hsend
  exact hsend

section

variable (hsame : ∀ call, AtEndpoint base call → other call = server call)
include hsame

/-- Servers that agree at the endpoints are sent the same files, with the same result. -/
theorem sendFiles_congr [File.MediaTypes] {path : String} (hpath : path ∈ endpointPaths)
    (files : List File.Upload) (default : String) :
    sendFiles other (endpoint base path) files default =
      sendFiles server (endpoint base path) files default := by
  refine (asks_sendFiles (endpoint base path) files default).congr (fun call hcall => ?_) hsame
  rw [storing?] at hcall
  split at hcall
  · cases hcall
    exact atEndpoint_of_path hpath
  · cases hcall

/-- A room is left in the same way. -/
theorem exit_congr {path : String} (hpath : path ∈ endpointPaths) (default success : String)
    (page : Page) :
    exit other base path default success page = exit server base path default success page := by
  have hsend : sendExit other (endpoint base path) default =
      sendExit server (endpoint base path) default := by
    refine (asks_sendExit (endpoint base path) default).congr (fun call hcall => ?_) hsame
    cases hcall
    exact atEndpoint_of_path hpath
  rw [exit_eq, exit_eq, hsend]

/-- It is entered in the same way. -/
theorem enter_congr {path : String} (hpath : path ∈ endpointPaths) (complaints : List Complaint)
    (document : Json) (default : String) :
    enter other base path complaints document default =
      enter server base path complaints document default := by
  refine (asks_enter base path complaints document default).congr (fun call hcall => ?_) hsame
  split at hcall
  · cases hcall
    exact atEndpoint_of_path hpath
  · cases hcall

/-- A file has the same address. -/
theorem downloadAddress_congr (id : String) :
    downloadAddress other base id = downloadAddress server base id := by
  refine (asks_downloadAddress base id).congr (fun call hcall => .inr ⟨id, ?_⟩) hsame
  cases hurl : fileUrl base id with
  | error e =>
    rw [hurl] at hcall
    cases hcall
  | ok url =>
    rw [hurl] at hcall
    cases hcall
    rfl

/-- The same files are deleted. -/
theorem sendDeletion_congr (ids : List String) :
    sendDeletion other base ids = sendDeletion server base ids := by
  refine (asks_sendDeletion base ids).congr (fun call hcall => ?_) hsame
  split at hcall
  · cases hcall
  · cases hcall
    exact atEndpoint_of_path (by decide)

theorem metrics_congr : metrics other base = metrics server base :=
  (asks_metrics base).congr (fun call hcall => by
    cases hcall
    exact atEndpoint_of_path (by decide)) hsame

/-- **Nothing else is asked for.** What comes of an action depends on the server only by its answers
to requests for the endpoints and for files. -/
theorem Errand.perform_congr [File.MediaTypes] (errand : Errand) (page : Page) :
    errand.perform other base page = errand.perform server base page := by
  cases errand with
  | upload files =>
    show Api.upload other base files page = Api.upload server base files page
    unfold Api.upload
    split
    · rfl
    · rw [uploadOne, uploadOne, sendFiles_congr hsame (by decide)]
    · simp only [uploadMany, sendFiles_congr hsame (show "/files/batch" ∈ endpointPaths by decide)]
  | requestDownload id =>
    show Api.requestDownload other base id page = Api.requestDownload server base id page
    rw [Api.requestDownload, downloadAddress_congr hsame, Api.requestDownload]
  | deleteFiles ids =>
    show Api.deleteFiles other base ids page = Api.deleteFiles server base ids page
    rw [Api.deleteFiles, sendDeletion_congr hsame, Api.deleteFiles]
  | leaveRoom => exact exit_congr hsame (by decide) _ _ page
  | deleteRoom => exact exit_congr hsame (by decide) _ _ page
  | createRoom request =>
    show report (enter other base _ _ _ _) page = report (enter server base _ _ _ _) page
    rw [enter_congr hsame (by decide)]
  | joinRoom request =>
    show report (enter other base _ _ _ _) page = report (enter server base _ _ _ _) page
    rw [enter_congr hsame (by decide)]

end

/-! ### Their addresses -/

/-- All of them are written as an address has them. -/
theorem isServerPath_of_mem {path : String} (h : path ∈ endpointPaths) : Url.IsServerPath path := by
  simp only [endpointPaths, List.mem_cons, List.not_mem_nil, or_false] at h
  rcases h with rfl | rfl | rfl | rfl | rfl | rfl | rfl
  all_goals exact ⟨_, rfl, by decide, by decide⟩

/-- **Endpoints.** On the server of settings that pass their check, the path of an endpoint is resolved
to an address on that server, with exactly that path and without query and fragment.  The address
that requests are sent to is that one with query and fragment of the address of the server, so the
two are the same exactly if that address has neither.  What is not asked for at the endpoints, or at
the addresses of files below them, makes no difference to any action. -/
theorem endpoint_eq_join_iff [File.MediaTypes] [Url.DomainNames] {settings : Settings}
    (hcheck : settings.check = .ok ()) :
    ∃ base, settings.base = .ok base ∧
      (∀ path ∈ endpointPaths, ∃ joined, base.join path = .ok joined ∧
        joined.origin = base.origin ∧ joined.pathText = path ∧
        joined.query = none ∧ joined.fragment = none ∧
        endpoint base path = { joined with query := base.query, fragment := base.fragment } ∧
        (endpoint base path = joined ↔ base.query = none ∧ base.fragment = none)) ∧
      ∀ server other : Server, (∀ call, AtEndpoint base call → other call = server call) →
        (∀ (errand : Errand) page,
          errand.perform other base page = errand.perform server base page) ∧
        metrics other base = metrics server base := by
  obtain ⟨base, hbase, hweb⟩ := base_isWeb hcheck
  refine ⟨base, hbase, fun path hpath => ?_, fun server other hsame =>
    ⟨Errand.perform_congr hsame, metrics_congr hsame⟩⟩
  have hserver := isServerPath_of_mem hpath
  exact ⟨base.onServer path, hserver.join hweb, rfl, hserver.pathText_onServer base, rfl, rfl,
    hserver.setPath hweb, hserver.setPath_eq_onServer_iff hweb⟩

/-- The query of the address of the server is asked for with every path, unless the path is
resolved. -/
theorem endpoint_eq_join_iff_of_query :
    let settings := Settings.ofBaseUrl "http://localhost:8080/app?room=1#top"
    settings.check = .ok () ∧ "/metrics" ∈ endpointPaths ∧
      ∃ base joined, settings.base = .ok base ∧ base.join "/metrics" = .ok joined ∧
        endpoint base "/metrics" ≠ joined ∧
        (endpoint base "/metrics").render = "http://localhost:8080/metrics?room=1#top" ∧
        joined.render = "http://localhost:8080/metrics" := by
  intro settings
  have hcheck : settings.check = .ok () := by decide +kernel
  have hpath : "/metrics" ∈ endpointPaths := by decide
  obtain ⟨base, hbase, hendpoints, _⟩ := endpoint_eq_join_iff hcheck
  obtain ⟨joined, hjoined, _, _, _, _, _, hsame⟩ := hendpoints "/metrics" hpath
  let url : Url :=
    ⟨"http", "", "", some (.domain "localhost"), some 8080, .segments ["app"], some "room=1",
      some "top"⟩
  have hurl : settings.base = .ok url := by decide +kernel
  obtain rfl : base = url := Except.ok.inj (hbase.symm.trans hurl)
  have hmetrics : url.join "/metrics" = .ok ⟨"http", "", "", some (.domain "localhost"), some 8080,
      .segments ["metrics"], none, none⟩ := by decide +kernel
  refine ⟨hcheck, hpath, url, joined, hurl, hjoined, fun heq => ?_, by decide +kernel, ?_⟩
  · cases (hsame.mp heq).1
  · rw [hmetrics] at hjoined
    cases hjoined
    decide +kernel

end DropRoom.Api
