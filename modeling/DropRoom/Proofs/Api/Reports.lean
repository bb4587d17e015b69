import DropRoom.Api.Client
import DropRoom.Proofs.Page.Matching

namespace DropRoom

/-!
# What actions report

However an action ends, the user is told once, and what was shown meanwhile is gone.

* `Page.Adds` — what is announced on a page: toasts that are shown for a time, and downloads;
* `Api.Reports` — a failure is shown once, and a success shows no failure but that of single items;
* `Api.reports_report`, `Api.reports_reportThen`, `Api.Reports.after` — the parts that actions are
  made of;
* `Api.Errand` — the actions, and `Api.Errand.reports_once`, that each reports in this way.
-/

/-- The address of the download that an event opens. -/
def Event.download? : Event → Option String
  | .navigation (.download url) => some url
  | _ => none

namespace Page

/-- What the toasts say that events show for a time, each with its severity. -/
def told (events : List Event) : List (Toast.Severity × String) :=
  ((events.filterMap Event.shown?).filter (·.lifetime.isTimed)).map fun toast =>
    (toast.severity, toast.message)

/-- The toasts that are shown until they are removed. -/
def persistent (page : Page) : List Toast :=
  page.toasts.filter fun toast => toast.lifetime = .untilRemoved

/-- One page becomes another where toasts and downloads are announced.  No other toast is an error, and
none of those that are shown until they are removed comes or goes. -/
structure Adds (page page' : Page) (events : List Event) : Prop where
  published : page'.published = page.published ++ events
  errors : ∀ toast ∈ events.filterMap Event.shown?,
    toast.severity = .error → toast.lifetime.isTimed = true
  persistent : page'.persistent = page.persistent

variable {page page' page'' : Page} {events more : List Event}

theorem Adds.refl (page : Page) : Adds page page [] :=
  ⟨(List.append_nil _).symm, by simp, rfl⟩

/-- What is announced in two steps is announced in their order. -/
theorem Adds.trans (h : Adds page page' events) (h' : Adds page' page'' more) :
    Adds page page'' (events ++ more) := by
  refine ⟨?_, fun toast htoast => ?_, h'.persistent.trans h.persistent⟩
  · rw [h'.published, h.published, List.append_assoc]
  · rw [List.filterMap_append, List.mem_append] at htoast
    exact htoast.elim (h.errors toast) (h'.errors toast)

theorem told_append (events more : List Event) : told (events ++ more) = told events ++ told more := by
  rw [told, List.filterMap_append, List.filter_append, List.map_append, told, told]

/-- A toast that is shown is announced. -/
theorem adds_notify (page : Page) (message : String) (severity : Toast.Severity) :
    Adds page (page.notify message severity)
      [.toast (.shown (page.nextToast message severity))] := by
  refine ⟨published_notify page message severity, fun toast htoast _ => ?_, ?_⟩
  · rw [List.mem_singleton.mp htoast]
    rfl
  · rw [persistent, notify, push, toasts_display, List.filter_append]
    exact List.append_nil _

/-- A download that is opened is announced. -/
theorem adds_openDownload (page : Page) (url : String) :
    Adds page (page.openDownload url) [.navigation (.download url)] :=
  ⟨published_publish _ _, by simp [Event.shown?], rfl⟩

end Page

namespace Api

open Page (Adds told)

variable {α β : Type} {page page' : Page}

/-! ### What actions are made of -/

/-- The texts of the failures among what was told. -/
def failures (told : List (Toast.Severity × String)) : List String :=
  (told.filter fun said => said.1 = .error).map Prod.snd

/-- The result of an action is reported: a failure by one toast, which is an error with its text, and
without a download; and a success without an error but those of single items. -/
structure Reports (page : Page) (result : Result α) (failed : α → List String) : Prop where
  error : ∀ e, result.1 = .error e → ∃ events, Adds page result.2 events ∧
    told events = [(.error, e.userMessage)] ∧ events.filterMap Event.download? = []
  ok : ∀ a, result.1 = .ok a → ∃ events, Adds page result.2 events ∧
    failures (told events) = failed a

/-- A success that is shown, or not, as an action has it. -/
def Tells (page page' : Page) (failed : List String) : Prop :=
  ∃ events, Adds page page' events ∧ failures (told events) = failed

theorem Tells.refl (page : Page) : Tells page page [] :=
  ⟨[], .refl page, rfl⟩

/-- Errors that are told in two steps are told in their order. -/
theorem Tells.trans {page'' : Page} {failed more : List String} (h : Tells page page' failed)
    (h' : Tells page' page'' more) : Tells page page'' (failed ++ more) := by
  obtain ⟨events, hadds, hfailed⟩ := h
  obtain ⟨events', hadds', hfailed'⟩ := h'
  refine ⟨events ++ events', hadds.trans hadds', ?_⟩
  rw [Page.told_append, failures, List.filter_append, List.map_append, ← failures, ← failures,
    hfailed, hfailed']

/-- A toast tells of an error exactly if it is one. -/
theorem tells_notify (page : Page) (message : String) (severity : Toast.Severity) :
    Tells page (page.notify message severity) (if severity = .error then [message] else []) := by
  refine ⟨_, Page.adds_notify page message severity, ?_⟩
  cases severity <;> rfl

/-- What is shown only if something holds. -/
theorem Tells.unless {failed : List String} (h : Tells page page' failed) (holds : Prop)
    [Decidable holds] :
    Tells page (if holds then page else page') (if holds then [] else failed) := by
  split
  · exact .refl page
  · exact h

/-- A failure is reported by one toast with its text. -/
theorem reports_error (page : Page) (e : RequestError) (failed : α → List String) :
    Reports page (.error e, page.notify e.userMessage .error) failed where
  error := by
    rintro _ ⟨⟩
    exact ⟨_, Page.adds_notify page _ _, rfl, rfl⟩
  ok := by
    rintro a ⟨⟩

/-- A success is reported by what the page is told of the items that failed. -/
theorem reports_ok {a : α} {failed : α → List String} (h : Tells page page' (failed a)) :
    Reports page (.ok a, page') failed where
  error := by
    rintro e ⟨⟩
  ok := by
    rintro _ ⟨⟩
    exact h

/-- A failure is shown, and a success is not. -/
theorem reports_report (result : Except RequestError α) (page : Page) :
    Reports page (report result page) fun _ => [] := by
  cases result with
  | error e => exact reports_error page e _
  | ok a => exact reports_ok (.refl page)

/-- A failure is shown, and a success as it is said. -/
theorem reports_reportThen (result : Except RequestError α) (page : Page)
    (next : α → Page → β × Page) (failed : β → List String)
    (hnext : ∀ a, Tells page (next a page).2 (failed (next a page).1)) :
    Reports page (reportThen result page next) failed := by
  cases result with
  | error e => exact reports_error page e _
  | ok a => exact reports_ok (hnext a)

/-- A toast that was shown while something was done is gone after it. -/
theorem adds_whileShowing (message : String) (result : α)
    (hnew : Uuid.ofNat page.toastCount ∉ page.toasts.map (·.id)) :
    ∃ events, Adds page (whileShowing message result page).2 events ∧ told events = [] ∧
      events.filterMap Event.download? = [] := by
  let toast : Toast := ⟨Uuid.ofNat page.toastCount, message, .info, .sinceEpoch page.timers.now,
    .untilRemoved⟩
  have hshown : (page.pushPersistent message .info).2.toasts = page.toasts ++ [toast] :=
    Page.toasts_display page message .info .untilRemoved
  -- the toast is there when it is removed, whatever was done meanwhile
  have hthere : ((page.pushPersistent message .info).2.remove toast.id).1 = true := by
    show (Page.dismiss _ toast.id).1 = true
    rw [Page.dismiss, if_pos]
    show (page.pushPersistent message .info).2.toasts.any (fun other => other.id = toast.id) = true
    simp [hshown]
  have hpublished : (whileShowing message result page).2.published =
      page.published ++ [.toast (.shown toast), .toast (.dismissed toast.id)] := by
    have hfirst : (page.pushPersistent message .info).2.published =
        page.published ++ [.toast (.shown toast)] :=
      Page.published_display page message .info .untilRemoved
    show ((page.pushPersistent message .info).2.remove toast.id).2.published = _
    rw [Page.published_remove, hthere, hfirst, List.append_assoc]
    rfl
  have htoasts : (whileShowing message result page).2.toasts = page.toasts := by
    show (Page.dismiss _ toast.id).2.toasts = page.toasts
    rw [Page.toasts_dismiss]
    show (page.pushPersistent message .info).2.toasts.filter (·.id ≠ toast.id) = page.toasts
    -- its identifier was new, so no other toast goes with it
    have hothers : page.toasts.filter (·.id ≠ toast.id) = page.toasts := by
      refine List.filter_eq_self.mpr fun other hother => ?_
      rw [decide_eq_true_eq]
      exact fun hsame => hnew (List.mem_map.mpr ⟨other, hother, hsame⟩)
    rw [hshown, List.filter_append, hothers]
    simp
  refine ⟨_, ⟨hpublished, ?_, ?_⟩, rfl, rfl⟩
  · intro other hother herror
    rw [List.mem_singleton.mp hother] at herror
    cases herror
  · rw [Page.persistent, htoasts, Page.persistent]

/-- What is done while a toast is shown is reported alike. -/
theorem Reports.after {result : Result α} {failed : α → List String} {events : List Event}
    (h : Reports page' result failed) (hadds : Adds page page' events) (htold : told events = [])
    (hdownloads : events.filterMap Event.download? = []) : Reports page result failed := by
  refine ⟨fun e he => ?_, fun a ha => ?_⟩
  · obtain ⟨more, hmore, hspoken, hnone⟩ := h.error e he
    refine ⟨events ++ more, hadds.trans hmore, ?_, ?_⟩
    · rw [Page.told_append, htold, hspoken]
      rfl
    · rw [List.filterMap_append, hdownloads, hnone]
      rfl
  · obtain ⟨more, hmore, hfailed⟩ := h.ok a ha
    refine ⟨events ++ more, hadds.trans hmore, ?_⟩
    rw [Page.told_append, htold]
    exact hfailed

/-- An action that shows a toast meanwhile is reported like what is done. -/
theorem reports_whileShowing (message : String) (outcome : Except RequestError α)
    (hnew : Uuid.ofNat page.toastCount ∉ page.toasts.map (·.id)) (next : α → Page → β × Page)
    (failed : β → List String)
    (hnext : ∀ a page, Tells page (next a page).2 (failed (next a page).1)) :
    Reports page
      (match whileShowing message outcome page with
      | (result, page) => reportThen result page next) failed := by
  obtain ⟨events, hadds, htold, hdownloads⟩ := adds_whileShowing message outcome hnew
  exact (reports_reportThen outcome _ next failed fun a => hnext a _).after hadds htold hdownloads

/-! ### Errands -/

/-- An action that asks the server for something. -/
inductive Errand where
  | upload (files : List File.Upload)
  | requestDownload (id : String)
  | deleteFiles (ids : List String)
  | leaveRoom
  | deleteRoom
  | createRoom (request : NewRoom)
  | joinRoom (request : JoinRoom)

namespace Errand

/-- What an action returns where it succeeds. -/
def Answer : Errand → Type
  | .upload _ => UploadCounts
  | .requestDownload _ => String
  | .deleteFiles _ => DeletionOutcome
  | .leaveRoom => Unit
  | .deleteRoom => Unit
  | .createRoom _ => Membership
  | .joinRoom _ => Membership

/-- The result of an action, and the page after it. -/
def perform [File.MediaTypes] (server : Server) (base : Url) (page : Page) :
    (errand : Errand) → Result errand.Answer
  | .upload files => Api.upload server base files page
  | .requestDownload id => Api.requestDownload server base id page
  | .deleteFiles ids => Api.deleteFiles server base ids page
  | .leaveRoom => Api.leaveRoom server base page
  | .deleteRoom => Api.deleteRoom server base page
  | .createRoom request => Api.createRoom server base request page
  | .joinRoom request => Api.joinRoom server base request page

/-- The number of items that failed although the action succeeded. -/
def failedCount : (errand : Errand) → errand.Answer → Nat
  | .upload _, counts => counts.failed
  | .deleteFiles _, outcome => outcome.failed.length
  | _, _ => 0

/-- The text that counts the items that failed. -/
def failedText : Errand → Nat → String
  | .deleteFiles _, 1 => "Failed to delete file"
  | .deleteFiles _, count => "Failed to delete " ++ toString count ++ " files"
  | _, count => filesPhrase count ++ " failed to upload"

/-- The texts of the errors that a success shows. -/
def failed (errand : Errand) (answer : errand.Answer) : List String :=
  if errand.failedCount answer = 0 then [] else [errand.failedText (errand.failedCount answer)]

/-! ### Each action reports -/

variable (server : Server) (base : Url)

/-- The upload of one file is reported, whatever the server makes of it. -/
theorem reports_uploadOne [File.MediaTypes]
    (hnew : Uuid.ofNat page.toastCount ∉ page.toasts.map (·.id))
    (file : File.Upload) (files : List File.Upload) :
    Reports page (uploadOne server base file page) (failed (.upload files)) := by
  unfold uploadOne
  refine reports_whileShowing _ _ hnew _ (failed (.upload files)) fun _ page => ?_
  exact tells_notify page (file.name ++ " uploaded successfully") .success

/-- So is that of many files, with those that the server did not take. -/
theorem reports_uploadMany [File.MediaTypes]
    (hnew : Uuid.ofNat page.toastCount ∉ page.toasts.map (·.id)) (files : List File.Upload) :
    Reports page (uploadMany server base files page) (failed (.upload files)) := by
  unfold uploadMany
  refine reports_whileShowing _ _ hnew _ (failed (.upload files)) fun outcome page => ?_
  -- a toast for the files that were stored, and another for those that were not
  have hsuccess : Tells page (page.notify (filesPhrase outcome.successfulCount ++
      " uploaded successfully") .success) [] := tells_notify page _ .success
  have hstored := hsuccess.unless (outcome.successfulCount = 0)
  rw [ite_self] at hstored
  exact hstored.trans ((tells_notify _ (filesPhrase outcome.failedCount ++ " failed to upload")
    .error).unless (outcome.failedCount = 0))

/-- So is an upload of any number of files. -/
theorem reports_upload [File.MediaTypes]
    (hnew : Uuid.ofNat page.toastCount ∉ page.toasts.map (·.id)) (files : List File.Upload) :
    Reports page (Api.upload server base files page) (failed (.upload files)) := by
  unfold Api.upload
  split
  · exact reports_ok (Tells.refl page)
  · exact reports_uploadOne server base hnew _ _
  · exact reports_uploadMany server base hnew _

/-- That files are deleted is no error. -/
theorem tells_notifyDeleted (count : Nat) (page : Page) :
    Tells page (notifyDeleted count page) [] := by
  unfold notifyDeleted
  split
  · exact .refl page
  · exact tells_notify page _ .success
  · exact tells_notify page _ .success

/-- That some are not deleted is one error, which counts them. -/
theorem tells_notifyNotDeleted (ids : List String) (count : Nat) (page : Page) :
    Tells page (notifyNotDeleted count page)
      (if count = 0 then [] else [failedText (.deleteFiles ids) count]) := by
  match count with
  | 0 => exact .refl page
  | 1 => exact tells_notify page _ .error
  | count + 2 => exact tells_notify page _ .error

/-- A deletion is reported, with the files that were not deleted. -/
theorem reports_deleteFiles (ids : List String) :
    Reports page (Api.deleteFiles server base ids page) (failed (.deleteFiles ids)) :=
  reports_reportThen _ page _ (failed (.deleteFiles ids)) fun outcome =>
    (tells_notifyDeleted outcome.successful.length page).trans
      (tells_notifyNotDeleted ids outcome.failed.length _)

/-- A download is reported, whether it has an address or not. -/
theorem reports_requestDownload (id : String) :
    Reports page (Api.requestDownload server base id page) (failed (.requestDownload id)) := by
  refine reports_reportThen _ page _ (failed (.requestDownload id)) fun address => ?_
  have hopened := Page.adds_openDownload (page.notify "Your download should start shortly" .info)
    address
  exact (tells_notify page "Your download should start shortly" .info).trans ⟨_, hopened, rfl⟩

/-- That the user leaves is reported. -/
theorem reports_exit (path default success : String) :
    Reports page (exit server base path default success page) fun _ => [] := by
  unfold exit
  exact reports_reportThen _ page _ (fun _ => []) fun _ => tells_notify page success .success

/-- Each action is reported, whatever the server does. -/
theorem reports_perform [File.MediaTypes]
    (hnew : Uuid.ofNat page.toastCount ∉ page.toasts.map (·.id))
    (errand : Errand) : Reports page (errand.perform server base page) errand.failed := by
  cases errand with
  | upload files => exact reports_upload server base hnew files
  | requestDownload id => exact reports_requestDownload server base id
  | deleteFiles ids => exact reports_deleteFiles server base ids
  | leaveRoom => exact reports_exit server base _ _ _
  | deleteRoom => exact reports_exit server base _ _ _
  | createRoom request => exact reports_report _ page
  | joinRoom request => exact reports_report _ page

/-- The errors among what is announced are shown for a time. -/
theorem errors_eq {page' : Page} {events : List Event} (h : Adds page page' events) :
    ((events.filterMap Event.shown?).filter (·.severity = .error)).map (·.message) =
      failures (told events) := by
  have hshort : (events.filterMap Event.shown?).filter (·.severity = .error) =
      ((events.filterMap Event.shown?).filter (·.lifetime.isTimed)).filter
        (·.severity = .error) := by
    rw [List.filter_filter]
    refine List.filter_congr fun toast htoast => ?_
    by_cases herror : toast.severity = .error
    · simp [herror, h.errors toast htoast herror]
    · simp [herror]
  rw [hshort, failures, told, List.filter_map, List.map_map]
  rfl

/-- **Reported once.** Whatever the action and its input, and whatever the server does: a failure is
shown by one toast for a time, which is an error with the text of the failure, and no download is
opened; a success shows no error but one that counts the items that failed, if there are any; and the
toasts that are shown until they are removed are those that there were.  The identifier that is given
next is to be new. -/
theorem reports_once [File.MediaTypes] (server : Server) (base : Url) (page : Page)
    (errand : Errand) (hnew : Uuid.ofNat page.toastCount ∉ page.toasts.map (·.id)) :
    let result := (errand.perform server base page).1
    let after := (errand.perform server base page).2
    ∃ events, after.published = page.published ++ events ∧
      (∀ e, result = .error e →
        ((events.filterMap Event.shown?).filter (·.lifetime.isTimed)).map
          (fun toast => (toast.severity, toast.message)) = [(.error, e.userMessage)] ∧
        events.filterMap Event.download? = []) ∧
      (∀ answer, result = .ok answer →
        ((events.filterMap Event.shown?).filter (·.severity = .error)).map (·.message) =
          if errand.failedCount answer = 0 then []
          else [errand.failedText (errand.failedCount answer)]) ∧
      after.toasts.filter (fun toast => toast.lifetime = .untilRemoved) =
        page.toasts.filter (fun toast => toast.lifetime = .untilRemoved) := by
  intro result after
  have hreports := reports_perform server base hnew errand
  cases hresult : result with
  | error e =>
    obtain ⟨events, hadds, htold, hdownloads⟩ := hreports.error e hresult
    refine ⟨events, hadds.published, ?_, ?_, hadds.persistent⟩
    · rintro _ ⟨⟩
      exact ⟨htold, hdownloads⟩
    · rintro answer ⟨⟩
  | ok answer =>
    obtain ⟨events, hadds, hfailed⟩ := hreports.ok answer hresult
    refine ⟨events, hadds.published, ?_, ?_, hadds.persistent⟩
    · rintro e ⟨⟩
    · rintro _ ⟨⟩
      exact (errors_eq hadds).trans hfailed

/-- Without an answer, an upload is reported by one error, and its progress is no longer shown. -/
theorem reports_once_of_lost_upload :
    let page := Page.initial ⟨"/create.html", 4000, 8000, 16⟩
    let base : Url := ⟨"http", "", "", none, none, .segments [""], none, none⟩
    let errand := Errand.upload [⟨"notes.txt", [], none⟩]
    let after := (errand.perform (fun _ => .unanswered "connection refused") base page).2
    Uuid.ofNat page.toastCount ∉ page.toasts.map (·.id) ∧
    (∃ events, after.published = page.published ++ events ∧
      ((events.filterMap Event.shown?).filter (·.lifetime.isTimed)).map
        (fun toast => (toast.severity, toast.message)) =
          [(.error, "Failed to upload notes.txt")]) ∧
    after.toasts.filter (fun toast => toast.lifetime = .untilRemoved) = [] := by
  intro page base errand after
  have hnew : Uuid.ofNat page.toastCount ∉ page.toasts.map (·.id) := by simp [page, Page.initial]
  obtain ⟨events, hpublished, herror, _, hpersistent⟩ :=
    reports_once (fun _ => .unanswered "connection refused") base page errand hnew
  have hresult : (errand.perform (fun _ => .unanswered "connection refused") base page).1 =
      .error (.transport "Failed to upload notes.txt" "connection refused") := by
    rfl
  exact ⟨hnew, ⟨events, hpublished, (herror _ hresult).1⟩, hpersistent⟩

end Errand

end Api

end DropRoom
