import DropRoom.Api.Client

namespace DropRoom.Api

/-!
# The request of an action

An action sends one request at most, and all that it learns from the server is the answer to that
request.  Whatever is made of the answer, its status decides whether the room is gone.

* `Answered` — a request was sent, and its answer has a status of some kind;
* `isGone` — a result tells that the room is gone;
* `Asks` — an action asks the server for one thing at most, and tells that the room is gone
  exactly if the status of the answer is 410;
* `Asks.bind` — what is made of the result of an exchange;
* `asks_send`, `asks_sendFiles`, `asks_downloadAddress`, `asks_sendDeletion`, `asks_sendExit` — the
  exchanges;
* `sendExit_eq_ok` — a room is left if the server answers with a success.
-/

variable {α β : Type}

/-! ### Asking for one thing -/

/-- A request was sent, and it was answered with a status of some kind. -/
def Answered (server : Server) (sent : Option Call) (accepts : Nat → Prop) : Prop :=
  ∃ call ∈ sent, ∃ reply, server call = .answered reply ∧ accepts reply.status

/-- Whether a result tells that the room is gone. -/
def isGone : Except RequestError α → Bool
  | .ok _ => false
  | .error e => e.isRoomExpired

/-- What an action learns from the server is the answer to the request that it sends, if it sends
one, and it tells that the room is gone exactly if the status of the answer is 410. -/
structure Asks (sent : Option Call) (act : Server → Except RequestError α) : Prop where
  same : ∀ server other : Server, (∀ call ∈ sent, other call = server call) →
    act other = act server
  gone : ∀ server, isGone (act server) ↔ Answered server sent (· = 410)

/-- What follows an exchange tells of no room that is gone, unless the exchange does. -/
theorem isGone_bind {result : Except RequestError α} {next : α → Except RequestError β}
    (h : ∀ a, isGone (next a) = false) : isGone (result >>= next) = isGone result := by
  cases result with
  | ok a => exact h a
  | error e => rfl

/-- Whatever is made of a result cannot tell that the room is gone. -/
theorem Asks.bind {sent : Option Call} {act : Server → Except RequestError α} (h : Asks sent act)
    {next : α → Except RequestError β} (hnext : ∀ a, isGone (next a) = false) :
    Asks sent fun server => act server >>= next where
  same server other hsame := by rw [h.same server other hsame]
  gone server := by rw [isGone_bind hnext]; exact h.gone server

/-- Without a request the result is the same whatever the server does. -/
theorem asks_nothing {result : Except RequestError α} (h : isGone result = false) :
    Asks none fun _ => result where
  same _ _ _ := rfl
  gone _ := by simp [h, Answered]

/-- A request is sent, and the status of its answer decides. -/
theorem asks_send (call : Call) (default : String) {next : Reply → Except RequestError α}
    (hnext : ∀ reply, isGone (next reply) = true ↔ reply.status = 410) :
    Asks (some call) fun server => call.send server default >>= next where
  same server other hsame := by rw [Call.send, Call.send, hsame call rfl]
  gone server := by
    cases hanswer : server call with
    | unanswered cause =>
      have hsend : call.send server default = .error (.transport default cause) := by
        rw [Call.send, hanswer]
      simp [hsend, Answered, hanswer, bind, Except.bind, isGone, RequestError.isRoomExpired]
    | answered reply =>
      have hsend : call.send server default = .ok reply := by rw [Call.send, hanswer]
      rw [hsend]
      refine (hnext reply).trans ⟨fun hstatus => ⟨call, rfl, reply, hanswer, hstatus⟩, ?_⟩
      rintro ⟨_, ⟨⟩, other, hother, hstatus⟩
      rw [hanswer] at hother
      cases hother
      exact hstatus

/-! ### Answers -/

/-- A failure says that the room is gone exactly if the status of the answer does. -/
theorem isRoomExpired_failure (reply : Reply) (default : String) :
    (reply.failure default).isRoomExpired = true ↔ reply.status = 410 := by
  rw [Reply.failure]
  split
  · simp [RequestError.isRoomExpired, *]
  · simp [RequestError.isRoomExpired, *]

/-- An answer tells that the room is gone if its status is 410, whatever its body. -/
theorem isGone_ensureSuccess (default : String) (reply : Reply) :
    isGone (ensureSuccess reply default) = true ↔ reply.status = 410 := by
  rw [ensureSuccess]
  split
  · rename_i hsuccess
    have hstatus : reply.status ≠ 410 := by
      intro hgone
      rw [hgone] at hsuccess
      cases hsuccess
    simp [isGone, hstatus]
  · exact isRoomExpired_failure reply default

/-- What cannot be read from an answer does not tell that the room is gone. -/
theorem isGone_read (reply : Reply) (decoder : Json.Decoder α) (default : String) :
    isGone (reply.read decoder default) = false := by
  rw [Reply.read]
  split <;> rfl

/-- A download without an address does not tell so either. -/
theorem isGone_address (link : DownloadLink) : isGone link.address = false := by
  rw [DownloadLink.address]
  split
  · split <;> rfl
  · rfl

/-! ### The exchanges -/

/-- The request that stores files, where each of them can be sent. -/
def storing? [File.MediaTypes] (url : Url) (files : List File.Upload) : Option Call :=
  match files.mapM partOf with
  | .ok parts => some ⟨"POST", url, .form parts⟩
  | .error _ => none

/-- Neither do files that cannot be sent. -/
theorem isGone_mapM_partOf [File.MediaTypes] (files : List File.Upload) :
    isGone (files.mapM partOf) = false := by
  induction files with
  | nil => rfl
  | cons file files ih =>
    rw [List.mapM_cons, partOf]
    cases File.normalMediaType? file.mediaType with
    | none => rfl
    | some contentType =>
      have hrest : isGone (files.mapM partOf >>= fun parts =>
          pure ((⟨"file", file.name, contentType, file.content⟩ : Part) :: parts)) = false := by
        rw [isGone_bind fun _ => rfl]
        exact ih
      exact hrest

/-- Files are sent in one request, if there is something to send. -/
theorem asks_sendFiles [File.MediaTypes] (url : Url) (files : List File.Upload) (default : String) :
    Asks (storing? url files) fun server => sendFiles server url files default := by
  have hparts := isGone_mapM_partOf files
  unfold storing? sendFiles
  cases hmake : files.mapM partOf with
  | error e =>
    rw [hmake] at hparts
    exact asks_nothing hparts
  | ok parts => exact asks_send _ default (isGone_ensureSuccess default)

/-- The address of a file is asked for once, if its identifier can be part of one. -/
theorem asks_downloadAddress (base : Url) (id : String) :
    Asks ((fileUrl base id).toOption.map (⟨"GET", ·, .nothing⟩)) fun server =>
      downloadAddress server base id := by
  unfold downloadAddress fileUrl
  split
  · exact asks_nothing rfl
  · refine asks_send _ _ fun reply => ?_
    have hlink (reply : Reply) : isGone
        (reply.read DownloadLink.decoder "Failed to download file" >>=
          fun link => link.address) = false := by
      rw [isGone_bind isGone_address]
      exact isGone_read _ _ _
    -- a redirect is read like a success
    by_cases hfound : reply.status = 302
    · rw [if_pos hfound, hfound]
      exact iff_of_false (Bool.eq_false_iff.mp (hlink reply)) (by decide)
    · rw [if_neg hfound, isGone_bind hlink]
      exact isGone_ensureSuccess _ reply

/-- Identifiers are deleted by one request, if all of them can be. -/
theorem asks_sendDeletion (base : Url) (ids : List String) :
    Asks (if ids.isEmpty || ids.any Text.isBlank then none
        else some ⟨"DELETE", endpoint base "/files", .document (.strings ids)⟩) fun server =>
      sendDeletion server base ids := by
  unfold sendDeletion
  split
  · exact asks_nothing rfl
  · have hread (reply : Reply) : isGone
        (if reply.status = 204 then pure (.all ids)
          else reply.read DeletionOutcome.decoder "Failed to delete file") = false := by
      split
      · rfl
      · exact isGone_read _ _ _
    have hsend := (asks_send ⟨"DELETE", endpoint base "/files", .document (.strings ids)⟩
      "Failed to delete file" (isGone_ensureSuccess "Failed to delete file")).bind hread
    simp only [bind_assoc] at hsend
    exact hsend

/-- Ask the server to leave or to delete a room. -/
def sendExit (server : Server) (url : Url) (default : String) : Except RequestError Unit := do
  let reply ← Call.send ⟨"DELETE", url, .nothing⟩ server default
  let _ ← ensureSuccess reply default
  return ()

theorem exit_eq (server : Server) (base : Url) (path default success : String) (page : Page) :
    exit server base path default success page =
      reportThen (sendExit server (endpoint base path) default) page
        fun _ page => ((), page.notify success .success) := rfl

/-- A user leaves by one request. -/
theorem asks_sendExit (url : Url) (default : String) :
    Asks (some ⟨"DELETE", url, .nothing⟩) fun server => sendExit server url default := by
  refine asks_send _ default fun reply => ?_
  rw [isGone_bind fun _ => rfl]
  exact isGone_ensureSuccess default reply

/-- A room is left if the server answers with a success. -/
theorem sendExit_eq_ok {server : Server} {url : Url} {default : String} :
    sendExit server url default = .ok () ↔
      Answered server (some ⟨"DELETE", url, .nothing⟩) (Http.isSuccess · = true) := by
  unfold sendExit Answered
  rw [Call.send]
  cases hanswer : server ⟨"DELETE", url, .nothing⟩ with
  | unanswered cause => simp [hanswer, bind, Except.bind]
  | answered reply =>
    by_cases hsuccess : Http.isSuccess reply.status
    · simp [hanswer, hsuccess, ensureSuccess, bind, Except.bind, pure, Except.pure]
    · simp [hanswer, hsuccess, ensureSuccess, bind, Except.bind]

end DropRoom.Api
