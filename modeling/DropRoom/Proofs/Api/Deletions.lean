import DropRoom.Proofs.Api.Requests
import DropRoom.Proofs.Json.Decoding
import DropRoom.Proofs.Json.Octets

namespace DropRoom.Api

/-!
# Deletions

The server may answer a deletion without content, which says that all files were deleted, or list
them in a document.  Both answers come to the same.

* `deletion` — the request that deletes files;
* `Deletable` — lists of identifiers for which it is sent;
* `DeletionOutcome.reads` — outcomes as values, their two lists in either order;
* `sendDeletion_of_answered` — what is made of an answer;
* `deletes_alike_without_content` — the two answers come to the same.
-/

open Json (Reads)

/-- The request that deletes files. -/
def deletion (base : Url) (ids : List String) : Call :=
  ⟨"DELETE", endpoint base "/files", .document (.strings ids)⟩

/-- There is something to delete, and every identifier has a character that is not blank. -/
def Deletable (ids : List String) : Prop :=
  ids ≠ [] ∧ ∀ id ∈ ids, Text.isBlank id = false

/-- Identifiers can be deleted exactly if the action does not refuse them. -/
theorem deletable_iff {ids : List String} :
    Deletable ids ↔ (ids.isEmpty || ids.any Text.isBlank) = false := by
  simp [Deletable]

instance (ids : List String) : Decidable (Deletable ids) :=
  decidable_of_iff _ deletable_iff.symm

/-! ### Outcomes -/

theorem reads_strings (texts : List String) : Reads (.list .string) (.strings texts) texts :=
  Reads.list Json.reads_string texts

/-- An outcome is read from an object with its two lists, in either order. -/
theorem DeletionOutcome.reads (outcome : DeletionOutcome) {members : List (String × Json)}
    (h : members.Perm outcome.toJson.entries) :
    Reads DeletionOutcome.decoder (.object members) outcome :=
  Json.Record.fits_start DeletionOutcome.mk
    |>.defaulted (reads_strings outcome.successful)
    |>.defaulted (reads_strings outcome.failed)
    |>.reads_of_perm (by simp) h

/-! ### Answers -/

variable {server : Server} {base : Url} {ids : List String}

/-- An answer that is a success is taken for the outcome in its body, unless its status says that it
has none. -/
theorem sendDeletion_of_answered (hids : Deletable ids) {reply : Reply}
    (h : server (deletion base ids) = .answered reply)
    (hsuccess : Http.isSuccess reply.status = true) :
    sendDeletion server base ids = if reply.status = 204 then .ok (.all ids)
      else reply.read DeletionOutcome.decoder "Failed to delete file" := by
  have hsend (default : String) : (deletion base ids).send server default = .ok reply := by
    rw [Call.send, h]
  have hensure (default : String) : ensureSuccess reply default = .ok reply := if_pos hsuccess
  rw [deletion] at hsend
  rw [sendDeletion, deletable_iff.mp hids]
  simp only [hsend]
  show (ensureSuccess reply _ >>= _) = _
  rw [hensure]
  rfl

/-- A body that is decoded as an outcome is that outcome. -/
theorem read_of_decodeText {status : Nat} {text : String} {outcome : DeletionOutcome}
    (h : Json.decodeText DeletionOutcome.decoder text = .ok outcome) (default : String) :
    Reply.read ⟨status, some (Utf8.encode text)⟩ DeletionOutcome.decoder default = .ok outcome := by
  have hdocument : Reply.document? ⟨status, some (Utf8.encode text)⟩ DeletionOutcome.decoder =
      some outcome := by
    show Json.decodeOctets? DeletionOutcome.decoder (Utf8.encode text) = some outcome
    rw [Json.decodeOctets?_encode, h]
    rfl
  rw [Reply.read, hdocument]

/-- Where all are deleted, the page says how many they were. -/
theorem deleteFiles_of_all (h : sendDeletion server base ids = .ok (.all ids)) (page : Page) :
    deleteFiles server base ids page = (.ok (.all ids), notifyDeleted ids.length page) := by
  rw [deleteFiles, h]
  rfl

/-- **Deletions.** Where identifiers can be deleted, one request is sent.  An answer without content,
whatever its body, and one whose body is any text of the document that lists all identifiers as
deleted and none as not deleted, in either order, have the same result, and the same toasts are shown
on every page.  Otherwise no server is asked for anything. -/
theorem deletes_alike_without_content (base : Url) (ids : List String) :
    (Deletable ids → Asks (some (deletion base ids)) (fun server => sendDeletion server base ids) ∧
      ∀ (bare told : Server) (body : Option Bytes) (text : String) (members : List (String × Json)),
        bare (deletion base ids) = .answered ⟨204, body⟩ →
        told (deletion base ids) = .answered ⟨200, some (Utf8.encode text)⟩ →
        Json.parse text = .ok (.object members) →
        members.Perm [("successfulDeletes", .strings ids), ("failedDeletes", .strings [])] →
        ∀ page, deleteFiles bare base ids page = deleteFiles told base ids page ∧
          deleteFiles bare base ids page = (.ok (.all ids), notifyDeleted ids.length page)) ∧
    (¬ Deletable ids → Asks none (fun server => sendDeletion server base ids) ∧
      ∀ server page, deleteFiles server base ids page =
        (.error invalidFileId, page.notify "Invalid file ID" .error)) := by
  have hasks := asks_sendDeletion base ids
  refine ⟨fun hids => ?_, fun hids => ?_⟩
  · rw [deletable_iff.mp hids] at hasks
    refine ⟨hasks, fun bare told body text members hbare htold hparse hmembers page => ?_⟩
    -- both answers are taken for the outcome that names every identifier as deleted
    have htext : Json.decodeText DeletionOutcome.decoder text = .ok (.all ids) :=
      Json.decodeText_of_parse hparse ((DeletionOutcome.all ids).reads hmembers)
    have hsendBare : sendDeletion bare base ids = .ok (.all ids) :=
      sendDeletion_of_answered hids hbare rfl
    have hsendTold : sendDeletion told base ids = .ok (.all ids) := by
      rw [sendDeletion_of_answered hids htold rfl]
      exact read_of_decodeText htext _
    rw [deleteFiles_of_all hsendBare, deleteFiles_of_all hsendTold]
    exact ⟨rfl, rfl⟩
  · rw [deletable_iff, Bool.not_eq_false] at hids
    rw [if_pos hids] at hasks
    refine ⟨hasks, fun server page => ?_⟩
    rw [deleteFiles, sendDeletion, hids]
    rfl

/-- A file whose identifier has quotes is deleted twice, together with another. -/
theorem deletes_alike_without_content_of_repeated :
    let ids := ["a\"b", "ü", "a\"b"]
    let base : Url := ⟨"http", "", "", some (.domain "localhost"), none, .segments [""], none, none⟩
    let document : Json := .object [("failedDeletes", .strings []), ("successfulDeletes", .strings ids)]
    Deletable ids ∧ ¬ Deletable [] ∧ ¬ Deletable ["a", " \t"] ∧
      Json.parse document.render = .ok document ∧
      ∀ page, deleteFiles (fun _ => .answered ⟨204, none⟩) base ids page =
        deleteFiles (fun _ => .answered ⟨200, some (Utf8.encode document.render)⟩) base ids page := by
  intro ids base document
  have hids : Deletable ids := by decide
  have hparse : Json.parse document.render = .ok document := Json.parse_render (by decide) rfl
  refine ⟨hids, by decide, by decide, hparse, fun page => ?_⟩
  exact (((deletes_alike_without_content base ids).1 hids).2 _ _ none document.render _ rfl rfl hparse
    (List.Perm.swap _ _ _) page).1

end DropRoom.Api
