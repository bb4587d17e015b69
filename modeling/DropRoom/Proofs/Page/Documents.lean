import DropRoom.Event
import DropRoom.Proofs.Room.Documents
import DropRoom.Proofs.Uuid

namespace DropRoom

/-!
# Events as documents

An event is written with the tag of its family, and inside a family with the tag of its kind.  The
members of a kind stand beside both tags and bear none of their names, so that the event is found
again at every level.  Only a leap second within a minute, in which a toast may have been made, has
no text of its own.

* `finite_toJson`, `nesting_toJson` — all that is written can be held back until its tag is known,
  and is nested but a little;
* `Event.asTold` — the event that its text tells, and `Event.LeapsAtMinuteEnd`, the events that are
  told as they are;
* `Room.View.reads`, `Toast.reads` — views and toasts as values;
* `Event.reads_room`, `Event.reads_toast`, `Event.reads_navigation` — the families of events;
* `Event.event_read_back` — the text of an event is decoded as the event that it tells.
-/

open Json (Reads nesting finite)

/-! ### What is held back -/

/-- The document of a row has no number that cannot be written. -/
theorem Room.Row.finite_toJson (row : Room.Row) : finite row.toJson = true := by
  cases row with
  | file row => rfl
  | placeholder text columns =>
    have hcolumns : finite (.nat columns.toNat) = true :=
      Json.finite_nat (Nat.lt_trans columns.toNat_lt (by decide))
    simp [toJson, finite, Json.membersFinite, hcolumns]

/-- Nor has that of a view. -/
theorem Room.View.finite_toJson (view : Room.View) : finite view.toJson = true := by
  have hstatus : finite view.status.toJson = true := by cases view.status <;> rfl
  have htext (o : Option String) : finite (.optional .string o) = true :=
    Json.finite_optional (fun _ => rfl) o
  have hrows := Json.itemsFinite_map Room.Row.finite_toJson view.rows
  simp [toJson, finite, Json.membersFinite, hstatus, htext, hrows]

/-- Nor that of a lifetime, whose milliseconds are a whole number. -/
theorem Toast.Lifetime.finite_toJson (lifetime : Toast.Lifetime) :
    finite lifetime.toJson = true := by
  cases lifetime with
  | timed ms => simp [toJson, finite, Json.membersFinite, Json.finite_nat ms.toNat_lt]
  | untilRemoved => rfl

/-- Nor that of a toast. -/
theorem Toast.finite_toJson (toast : Toast) : finite toast.toJson = true := by
  simp [toJson, finite, Json.membersFinite, DateTime.toJsonUtc, toast.lifetime.finite_toJson]

/-! ### Nesting -/

/-- A row has its file in it, and the icon in the file. -/
theorem Room.Row.nesting_toJson (row : Room.Row) : nesting row.toJson ≤ 2 := by
  cases row with
  | file row => exact Nat.le_refl 2
  | placeholder text columns => exact Nat.le_succ 1

/-- A view has rows in a list. -/
theorem Room.View.nesting_toJson (view : Room.View) : nesting view.toJson ≤ 4 := by
  have hstatus : nesting view.status.toJson = 0 := by cases view.status <;> rfl
  have htext (o : Option String) : nesting (.optional .string o) = 0 := by cases o <;> rfl
  have hrows := Json.itemsNesting_map_le Room.Row.nesting_toJson view.rows
  simp only [toJson, nesting, Json.membersNesting, hstatus, htext]
  omega

/-- A toast has its lifetime in it. -/
theorem Toast.nesting_toJson (toast : Toast) : nesting toast.toJson ≤ 2 := by
  have hlifetime : nesting toast.lifetime.toJson ≤ 1 := by
    cases toast.lifetime with
    | timed ms => exact Nat.le_refl 1
    | untilRemoved => exact Nat.le_refl 1
  simp only [toJson, nesting, Json.membersNesting, DateTime.toJsonUtc]
  omega

/-! ### What is told -/

/-- The toast that the document of a toast tells. -/
def Toast.asTold (toast : Toast) : Toast :=
  { toast with createdAt := toast.createdAt.asTold }

/-- The event about a toast that its document tells. -/
def ToastEvent.asTold : ToastEvent → ToastEvent
  | .shown toast => .shown toast.asTold
  | .dismissed id => .dismissed id

/-- The event that the document of an event tells: a new toast is the only event with a point in
time. -/
def Event.asTold : Event → Event
  | .room e => .room e
  | .toast e => .toast e.asTold
  | .navigation e => .navigation e

/-- A leap second that a new toast was made within ends its minute. -/
def Event.LeapsAtMinuteEnd : Event → Prop
  | .toast (.shown made) => made.createdAt.time.LeapsAtMinuteEnd
  | _ => True

/-- A toast is told as it is exactly if the second in which it was made can be. -/
theorem Toast.asTold_eq_iff (toast : Toast) :
    toast.asTold = toast ↔ toast.createdAt.time.LeapsAtMinuteEnd := by
  rw [← toast.createdAt.asTold_eq_iff]
  constructor
  · exact fun h => congrArg createdAt h
  · intro h
    rw [asTold, h]

/-- An event is told as it is exactly if the point in time of its toast is. -/
theorem Event.asTold_eq_iff (event : Event) : event.asTold = event ↔ event.LeapsAtMinuteEnd := by
  cases event with
  | room e => exact ⟨fun _ => trivial, fun _ => rfl⟩
  | navigation e => exact ⟨fun _ => trivial, fun _ => rfl⟩
  | toast e =>
    cases e with
    | dismissed id => exact ⟨fun _ => trivial, fun _ => rfl⟩
    | shown toast =>
      rw [LeapsAtMinuteEnd, ← toast.asTold_eq_iff, asTold, ToastEvent.asTold]
      simp only [Event.toast.injEq, ToastEvent.shown.injEq]

/-! ### Views -/

/-- An icon is read back. -/
theorem File.Icon.reads (icon : File.Icon) : Reads File.Icon.decoder icon.toJson icon :=
  Json.Record.fits_start File.Icon.mk
    |>.required (Json.reads_string icon.shape)
    |>.required (Json.reads_string icon.colour)
    |>.reads (by simp)

namespace Room

/-- The status of a room is read back from its name. -/
theorem Status.reads (status : Status) : Reads (.name Status.names) status.toJson status := by
  cases status with
  | live => exact Json.reads_name rfl
  | expired => exact Json.reads_name rfl

/-- The row of a file is read back. -/
theorem FileRow.reads (row : FileRow) : Reads FileRow.decoder (.object row.members) row :=
  Json.Record.fits_start FileRow.mk
    |>.required (Json.reads_string row.fileId)
    |>.required (Json.reads_string row.fileName)
    |>.required (Json.reads_string row.sizeLabel)
    |>.required (Json.reads_string row.uploadedLabel)
    |>.required row.icon.reads
    |>.reads (by simp)

/-- So is any row, by its tag. -/
theorem Row.reads (row : Row) : Reads Row.decoder row.toJson row := by
  have hfinite := row.finite_toJson
  cases row with
  | file row =>
    exact Json.reads_tagged rfl (by simp [FileRow.members]) (Json.finite_of_tagged hfinite)
      (row.reads.map Row.file)
  | placeholder text columns =>
    exact Json.reads_tagged rfl (by simp) (Json.finite_of_tagged hfinite)
      (Json.Record.fits_start Row.placeholder
        |>.required (Json.reads_string text)
        |>.required (Json.reads_uint8 columns)
        |>.reads (by simp))

/-- So is a view with all its rows. -/
theorem View.reads (view : View) : Reads View.decoder view.toJson view :=
  Json.Record.fits_start View.mk
    |>.required view.status.reads
    |>.required (Json.reads_string view.roomCode)
    |>.required (Json.reads_string view.roomName)
    |>.nullable (Reads.optional Json.reads_string (fun _ => Json.noConfusion) view.username)
    |>.required (Json.reads_string view.expiresLabel)
    |>.required (Json.reads_string view.occupantsLabel)
    |>.nullable (Reads.optional Json.reads_string (fun _ => Json.noConfusion) view.notification)
    |>.required (Reads.list Row.reads view.rows)
    |>.reads (by simp)

end Room

/-! ### Toasts -/

/-- An identifier is read back from its digits. -/
theorem reads_id (id : Uuid) : Reads Toast.idDecoder (.string id.render) id := by
  refine (Json.reads_string id.render).bind ?_
  rw [id.parse?_render]

namespace Toast

/-- A severity is read back from its name. -/
theorem Severity.reads (severity : Severity) :
    Reads Severity.decoder (.string severity.name) severity := by
  cases severity with
  | info => exact Json.reads_name rfl
  | success => exact Json.reads_name rfl
  | error => exact Json.reads_name rfl
  | warning => exact Json.reads_name rfl

/-- A lifetime is read back, whether it ends or not. -/
theorem Lifetime.reads (lifetime : Lifetime) : Reads Lifetime.decoder lifetime.toJson lifetime := by
  have hfinite := lifetime.finite_toJson
  cases lifetime with
  | timed ms =>
    exact Json.reads_tagged rfl (by simp) (Json.finite_of_tagged hfinite)
      (Json.Record.fits_start Lifetime.timed
        |>.required (Json.reads_uint64 ms)
        |>.reads (by simp))
  | untilRemoved => exact Json.reads_tagged rfl (by simp) rfl fun _ => rfl

end Toast

/-- The document of a toast is read as the toast that it tells. -/
theorem Toast.reads (toast : Toast) : Reads Toast.decoder toast.toJson toast.asTold :=
  Json.Record.fits_start Toast.mk
    |>.required (reads_id toast.id)
    |>.required (Json.reads_string toast.message)
    |>.required toast.severity.reads
    |>.required toast.createdAt.reads_universal
    |>.required toast.lifetime.reads
    |>.reads (by simp)

/-! ### Events -/

namespace Event

/-- No member of an event bears the name of the tag of its family, and all can be held back. -/
structure Beside (ms : List (String × Json)) : Prop where
  tag : ∀ m ∈ ms, m.1 ≠ "kind"
  finite : finite (.object ms) = true

/-- The members of an event of the room do not have the name of the outer tag. -/
theorem beside_room (e : RoomEvent) : Beside (roomMembers e) := by
  cases e with
  | viewUpdated view =>
    exact ⟨by simp [roomMembers],
      by simp [roomMembers, Json.membersFinite, finite, view.finite_toJson]⟩
  | terminated reason => exact ⟨by simp [roomMembers], rfl⟩

/-- Nor have those of an event of a toast. -/
theorem beside_toast (e : ToastEvent) : Beside (toastMembers e) := by
  cases e with
  | shown toast =>
    exact ⟨by simp [toastMembers],
      by simp [toastMembers, Json.membersFinite, finite, toast.finite_toJson]⟩
  | dismissed id => exact ⟨by simp [toastMembers], rfl⟩

/-- Nor have those of a navigation. -/
theorem beside_navigation (e : NavigationEvent) : Beside (navigationMembers e) := by
  cases e with
  | redirect location => exact ⟨by simp [navigationMembers], rfl⟩
  | download url => exact ⟨by simp [navigationMembers], rfl⟩

/-- An event of the room is read back beside the tag of its kind. -/
theorem reads_room (e : RoomEvent) : Reads roomDecoder (.object (roomMembers e)) e := by
  have hfinite := (beside_room e).finite
  cases e with
  | viewUpdated view =>
    exact Json.reads_tagged rfl (by simp) (Json.finite_of_tagged hfinite)
      (Json.Record.fits_start RoomEvent.viewUpdated
        |>.required view.reads
        |>.reads (by simp))
  | terminated reason =>
    exact Json.reads_tagged rfl (by simp) (Json.finite_of_tagged hfinite)
      (Json.Record.fits_start RoomEvent.terminated
        |>.required (Json.reads_string reason)
        |>.reads (by simp))

/-- So is one of a toast, as its document tells it. -/
theorem reads_toast (e : ToastEvent) :
    Reads toastDecoder (.object (toastMembers e)) e.asTold := by
  have hfinite := (beside_toast e).finite
  cases e with
  | shown toast =>
    exact Json.reads_tagged rfl (by simp) (Json.finite_of_tagged hfinite)
      (Json.Record.fits_start ToastEvent.shown
        |>.required toast.reads
        |>.reads (by simp))
  | dismissed id =>
    exact Json.reads_tagged rfl (by simp) (Json.finite_of_tagged hfinite)
      (Json.Record.fits_start ToastEvent.dismissed
        |>.required (reads_id id)
        |>.reads (by simp))

/-- So is a navigation. -/
theorem reads_navigation (e : NavigationEvent) :
    Reads navigationDecoder (.object (navigationMembers e)) e := by
  have hfinite := (beside_navigation e).finite
  cases e with
  | redirect location =>
    exact Json.reads_tagged rfl (by simp) (Json.finite_of_tagged hfinite)
      (Json.Record.fits_start NavigationEvent.redirect
        |>.required (Json.reads_string location)
        |>.reads (by simp))
  | download url =>
    exact Json.reads_tagged rfl (by simp) (Json.finite_of_tagged hfinite)
      (Json.Record.fits_start NavigationEvent.download
        |>.required (Json.reads_string url)
        |>.reads (by simp))

/-- The document of an event is read as the event that it tells. -/
theorem reads (event : Event) : Reads Event.decoder event.toJson event.asTold := by
  cases event with
  | room e =>
    have hbeside := beside_room e
    exact Json.reads_tagged rfl hbeside.tag hbeside.finite ((reads_room e).map Event.room)
  | toast e =>
    have hbeside := beside_toast e
    exact Json.reads_tagged rfl hbeside.tag hbeside.finite ((reads_toast e).map Event.toast)
  | navigation e =>
    have hbeside := beside_navigation e
    exact Json.reads_tagged rfl hbeside.tag hbeside.finite
      ((reads_navigation e).map Event.navigation)

/-- An event holds a view at the most, which holds its rows. -/
theorem nesting_toJson (event : Event) : nesting event.toJson ≤ 5 := by
  cases event with
  | room e =>
    cases e with
    | viewUpdated view =>
      have hview := view.nesting_toJson
      simp only [toJson, roomMembers, nesting, Json.membersNesting]
      omega
    | terminated reason => exact Nat.le_add_left 1 4
  | toast e =>
    cases e with
    | shown toast =>
      have htoast := toast.nesting_toJson
      simp only [toJson, toastMembers, nesting, Json.membersNesting]
      omega
    | dismissed id => exact Nat.le_add_left 1 4
  | navigation e =>
    cases e with
    | redirect location => exact Nat.le_add_left 1 4
    | download url => exact Nat.le_add_left 1 4

/-- The text of an event is decoded as the event that it tells. -/
theorem decodeText_toJson (event : Event) :
    Json.decodeText Event.decoder event.toJson.render = .ok event.asTold :=
  Json.decodeText_render event.reads (Nat.lt_of_le_of_lt event.nesting_toJson (by decide))

/-- **Events.** Whatever it announces, a view, the end of a room, a toast that comes or goes, or a
navigation: the text of an event is decoded, and as that very event unless it announces a toast that
was made within a leap second before the end of a minute.  Then the second after it is read in its
place, and all else as it was. -/
theorem event_read_back (event : Event) :
    Json.decodeText Event.decoder event.toJson.render = .ok event.asTold ∧
      (Json.decodeText Event.decoder event.toJson.render = .ok event ↔ event.LeapsAtMinuteEnd) := by
  refine ⟨event.decodeText_toJson, ?_⟩
  rw [event.decodeText_toJson, Except.ok.injEq, event.asTold_eq_iff]

/-- A toast that was made within a leap second that does not end its minute. -/
def leapingToast : Event :=
  .toast (.shown ⟨.ofNat 1, "File deleted", .info, .leaping, .timed 4000⟩)

/-- The leap second is written as the second after it, and is not read back. -/
theorem leapingToast_not_read_back :
    Json.decodeText Event.decoder leapingToast.toJson.render ≠ .ok leapingToast := by
  intro h
  rw [leapingToast.decodeText_toJson] at h
  exact absurd (leapingToast.asTold_eq_iff.mp (Except.ok.inj h))
    (by unfold leapingToast LeapsAtMinuteEnd; decide)

end Event

end DropRoom
