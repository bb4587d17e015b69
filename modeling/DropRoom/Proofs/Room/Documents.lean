import DropRoom.Proofs.Json.Decoding
import DropRoom.Proofs.Time.RoundTrip
import DropRoom.Room.Snapshot

namespace DropRoom.Room

/-!
# Snapshots as documents

A snapshot is written as an object of all its fields, in the order in which they are read, so that
nothing of it is lost on the way but a leap second within a minute, which has no text of its own.

* `FileDrop.asTold`, `Snapshot.asTold` — the file, and the snapshot, that its text tells;
* `Snapshot.LeapsAtMinuteEnd` — the snapshots that are told as they are;
* `FileDrop.reads`, `Snapshot.reads` — files and snapshots as values;
* `snapshot_read_back` — the text of a snapshot is decoded as the snapshot that it tells.
-/

open Json (Reads nesting)

/-! ### What is told -/

/-- The file that the document of a file tells. -/
def FileDrop.asTold (file : FileDrop) : FileDrop :=
  { file with uploadedAt := file.uploadedAt.asTold }

/-- The snapshot that the document of a snapshot tells. -/
def Snapshot.asTold (s : Snapshot) : Snapshot :=
  { s with expiresAt := s.expiresAt.asTold, fileDrops := s.fileDrops.map FileDrop.asTold }

/-- The leap seconds that the points in time of a snapshot are within end their minutes. -/
def Snapshot.LeapsAtMinuteEnd (s : Snapshot) : Prop :=
  s.expiresAt.time.LeapsAtMinuteEnd ∧ ∀ file ∈ s.fileDrops, file.uploadedAt.time.LeapsAtMinuteEnd

/-- A file is told as it is exactly if the second of its upload can be. -/
theorem FileDrop.asTold_eq_iff (file : FileDrop) :
    file.asTold = file ↔ file.uploadedAt.time.LeapsAtMinuteEnd := by
  rw [← file.uploadedAt.asTold_eq_iff]
  constructor
  · exact fun h => congrArg uploadedAt h
  · intro h
    rw [asTold, h]

/-- A snapshot is told as it is exactly if its points in time are. -/
theorem Snapshot.asTold_eq_iff (s : Snapshot) : s.asTold = s ↔ s.LeapsAtMinuteEnd := by
  have hfiles : s.fileDrops.map FileDrop.asTold = s.fileDrops ↔
      ∀ file ∈ s.fileDrops, file.uploadedAt.time.LeapsAtMinuteEnd := by
    have hmap := @List.map_inj_left _ _ s.fileDrops FileDrop.asTold id
    rw [List.map_id] at hmap
    simpa only [id, FileDrop.asTold_eq_iff] using hmap
  rw [LeapsAtMinuteEnd, ← s.expiresAt.asTold_eq_iff, ← hfiles]
  constructor
  · exact fun h => ⟨congrArg expiresAt h, congrArg fileDrops h⟩
  · rintro ⟨hexpires, hdrops⟩
    rw [asTold, hexpires, hdrops]

/-! ### Values -/

/-- The document of a file is read as the file that it tells. -/
theorem FileDrop.reads (file : FileDrop) : Reads FileDrop.decoder file.toJson file.asTold :=
  Json.Record.fits_start FileDrop.mk
    |>.required (Json.reads_string file.fileId)
    |>.required (Json.reads_string file.fileName)
    |>.required (Json.reads_uint64 file.size)
    |>.required file.uploadedAt.reads_timestamp
    |>.reads (by simp)

/-- The document of a snapshot is read as the snapshot that it tells. -/
theorem Snapshot.reads (s : Snapshot) : Reads Snapshot.decoder s.toJson s.asTold :=
  Json.Record.fits_start Snapshot.mk
    |>.required (Json.reads_string s.roomCode)
    |>.required (Json.reads_string s.roomName)
    |>.required s.expiresAt.reads_timestamp
    |>.required (Json.reads_uint32 s.occupantCount)
    |>.defaulted (Json.reads_bool s.isExpired)
    |>.defaulted (Reads.optional Json.reads_string (fun _ => Json.noConfusion) s.notification)
    |>.defaulted (Reads.list_map FileDrop.reads s.fileDrops)
    |>.reads (by simp)

/-- A snapshot holds its files in an array, and nothing in them. -/
theorem Snapshot.nesting_toJson (s : Snapshot) : nesting s.toJson ≤ 3 := by
  have hfile (file : FileDrop) : nesting file.toJson ≤ 1 := Nat.le_refl _
  have hfiles := Json.itemsNesting_map_le hfile s.fileDrops
  have hnotification : nesting (.optional .string s.notification) = 0 := by
    cases s.notification <;> rfl
  simp only [toJson, nesting, Json.membersNesting, Json.nat, DateTime.toJson, hnotification]
  omega

/-- The text of a snapshot is decoded as the snapshot that it tells. -/
theorem Snapshot.decodeText_toJson (s : Snapshot) :
    Json.decodeText Snapshot.decoder s.toJson.render = .ok s.asTold :=
  Json.decodeText_render s.reads (Nat.lt_of_le_of_lt s.nesting_toJson (by decide))

/-- **Snapshots.** Whatever its texts, numbers and points in time are, and whether or not it has a
notification and files: the text of a snapshot is decoded, and as that very snapshot exactly if the
leap seconds in it end their minutes.  Where one does not, the second after it is read in its place,
and all else as it was. -/
theorem snapshot_read_back (s : Snapshot) :
    Json.decodeText Snapshot.decoder s.toJson.render = .ok s.asTold ∧
      (Json.decodeText Snapshot.decoder s.toJson.render = .ok s ↔ s.LeapsAtMinuteEnd) := by
  refine ⟨s.decodeText_toJson, ?_⟩
  rw [s.decodeText_toJson, Except.ok.injEq, s.asTold_eq_iff]

/-- A room that is over within a leap second that does not end its minute. -/
def leapingSnapshot : Snapshot where
  roomCode := "AB12"
  roomName := "Lobby"
  expiresAt := .leaping
  occupantCount := 3
  isExpired := false
  notification := none
  fileDrops := []

/-- The leap second is written as the second after it, and is not read back. -/
theorem leapingSnapshot_not_read_back :
    leapingSnapshot.expiresAt.render = "2026-10-21T12:15:05.333" ∧
      Json.decodeText Snapshot.decoder leapingSnapshot.toJson.render ≠ .ok leapingSnapshot := by
  refine ⟨by decide +kernel, fun h => ?_⟩
  rw [leapingSnapshot.decodeText_toJson] at h
  exact absurd (leapingSnapshot.asTold_eq_iff.mp (Except.ok.inj h)).1 (by decide)

end DropRoom.Room
