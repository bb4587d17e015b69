import DropRoom.Room.View
import Mathlib.Data.Finset.Card
import Mathlib.Data.Finset.Dedup
import Mathlib.Data.Finset.SDiff

namespace DropRoom.Room

/-!
# Changes between snapshots

Files are told apart by their identifiers alone, and each identifier counts once, however often and
wherever it is listed.  So a change is known from the two sets of identifiers and the two numbers of
occupants.

* `Snapshot.idSet` — the identifiers of a snapshot as a set;
* `countMissing_fileIds` — what is counted is the difference of two sets;
* `card_add_filesAdded` — files that were there and files that came are files that are there and
  files that went;
* `occupants_eq_toInt` — the difference of the occupants does not leave 64 bits;
* `changes_balance` — the change between any two snapshots.
-/

variable {a b : Snapshot}

/-! ### Sets of identifiers -/

/-- The identifiers of the files of a snapshot, as a set. -/
def Snapshot.idSet (s : Snapshot) : Finset String :=
  (s.fileDrops.map (·.fileId)).toFinset

/-- The identifiers of a snapshot are those of its files. -/
theorem Snapshot.mem_idSet {s : Snapshot} {id : String} :
    id ∈ s.idSet ↔ ∃ file ∈ s.fileDrops, file.fileId = id := by
  rw [idSet, List.mem_toFinset, List.mem_map]

/-- They are the same in a list. -/
theorem Snapshot.mem_fileIds {s : Snapshot} {id : String} : id ∈ s.fileIds ↔ id ∈ s.idSet := by
  rw [fileIds, List.mem_eraseDups, idSet, List.mem_toFinset]

/-- Without duplicates each identifier is there once. -/
theorem nodup_eraseDups (ids : List String) : ids.eraseDups.Nodup :=
  match ids with
  | [] => by
    rw [List.eraseDups_nil]
    exact List.nodup_nil
  | id :: rest => by
    rw [List.eraseDups_cons, List.nodup_cons, List.mem_eraseDups]
    exact ⟨by simp, nodup_eraseDups _⟩
termination_by ids.length
decreasing_by exact Nat.lt_succ_of_le (List.length_filter_le _ _)

/-- What is counted as missing is the difference of the two sets. -/
theorem countMissing_fileIds (a b : Snapshot) :
    countMissing a.fileIds b.fileIds = (a.idSet \ b.idSet).card := by
  have hnodup : (a.fileIds.filter fun id => !b.fileIds.contains id).Nodup :=
    (nodup_eraseDups _).filter _
  rw [countMissing, ← List.toFinset_card_of_nodup hnodup]
  congr 1
  ext id
  simp [Snapshot.mem_fileIds]

/-- A set of identifiers is that of the files, whatever their order and however often they are
listed. -/
theorem idSet_of_same {files : List FileDrop} (s : Snapshot)
    (h : ∀ file, file ∈ files ↔ file ∈ s.fileDrops) :
    Snapshot.idSet { s with fileDrops := files } = s.idSet := by
  ext id
  simp only [Snapshot.mem_idSet, h]

/-! ### Changes -/

/-- Files are added as often as there are identifiers that were not there. -/
theorem filesAdded_eq (a b : Snapshot) :
    (Change.between a b).filesAdded = (b.idSet \ a.idSet).card :=
  countMissing_fileIds b a

/-- They are removed as often as there are identifiers that are gone. -/
theorem filesRemoved_eq (a b : Snapshot) :
    (Change.between a b).filesRemoved = (a.idSet \ b.idSet).card :=
  countMissing_fileIds a b

/-- The files of both snapshots, counted from either side. -/
theorem card_add_filesAdded (a b : Snapshot) :
    a.idSet.card + (Change.between a b).filesAdded =
      b.idSet.card + (Change.between a b).filesRemoved := by
  rw [filesAdded_eq, filesRemoved_eq]
  calc a.idSet.card + (b.idSet \ a.idSet).card
    _ = (b.idSet ∪ a.idSet).card := by rw [Nat.add_comm, Finset.card_sdiff_add_card]
    _ = (a.idSet ∪ b.idSet).card := by rw [Finset.union_comm]
    _ = b.idSet.card + (a.idSet \ b.idSet).card := by rw [Nat.add_comm, Finset.card_sdiff_add_card]

/-- No file changes exactly if the identifiers are the same. -/
theorem no_files_changed_iff (a b : Snapshot) :
    ((Change.between a b).filesAdded = 0 ∧ (Change.between a b).filesRemoved = 0) ↔
      a.idSet = b.idSet := by
  rw [filesAdded_eq, filesRemoved_eq, Finset.card_eq_zero, Finset.card_eq_zero,
    Finset.sdiff_eq_empty_iff_subset, Finset.sdiff_eq_empty_iff_subset]
  exact ⟨fun ⟨hadded, hremoved⟩ => hremoved.antisymm hadded, fun h => ⟨h.ge, h.le⟩⟩

/-- Numbers of 32 bits, and so their differences, are numbers of 64 bits with a sign. -/
theorem occupants_eq_toInt (a b : Snapshot) :
    (Change.between a b).occupants =
      (Int64.ofNat b.occupantCount.toNat - Int64.ofNat a.occupantCount.toNat).toInt := by
  have ha := a.occupantCount.toNat_lt
  have hb := b.occupantCount.toNat_lt
  show (b.occupantCount.toNat - a.occupantCount.toNat : Int) = _
  rw [Int64.toInt_sub, Int64.toInt_ofNat_of_lt (by omega), Int64.toInt_ofNat_of_lt (by omega)]
  exact (Int.bmod_eq_of_le (by omega) (by omega)).symm

/-- A change depends on the occupants and the identifiers alone. -/
theorem between_of_same {a' b' : Snapshot} (hcount : a'.occupantCount = a.occupantCount)
    (hcount' : b'.occupantCount = b.occupantCount) (hids : a'.idSet = a.idSet)
    (hids' : b'.idSet = b.idSet) : Change.between a' b' = Change.between a b := by
  simp only [Change.between, countMissing_fileIds, hcount, hcount', hids, hids']

/-- **Changes between snapshots.** Take any two snapshots, with files that may be listed more than
once.  What is added on the way from one to the other is what is removed on the way back, and the
numbers of occupants differ by the same amount in the other direction; that amount is exact, and a
number of 64 bits.  The distinct files before and those added are as many as those after and those
removed.  Nothing is added and nothing removed exactly if the sets of files are the same.  And the
change is the same however the entries of either snapshot are ordered and repeated. -/
theorem changes_balance (a b : Snapshot) :
    let there := Change.between a b
    let back := Change.between b a
    (there.filesAdded = back.filesRemoved ∧ there.filesRemoved = back.filesAdded) ∧
    (there.occupants = -back.occupants ∧
      a.occupantCount.toNat + there.occupants = b.occupantCount.toNat ∧
      there.occupants =
        (Int64.ofNat b.occupantCount.toNat - Int64.ofNat a.occupantCount.toNat).toInt) ∧
    a.idSet.card + there.filesAdded = b.idSet.card + there.filesRemoved ∧
    (there.filesAdded = 0 ∧ there.filesRemoved = 0 ↔ a.idSet = b.idSet) ∧
    ∀ files files' : List FileDrop, (∀ file, file ∈ files ↔ file ∈ a.fileDrops) →
      (∀ file, file ∈ files' ↔ file ∈ b.fileDrops) →
      Change.between { a with fileDrops := files } { b with fileDrops := files' } = there := by
  intro there back
  have hthere : there.occupants = b.occupantCount.toNat - a.occupantCount.toNat := rfl
  have hback : back.occupants = a.occupantCount.toNat - b.occupantCount.toNat := rfl
  refine ⟨⟨rfl, rfl⟩, ⟨by omega, by omega, occupants_eq_toInt a b⟩, card_add_filesAdded a b,
    no_files_changed_iff a b, fun files files' hsame hsame' => ?_⟩
  exact between_of_same rfl rfl (idSet_of_same a hsame) (idSet_of_same b hsame')

/-- A file that is listed twice counts once, and so does one that has another name and the same
identifier; from no occupants to as many as there can be, and back. -/
theorem changes_balance_of_repeated :
    let report : FileDrop := ⟨"f1", "report.pdf", 2048, .sinceEpoch 1792422245000⟩
    let photo : FileDrop := ⟨"f2", "photo.PNG", 512, .sinceEpoch 1792422245000⟩
    let renamed : FileDrop := ⟨"f2", "cat.PNG", 512, .sinceEpoch 1792422245000⟩
    let notes : FileDrop := ⟨"f3", "notes.txt", 7, .sinceEpoch 1792422245000⟩
    let room (count : UInt32) (files : List FileDrop) : Snapshot :=
      ⟨"AB12", "Review", .sinceEpoch 0, count, false, none, files⟩
    let change : Change := ⟨4294967295, 1, 1⟩
    Change.between (room 0 [report, photo, report]) (room 4294967295 [renamed, notes]) = change ∧
      Change.between (room 0 [photo, report]) (room 4294967295 [notes, renamed, notes]) = change ∧
      (room 0 [report, photo, report]).idSet.card + 1 =
        (room 4294967295 [renamed, notes]).idSet.card + 1 := by
  intro report photo renamed notes room change
  obtain ⟨_, _, hcount, _, hsame⟩ :=
    changes_balance (room 0 [report, photo, report]) (room 4294967295 [renamed, notes])
  have hchange : Change.between (room 0 [report, photo, report])
      (room 4294967295 [renamed, notes]) = change := by decide +kernel
  rw [hchange] at hcount hsame
  refine ⟨hchange, hsame [photo, report] [notes, renamed, notes] ?_ ?_, hcount⟩
  · intro file
    simp [room, or_comm]
  · intro file
    simp only [room, List.mem_cons, List.not_mem_nil, or_false]
    exact ⟨fun h => h.elim .inr id, .inr⟩

end DropRoom.Room
