import DropRoom.Room.View
import Mathlib.Data.List.Forall2

namespace DropRoom.Room

/-!
# The table of a page

A page is made from one snapshot, whatever was shown before it.  Its table has a row for each file
of the room in the order of the server, the placeholder if there is none, and nothing at all once
the room has expired.

* `Row.Shows` — a row shows a file;
* `shows_tableRows`, `placeholder_not_mem_tableRows` — the table of some files;
* `row_of_file` — the row of one of them;
* `reconcile_shows_files_in_order` — the page of any snapshot after any other one.
-/

/-- A row shows a file: under its identifier and its name, with labels of its size and its time and
an icon for its name. -/
def Row.Shows (row : Row) (file : FileDrop) : Prop :=
  ∃ shown : FileRow, row = .file shown ∧
    shown.fileId = file.fileId ∧ shown.fileName = file.fileName ∧
    shown.sizeLabel = File.sizeText file.size ∧
    shown.uploadedLabel = file.uploadedAt.uploadLabel ∧ shown.icon = .ofName file.fileName

variable {file : FileDrop} {files : List FileDrop}

/-- The row of a file shows it. -/
theorem FileRow.shows_ofDrop (file : FileDrop) : (Row.file (.ofDrop file)).Shows file :=
  ⟨.ofDrop file, rfl, rfl, rfl, rfl, rfl, rfl⟩

/-! ### Tables -/

/-- A table of files has a row for each of them, in their order. -/
theorem tableRows_of_ne_nil (h : files ≠ []) :
    tableRows files = files.map fun file => .file (.ofDrop file) := by
  unfold tableRows
  split
  · exact absurd rfl h
  · rfl

/-- The table of some files shows all of them, each where it stands among them. -/
theorem shows_tableRows (h : files ≠ []) : List.Forall₂ Row.Shows (tableRows files) files := by
  rw [tableRows_of_ne_nil h, List.forall₂_map_left_iff, List.forall₂_same]
  exact fun file _ => FileRow.shows_ofDrop file

/-- It has no placeholder. -/
theorem placeholder_not_mem_tableRows (h : files ≠ []) (text : String) (columns : UInt8) :
    .placeholder text columns ∉ tableRows files := by
  rw [tableRows_of_ne_nil h]
  simp

/-- The row of a file stands where the file does, and is made of the file alone. -/
theorem row_of_file {place : Nat} (h : files[place]? = some file) :
    (tableRows files)[place]? = some (.file (.ofDrop file)) := by
  have hsome : files ≠ [] := List.ne_nil_of_mem (List.mem_of_getElem? h)
  rw [tableRows_of_ne_nil hsome, List.getElem?_map, h]
  rfl

/-! ### Pages -/

variable {s : Snapshot} {username : Option String}

/-- The view of a live room has the table of its files. -/
theorem rows_ofSnapshot_of_live (h : s.isExpired = false) :
    (View.ofSnapshot s username).rows = tableRows s.fileDrops :=
  if_neg (Bool.eq_false_iff.mp h)

/-- **The table of a page.** Take any snapshot after any other one, or after none.  The page is the
same whatever came before.  A room that has expired is shown as such, without any row.  A room that
is live is shown as such: without files there is the placeholder and nothing else, and otherwise
there is no placeholder, and each row shows the file in its place.  Wherever the same file is
shown, in this page or in that of any other live room, its row is the same. -/
theorem reconcile_shows_files_in_order (previous : Option Snapshot) (s : Snapshot)
    (username : Option String) :
    let view := (reconcile previous s username).2
    (∀ other, (reconcile other s username).2 = view) ∧
    (s.isExpired = true → view.status = .expired ∧ view.rows = []) ∧
    (s.isExpired = false → view.status = .live ∧
      (s.fileDrops = [] → view.rows = [.placeholder emptyRoomText tableColumns]) ∧
      (s.fileDrops ≠ [] → List.Forall₂ Row.Shows view.rows s.fileDrops ∧
        ∀ text columns, .placeholder text columns ∉ view.rows) ∧
      ∀ (previous' : Option Snapshot) (s' : Snapshot) (username' : Option String)
        (place place' : Nat) (file : FileDrop), s'.isExpired = false →
        s.fileDrops[place]? = some file → s'.fileDrops[place']? = some file →
        ∃ row, view.rows[place]? = some row ∧
          (reconcile previous' s' username').2.rows[place']? = some row) := by
  intro view
  refine ⟨fun _ => rfl, fun hexpired => ?_, fun hlive => ?_⟩
  · exact ⟨if_pos hexpired, if_pos hexpired⟩
  · have hrows : view.rows = tableRows s.fileDrops := rows_ofSnapshot_of_live hlive
    rw [hrows]
    refine ⟨if_neg (Bool.eq_false_iff.mp hlive), fun hnone => ?_, fun hsome => ?_, ?_⟩
    · rw [hnone]
      rfl
    · exact ⟨shows_tableRows hsome, placeholder_not_mem_tableRows hsome⟩
    · intro previous' s' username' place place' file hlive' hfile hfile'
      rw [reconcile_snd, rows_ofSnapshot_of_live hlive']
      exact ⟨.file (.ofDrop file), row_of_file hfile, row_of_file hfile'⟩

/-- A file that the server lists twice has two rows, and they are the same. -/
theorem reconcile_shows_files_in_order_of_repeated :
    let report : FileDrop := ⟨"f1", "report.pdf", 2048, .sinceEpoch 1792422245000⟩
    let photo : FileDrop := ⟨"f2", "photo.PNG", 512, .sinceEpoch 1792422245000⟩
    let room : Snapshot :=
      ⟨"AB12", "Review", .sinceEpoch 0, 3, false, none, [report, photo, report]⟩
    let view := (reconcile (some room) room (some "ana")).2
    view.status = .live ∧ List.Forall₂ Row.Shows view.rows [report, photo, report] ∧
      ∃ row, view.rows[0]? = some row ∧ view.rows[2]? = some row := by
  intro report photo room view
  obtain ⟨_, _, hlive⟩ := reconcile_shows_files_in_order (some room) room (some "ana")
  obtain ⟨hstatus, _, hrows, hsame⟩ := hlive rfl
  exact ⟨hstatus, (hrows (List.cons_ne_nil _ _)).1,
    hsame (some room) room (some "ana") 0 2 report rfl rfl rfl⟩

end DropRoom.Room
