import DropRoom.Proofs.Json.Rearranged
import DropRoom.Room.Visit

namespace DropRoom.Room

/-!
# Snapshots whose members are rearranged

A server may write the members of a snapshot and of its files in any order, and may add members that
are unknown here, whatever they hold.

* `FilesRearranged`, `SnapshotRearranged` — the texts of files and of a snapshot, rearranged;
* `FileDrop.decoder_treeOf`, `Snapshot.decoder_treeOf` — they are decoded as before;
* `rearranged_snapshot_is_same` — a rearranged payload does to a visit what the payload does.
-/

open Json (Reading Member Spaced Spells IsText IsValue ObjectRearranged treeOf arrayChars objectChars
  ItemsVary)
open Json.Decoder (Tolerates tolerates_of_rejects)

/-- The names of the fields of a file. -/
def FileDrop.fieldNames : List String :=
  ["fileId", "fileName", "fileSizeInBytes", "uploadedAt"]

/-- The names of the fields of a snapshot. -/
def Snapshot.fieldNames : List String :=
  ["roomCode", "roomName", "expiresAt", "occupantCount", "isExpired", "notification", "fileDrops"]

/-- An item of the array of files is the same item, or its members are rearranged; there may be other
blanks around it. -/
structure FileItemRearranged (item item' : Spaced) : Prop where
  proper : item'.Proper
  value : item'.value = item.value ∨
    ObjectRearranged FileDrop.fieldNames (fun _ _ _ => False) item.value item'.value

/-- The text of an array of files, with the members of the files rearranged. -/
def FilesRearranged (cs cs' : List Char) : Prop :=
  ∃ items items', cs = arrayChars items ∧ cs' = arrayChars items' ∧
    (∀ item ∈ items, item.Proper ∧ IsValue item.value) ∧
    List.Forall₂ FileItemRearranged items items'

/-- The text of a snapshot, with its members and those of its files rearranged. -/
def SnapshotRearranged (cs cs' : List Char) : Prop :=
  ObjectRearranged Snapshot.fieldNames
    (fun name v v' => Spells name "fileDrops".toList ∧ FilesRearranged v v') cs cs'

/-! ### Files -/

/-- A file whose members are rearranged is decoded as the same file. -/
theorem FileDrop.decoder_treeOf {cs cs' : List Char}
    (h : ObjectRearranged FileDrop.fieldNames (fun _ _ _ => False) cs cs') {source : Json.Source}
    {depth : Nat} {file : FileDrop} (hok : FileDrop.decoder source (treeOf depth cs) = .ok file) :
    FileDrop.decoder source (treeOf depth cs') = .ok file := by
  -- no value varies, so that every decoder tolerates it
  have hnever {α : Type} (decode : Json.Decoder α) : Tolerates (fun _ _ => False) decode :=
    tolerates_of_rejects fun _ _ _ hvaries => hvaries.elim
  exact Json.Record.tolerant_start FileDrop.mk
    |>.required (hnever .string)
    |>.required (hnever .string)
    |>.required (hnever .uint64)
    |>.required (hnever DateTime.timestamp)
    |>.decoder_treeOf (by decide) (fun hvaries => hvaries.elim) h hok

/-- An item that is rearranged is still a value. -/
theorem FileItemRearranged.isValue {item item' : Spaced} (h : FileItemRearranged item item')
    (hvalue : IsValue item.value) : IsValue item'.value := by
  rcases h.value with hsame | hobject
  · rw [hsame]
    exact hvalue
  · exact (hobject.isValue fun hvaries => hvaries.elim).2

/-- It is decoded as the same file. -/
theorem FileItemRearranged.decoder_treeOf {item item' : Spaced} (h : FileItemRearranged item item')
    (depth : Nat) (source : Json.Source) (file : FileDrop)
    (hok : FileDrop.decoder source (treeOf depth item.value) = .ok file) :
    FileDrop.decoder source (treeOf depth item'.value) = .ok file := by
  rcases h.value with hsame | hobject
  · rw [hsame]
    exact hok
  · exact FileDrop.decoder_treeOf hobject hok

/-- All items of a rearranged list are values with blanks around them. -/
theorem FilesRearranged.proper {items items' : List Spaced}
    (hitems : ∀ item ∈ items, item.Proper ∧ IsValue item.value)
    (h : List.Forall₂ FileItemRearranged items items') :
    ∀ item ∈ items', item.Proper ∧ IsValue item.value := by
  intro item hitem
  obtain ⟨original, horiginal, hrelated⟩ := Json.exists_of_forall₂ h.flip hitem
  exact ⟨FileItemRearranged.proper hrelated,
    FileItemRearranged.isValue hrelated (hitems original horiginal).2⟩

/-- So the list is a value. -/
theorem FilesRearranged.isValue {cs cs' : List Char} (h : FilesRearranged cs cs') : IsValue cs' := by
  obtain ⟨items, items', rfl, rfl, hitems, hrelated⟩ := h
  have hitems' := FilesRearranged.proper hitems hrelated
  exact .array (fun item hitem => (hitems' item hitem).1) fun item hitem => (hitems' item hitem).2

/-- The trees of arrays of rearranged files vary in their items only. -/
theorem FilesRearranged.itemsVary {cs cs' : List Char} (h : FilesRearranged cs cs') {depth : Nat}
    (hdepth : depth + 1 < Json.depthLimit) :
    ItemsVary FileDrop.decoder (treeOf depth cs) (treeOf depth cs') := by
  obtain ⟨items, items', rfl, rfl, hitems, hrelated⟩ := h
  have hitems' := FilesRearranged.proper hitems hrelated
  have htree := Json.treeOf_arrayChars (fun item hitem => (hitems item hitem).1)
    (fun item hitem => (hitems item hitem).2) depth
  have htree' := Json.treeOf_arrayChars (fun item hitem => (hitems' item hitem).1)
    (fun item hitem => (hitems' item hitem).2) depth
  rw [Json.atDepth_of_lt hdepth] at htree htree'
  refine ⟨_, _, htree, htree', ?_⟩
  rw [List.forall₂_map_left_iff, List.forall₂_map_right_iff]
  exact hrelated.imp fun _ _ hitem => hitem.decoder_treeOf (depth + 1)

/-! ### Snapshots -/

/-- A decoder that takes no array does not see how the items of one vary. -/
theorem tolerates_of_scalar {α β : Type} {decode : Json.Decoder α} {item : Json.Decoder β}
    (h : ∀ source items, ∃ e, decode source (.array items) = .error e) :
    Tolerates (ItemsVary item) decode :=
  tolerates_of_rejects fun source _ _ ⟨items, _, hr, _⟩ => hr ▸ h source (.ofTrees items)

/-- A rearranged snapshot is decoded as the same snapshot. -/
theorem Snapshot.decoder_treeOf {cs cs' : List Char} (h : SnapshotRearranged cs cs')
    {source : Json.Source} {s : Snapshot} (hok : Snapshot.decoder source (treeOf 0 cs) = .ok s) :
    Snapshot.decoder source (treeOf 0 cs') = .ok s := by
  have hscalar {α : Type} {decode : Json.Decoder α}
      (hrejects : ∀ source items, ∃ e, decode source (.array items) = .error e) :
      Tolerates (ItemsVary FileDrop.decoder) decode := tolerates_of_scalar hrejects
  have hvaries {name v v' : List Char}
      (h : Spells name "fileDrops".toList ∧ FilesRearranged v v') : IsValue v' ∧
        (∃ chars, Spells name chars ∧ String.ofList chars ∈ Snapshot.fieldNames) ∧
        ItemsVary FileDrop.decoder (treeOf 1 v) (treeOf 1 v') :=
    ⟨h.2.isValue, ⟨_, h.1, by decide⟩, h.2.itemsVary (by decide)⟩
  exact Json.Record.tolerant_start Snapshot.mk
    |>.required (hscalar fun _ _ => ⟨_, rfl⟩)
    |>.required (hscalar fun _ _ => ⟨_, rfl⟩)
    |>.required (hscalar fun _ _ => ⟨_, rfl⟩)
    |>.required (hscalar fun _ _ => ⟨_, rfl⟩)
    |>.defaulted (hscalar fun _ _ => ⟨_, rfl⟩)
    |>.defaulted (hscalar fun _ _ => ⟨_, rfl⟩)
    |>.defaulted (Json.tolerates_list FileDrop.decoder)
    |>.decoder_treeOf (by decide) hvaries h hok

/-- **Rearranged snapshots.** Where the text of an object is decoded as a snapshot, every text is that
has the same members, and in every file the same members, in any order, with any values under names
of no field between them: it is decoded as the same snapshot, and does the same to every visit.  What
is added must bear a name, so that half of a surrogate pair may stand in its value, but not in its
name. -/
theorem rearranged_snapshot_is_same {document document' : Spaced} (hproper : document.Proper)
    (hproper' : document'.Proper) (h : SnapshotRearranged document.value document'.value)
    {s : Snapshot} (hok : Json.decodeText Snapshot.decoder (String.ofList document.chars) = .ok s) :
    Json.decodeText Snapshot.decoder (String.ofList document'.chars) = .ok s ∧
      ∀ v : Visit, v.applySnapshot (String.ofList document'.chars) =
        v.applySnapshot (String.ofList document.chars) := by
  obtain ⟨hvalue, hvalue'⟩ := h.isValue fun hfiles => hfiles.2.isValue
  have hok' : Json.decodeText Snapshot.decoder (String.ofList document'.chars) = .ok s := by
    rw [Json.decodeText_document _ hproper hvalue] at hok
    rw [Json.decodeText_document _ hproper' hvalue']
    exact Snapshot.decoder_treeOf h hok
  refine ⟨hok', fun v => ?_⟩
  rw [Visit.applySnapshot, Visit.applySnapshot, hok, hok']

/-! ### A lobby, rearranged -/

/-- A member without blanks. -/
def tight (name value : List Char) : Member :=
  ⟨[], name, [], [], value, []⟩

/-- Characters between two quotes. -/
def quotes (cs : List Char) : List Char :=
  '"' :: (cs ++ ['"'])

/-- The members of a file. -/
def draft : List Member := [
  tight "fileId".toList (quotes "f1".toList),
  tight "fileName".toList (quotes "notes.txt".toList),
  tight "fileSizeInBytes".toList ['7'],
  tight "uploadedAt".toList (quotes "2026-10-20T08:30:00".toList)]

/-- The members of a snapshot with an array of files. -/
def lobby (files : List Char) : List Member := [
  tight "roomCode".toList (quotes "AB12".toList),
  tight "roomName".toList (quotes "Lobby".toList),
  tight "expiresAt".toList (quotes "2026-10-20T09:00:00".toList),
  tight "occupantCount".toList ['3'],
  tight "fileDrops".toList files]

/-- Half of a surrogate pair. -/
def half : List Char :=
  ['\\', 'u', 'd', '8', '0', '0']

/-- A member that neither snapshots nor files have.  It holds an object with half of a pair. -/
def theme : Member :=
  tight "theme".toList (objectChars [tight half ['n', 'u', 'l', 'l']])

/-- Half of a pair can be written in a text. -/
theorem isText_half : IsText half :=
  .code rfl .nil

/-- A member without blanks is as it must be. -/
theorem proper_tight {name value : List Char} (h : IsText name) : (tight name value).Proper :=
  ⟨Json.blank_nil, h, Json.blank_nil, Json.blank_nil, Json.blank_nil⟩

/-- So it is well formed if its value is one. -/
theorem wellFormed_tight {name value : List Char} (hname : IsText name) (hvalue : IsValue value) :
    (tight name value).WellFormed :=
  ⟨proper_tight hname, hvalue⟩

/-- Plain characters make a text. -/
theorem isText_of_plain {cs : List Char} (h : cs.all Json.isPlain = true) : IsText cs :=
  (Json.spells_of_plain h).isText

/-- A digit is a number, if it is not zero. -/
theorem isValue_digit {c : Char} (hdigit : Text.isDigit c = true) (hzero : c ≠ '0') : IsValue [c] := by
  have hwhole : Json.IsWhole [c] := by
    refine .inr ⟨⟨List.cons_ne_nil _ _, ?_⟩, fun heq => hzero (Option.some.inj heq)⟩
    intro other hother
    rw [List.mem_singleton.mp hother]
    exact hdigit
  exact .number ⟨[], [c], [], [], rfl, .inl rfl, hwhole, .inl rfl, .inl rfl⟩

/-- The file of the example is well formed. -/
theorem wellFormed_draft : ∀ m ∈ draft, m.WellFormed := by
  intro m hm
  simp only [draft, List.mem_cons, List.not_mem_nil, or_false] at hm
  rcases hm with rfl | rfl | rfl | rfl
  · exact wellFormed_tight (isText_of_plain (by decide)) (.text (isText_of_plain (by decide)))
  · exact wellFormed_tight (isText_of_plain (by decide)) (.text (isText_of_plain (by decide)))
  · exact wellFormed_tight (isText_of_plain (by decide)) (isValue_digit rfl (by decide))
  · exact wellFormed_tight (isText_of_plain (by decide)) (.text (isText_of_plain (by decide)))

/-- So is its snapshot. -/
theorem wellFormed_lobby {files : List Char} (h : IsValue files) :
    ∀ m ∈ lobby files, m.WellFormed := by
  intro m hm
  simp only [lobby, List.mem_cons, List.not_mem_nil, or_false] at hm
  rcases hm with rfl | rfl | rfl | rfl | rfl
  · exact wellFormed_tight (isText_of_plain (by decide)) (.text (isText_of_plain (by decide)))
  · exact wellFormed_tight (isText_of_plain (by decide)) (.text (isText_of_plain (by decide)))
  · exact wellFormed_tight (isText_of_plain (by decide)) (.text (isText_of_plain (by decide)))
  · exact wellFormed_tight (isText_of_plain (by decide)) (isValue_digit rfl (by decide))
  · exact wellFormed_tight (isText_of_plain (by decide)) h

/-- A member of another name is surplus. -/
theorem surplus_theme {names : List String} (h : "theme" ∉ names) : theme.Surplus names := by
  have hinner : (tight half ['n', 'u', 'l', 'l']).WellFormed := wellFormed_tight isText_half .null
  have hvalue : IsValue (objectChars [tight half ['n', 'u', 'l', 'l']]) := by
    refine Json.isValue_objectChars fun m hm => ?_
    rw [List.mem_singleton.mp hm]
    exact hinner
  exact ⟨wellFormed_tight (isText_of_plain (by decide)) hvalue,
    _, Json.spells_of_plain (by decide), h⟩

/-- The members of an object in reverse, with a further one in front. -/
theorem objectRearranged_reverse {names : List String}
    {Varies : List Char → List Char → List Char → Prop} {ms kept : List Member} {m : Member}
    (hms : ∀ m ∈ ms, m.WellFormed) (hkept : List.Forall₂ (Member.Keeps Varies) ms kept)
    (hm : m.Surplus names) :
    ObjectRearranged names Varies (objectChars ms) (objectChars (m :: kept.reverse)) := by
  refine ⟨ms, kept, [m], _, rfl, rfl, hms, hkept, fun other hother => ?_, ?_⟩
  · rw [List.mem_singleton.mp hother]
    exact hm
  · exact (kept.reverse_perm.cons m).trans (List.perm_append_singleton m kept).symm

/-- Members that stay as they are keep what they give. -/
theorem keeps_self {Varies : List Char → List Char → List Char → Prop} {ms : List Member}
    (hms : ∀ m ∈ ms, m.WellFormed) : List.Forall₂ (Member.Keeps Varies) ms ms :=
  List.forall₂_same.mpr fun m hm => ⟨(hms m hm).proper, rfl, .inl rfl⟩

/-- The files of the lobby. -/
def written : List Char :=
  arrayChars [⟨[], objectChars draft, []⟩]

/-- The files of the lobby, rearranged. -/
def rewritten : List Char :=
  arrayChars [⟨[' '], objectChars (theme :: draft.reverse), ['\n']⟩]

/-- The list of files of the example is rearranged. -/
theorem filesRearranged_written : FilesRearranged written rewritten := by
  have hfile : ObjectRearranged FileDrop.fieldNames (fun _ _ _ => False) (objectChars draft)
      (objectChars (theme :: draft.reverse)) :=
    objectRearranged_reverse wellFormed_draft (keeps_self wellFormed_draft) (surplus_theme (by decide))
  refine ⟨_, _, rfl, rfl, fun item hitem => ?_, .cons ⟨⟨by decide, by decide⟩, .inr hfile⟩ .nil⟩
  rw [List.mem_singleton.mp hitem]
  exact ⟨⟨Json.blank_nil, Json.blank_nil⟩, Json.isValue_objectChars wellFormed_draft⟩

/-- It is a value. -/
theorem isValue_written : IsValue written := by
  have hitem : ∀ item ∈ [(⟨[], objectChars draft, []⟩ : Spaced)], item.Proper ∧ IsValue item.value := by
    intro item hitem
    rw [List.mem_singleton.mp hitem]
    exact ⟨⟨Json.blank_nil, Json.blank_nil⟩, Json.isValue_objectChars wellFormed_draft⟩
  exact .array (fun item h => (hitem item h).1) fun item h => (hitem item h).2

/-- The snapshot of the example is rearranged, with one member more. -/
theorem snapshotRearranged_lobby : SnapshotRearranged (objectChars (lobby written))
    (objectChars (theme :: (lobby rewritten).reverse)) := by
  have hms := wellFormed_lobby isValue_written
  have hfiles : Spells "fileDrops".toList "fileDrops".toList := Json.spells_of_plain (by decide)
  refine objectRearranged_reverse hms ?_ (surplus_theme (by decide))
  refine .cons ⟨(hms _ (by simp [lobby])).proper, rfl, .inl rfl⟩ ?_
  refine .cons ⟨(hms _ (by simp [lobby])).proper, rfl, .inl rfl⟩ ?_
  refine .cons ⟨(hms _ (by simp [lobby])).proper, rfl, .inl rfl⟩ ?_
  refine .cons ⟨(hms _ (by simp [lobby])).proper, rfl, .inl rfl⟩ ?_
  exact .cons ⟨proper_tight hfiles.isText, rfl, .inr ⟨hfiles, filesRearranged_written⟩⟩ .nil

/-- The lobby as a snapshot. -/
def lobbySnapshot : Snapshot where
  roomCode := "AB12"
  roomName := "Lobby"
  expiresAt := ⟨⟨2026, 10, 20, by decide⟩, ⟨9, 0, 0, 0, by decide, by decide, by decide, by decide⟩⟩
  occupantCount := 3
  isExpired := false
  notification := none
  fileDrops := [⟨"f1", "notes.txt", 7,
    ⟨⟨2026, 10, 20, by decide⟩, ⟨8, 30, 0, 0, by decide, by decide, by decide, by decide⟩⟩⟩]

/-- It is decoded. -/
theorem decodeText_lobby :
    Json.decodeText Snapshot.decoder (String.ofList (objectChars (lobby written))) =
      .ok lobbySnapshot := by
  rw [Json.decodeText_value _ (Json.isValue_objectChars (wellFormed_lobby isValue_written))]
  decide +kernel

/-- A lobby with one file, all members in reverse and a theme before each of the two objects. -/
theorem rearranged_snapshot_is_same_of_lobby :
    let document : Spaced := ⟨[], objectChars (lobby written), []⟩
    let document' : Spaced := ⟨['\n'], objectChars (theme :: (lobby rewritten).reverse), [' ']⟩
    Json.decodeText Snapshot.decoder (String.ofList document'.chars) = .ok lobbySnapshot ∧
      ∀ v : Visit, v.applySnapshot (String.ofList document'.chars) =
        v.applySnapshot (String.ofList document.chars) := by
  intro document document'
  have hok : Json.decodeText Snapshot.decoder (String.ofList document.chars) = .ok lobbySnapshot := by
    rw [Spaced.chars_bare]
    exact decodeText_lobby
  exact rearranged_snapshot_is_same ⟨Json.blank_nil, Json.blank_nil⟩ ⟨by decide, by decide⟩
    snapshotRearranged_lobby hok

/-- Half of a surrogate pair spells nothing: a member of that name makes a payload none. -/
theorem half_pair_is_no_name :
    (∀ m ∈ lobby written, m.WellFormed) ∧ (tight half ['n', 'u', 'l', 'l']).WellFormed ∧
      (∀ chars, Spells half chars → String.ofList chars ∉ Snapshot.fieldNames) ∧
      Json.decodeText Snapshot.decoder (String.ofList (objectChars (lobby written))) =
        .ok lobbySnapshot ∧
      Json.decodeText Snapshot.decoder (String.ofList
        (objectChars (tight half ['n', 'u', 'l', 'l'] :: lobby written))) =
        .error (.fault .malformed) := by
  have hlobby := wellFormed_lobby isValue_written
  have hhalf : (tight half ['n', 'u', 'l', 'l']).WellFormed := wellFormed_tight isText_half .null
  refine ⟨hlobby, hhalf, fun chars h => ?_, decodeText_lobby, ?_⟩
  · have hread : Json.textOf half = .unpaired none := by decide +kernel
    rw [h.textOf] at hread
    cases hread
  · rw [Json.decodeText_value _ (Json.isValue_objectChars (List.forall_mem_cons.mpr ⟨hhalf, hlobby⟩))]
    decide +kernel

end DropRoom.Room
