import DropRoom.Proofs.Api.Requests
import DropRoom.Proofs.Settings.Check
import DropRoom.Proofs.Url.Percent
import DropRoom.Proofs.Url.ServerPath
import DropRoom.Settings.Basic

namespace DropRoom.Api

/-!
# The addresses of files

The identifier of a file becomes a segment of a path, in which every character that would end the
segment is encoded.  What is dropped of an identifier before that is not told by the address: dots
alone add no segment at all, and tabs and line ends are left out, so that several identifiers may
have one address, and some the address of another path of the server.

* `told?` — what the address of a file tells of its identifier;
* `filePath` — the path of that address;
* `fileUrl_eq` — the address of a file, for every identifier that is not blank;
* `NamesFile`, `TellsAll` — an address with one segment for the whole identifier, and the identifiers
  that get one;
* `files_addressed_by_what_is_told` — two identifiers have one address exactly if they tell the same.
-/

open Settings (base_isWeb)

/-! ### Paths -/

/-- What the address of a file tells of its identifier: nothing of a dot or of two, and of any other
text all but its tabs and line ends. -/
def told? (id : String) : Option (List Char) :=
  if id = "." ∨ id = ".." then none else some (Url.withoutLineEnds id)

/-- The path of the address of a file.  Dots that are left when tabs and line ends are dropped move
within the path. -/
def filePath (id : String) : List String :=
  match told? id with
  | none => ["files"]
  | some ['.'] => ["files", ""]
  | some ['.', '.'] => [""]
  | some name => ["files", String.ofList (Url.percentEncode (Url.inSegment true) name)]

/-- The address of the file of an identifier, with the given address of the server. -/
def addressOf (base : Url) (id : String) : Url :=
  { base with path := .segments (filePath id) }

/-- The files are at a path of the server's own, without a query. -/
theorem endpoint_files {base : Url} (hbase : base.IsWeb) :
    endpoint base "/files" = { base with path := .segments ["files"] } := by
  have hserver : Url.IsServerPath "/files" := ⟨_, rfl, by decide, by decide⟩
  exact hserver.setPath hbase

/-- Only dots that are left of an identifier move within the path. -/
theorem resolveDots_files {scheme : String} (hscheme : scheme ≠ "file") {id : String}
    (hid : ¬ (id = "." ∨ id = "..")) :
    Url.resolveDots scheme ["files"] [String.ofList
      (Url.percentEncode (Url.inSegment true) (Url.withoutLineEnds id))] = filePath id := by
  have htold : told? id = some (Url.withoutLineEnds id) := if_neg hid
  rw [filePath, htold]
  split
  · rename_i hnone
    cases hnone
  · rename_i hdot
    rw [Option.some.inj hdot]
    rfl
  · rename_i hdots
    have hup : Url.goUp scheme ["files"] = [] := if_neg fun hdrive => hscheme hdrive.1
    rw [Option.some.inj hdots]
    show Url.goUp scheme ["files"] ++ [""] = [""]
    rw [hup, List.nil_append]
  · rename_i name hone htwo hname
    obtain rfl := Option.some.inj hname
    refine Url.resolveDots_of_no_dots hscheme ["files"] fun segment hsegment => ?_
    rw [List.mem_singleton.mp hsegment, Bool.eq_false_iff]
    -- a name that is encoded as dots is dots itself, and was taken care of
    intro hdots
    rcases Url.isDots_percentEncode (by decide) hdots with hdot | hdots
    · exact hone hdot
    · exact htwo hdots

/-- **The address of a file.** It differs from that of the server in its path, which depends on the
identifier alone. -/
theorem fileUrl_eq {base : Url} (hbase : base.IsWeb) {id : String} (hid : Text.isBlank id = false) :
    fileUrl base id = .ok (addressOf base id) := by
  have hspecial := Url.isSpecial_of_isHttp hbase.isHttp
  have hfile := Url.scheme_ne_file_of_isHttp hbase.isHttp
  have hfiles : ["files"] ≠ [""] := by decide
  rw [fileUrl, hid, endpoint_files hbase, Url.pushSegment]
  by_cases hdots : id = "." ∨ id = ".."
  · have hpath : filePath id = ["files"] := by rw [filePath, told?, if_pos hdots]
    simp only [if_pos hdots, addressOf, hpath, Bool.false_eq_true, if_false]
  · simp only [if_neg hdots, hspecial, if_neg hfiles, resolveDots_files hfile hdots,
      Bool.false_eq_true, if_false]
    rfl

/-! ### What a path tells -/

/-- What is encoded leaves no segment empty that was not. -/
theorem encoded_ne_empty {name : List Char} (h : name ≠ []) :
    String.ofList (Url.percentEncode (Url.inSegment true) name) ≠ "" := by
  intro hempty
  have hnil : Url.percentEncode (Url.inSegment true) name =
      Url.percentEncode (Url.inSegment true) [] := String.ofList_injective hempty
  exact h (Url.percentEncode_injective (by decide) hnil)

/-- The path of the address of a file: the files themselves, the root, or the files and a segment
that holds no mark of an address. -/
theorem filePath_cases (id : String) :
    (told? id = none ∧ filePath id = ["files"]) ∨
    (told? id = some ['.'] ∧ filePath id = ["files", ""]) ∨
    (told? id = some ['.', '.'] ∧ filePath id = [""]) ∨
    ∃ name, told? id = some name ∧
      filePath id = ["files", String.ofList (Url.percentEncode (Url.inSegment true) name)] := by
  rw [filePath]
  split
  · rename_i hnone
    exact .inl ⟨hnone, rfl⟩
  · rename_i hdot
    exact .inr (.inl ⟨hdot, rfl⟩)
  · rename_i hdots
    exact .inr (.inr (.inl ⟨hdots, rfl⟩))
  · rename_i name _ _ hname
    exact .inr (.inr (.inr ⟨name, hname, rfl⟩))

/-- Something is told of an identifier that is not blank. -/
theorem told?_ne_nil {id : String} (hid : Text.isBlank id = false) : told? id ≠ some [] := by
  intro hnil
  obtain ⟨c, hc, hvisible⟩ := List.all_eq_false.mp hid
  by_cases hdots : id = "." ∨ id = ".."
  · rw [told?, if_pos hdots] at hnil
    cases hnil
  · rw [told?, if_neg hdots] at hnil
    have hdropped := List.filter_eq_nil_iff.mp (Option.some.inj hnil) c hc
    apply hvisible
    -- what is dropped is blank
    simp only [Bool.not_eq_true', Bool.not_eq_false, Bool.or_eq_true, beq_iff_eq] at hdropped
    rcases hdropped with (rfl | rfl) | rfl
    · decide
    · decide
    · decide

/-- What the path of the address of a file tells of its identifier. -/
def toldBy : List String → Option (List Char)
  | [only] => if only = "" then some ['.', '.'] else none
  | [_, segment] =>
    if segment = "" then some ['.'] else some (Utf8.scan (Url.percentDecode segment.toList)).1
  | _ => none

/-- The segments of an identifier tell what is told of it. -/
theorem toldBy_filePath {id : String} (hid : Text.isBlank id = false) :
    toldBy (filePath id) = told? id := by
  rcases filePath_cases id with ⟨htold, hpath⟩ | ⟨htold, hpath⟩ | ⟨htold, hpath⟩ | ⟨name, htold, hpath⟩
  · rw [htold, hpath]
    rfl
  · rw [htold, hpath]
    rfl
  · rw [htold, hpath]
    rfl
  · have hname : name ≠ [] := by
      rintro rfl
      exact told?_ne_nil hid htold
    rw [htold, hpath, toldBy, if_neg (encoded_ne_empty hname), String.toList_ofList,
      Url.percentDecode_percentEncode (by decide), Utf8.scan_encodeChars]

/-! ### Addresses -/

/-- An address names a file by one segment after the files, which is not empty and stands for the
whole identifier. -/
def NamesFile (url : Url) (id : String) : Prop :=
  ∃ segment, url.path = .segments ["files", segment] ∧ segment ≠ "" ∧ '/' ∉ segment.toList ∧
    Url.percentDecode segment.toList = Utf8.encode id

/-- An identifier of which an address tells all. -/
def TellsAll (id : String) : Prop :=
  (id ≠ "." ∧ id ≠ "..") ∧ ∀ c ∈ id.toList, c ≠ '\t' ∧ c ≠ '\n' ∧ c ≠ '\r'

/-- An identifier loses no characters if it has neither tabulators nor line ends. -/
theorem withoutLineEnds_eq_self {id : String} :
    Url.withoutLineEnds id = id.toList ↔ ∀ c ∈ id.toList, c ≠ '\t' ∧ c ≠ '\n' ∧ c ≠ '\r' := by
  rw [Url.withoutLineEnds, List.filter_eq_self]
  simp only [Bool.not_eq_true', Bool.or_eq_false_iff, beq_eq_false_iff_ne, and_assoc]

/-- All of an identifier is told exactly if its characters are what is told. -/
theorem tellsAll_iff {id : String} : TellsAll id ↔ told? id = some id.toList := by
  rw [TellsAll, ← withoutLineEnds_eq_self, told?]
  by_cases hdots : id = "." ∨ id = ".."
  · rw [if_pos hdots]
    refine iff_of_false (fun hall => ?_) (by simp)
    rcases hdots with hdot | hdots
    · exact hall.1.1 hdot
    · exact hall.1.2 hdots
  · rw [if_neg hdots, Option.some.injEq]
    exact and_iff_right (not_or.mp hdots)

/-- The path of a file holds none of the marks that a segment encodes. -/
theorem not_mem_filePath {mark : Char} (hset : Url.inSegment true mark = true)
    (hmark : Url.isEncodingChar mark = false) (hfiles : mark ∉ "files".toList) (id : String) :
    ∀ item ∈ filePath id, mark ∉ item.toList := by
  intro item hitem
  have hempty : mark ∉ "".toList := List.not_mem_nil
  rcases filePath_cases id with ⟨_, hpath⟩ | ⟨_, hpath⟩ | ⟨_, hpath⟩ | ⟨name, _, hpath⟩
  · rw [hpath, List.mem_singleton] at hitem
    exact hitem ▸ hfiles
  · rw [hpath, List.mem_cons, List.mem_singleton] at hitem
    rcases hitem with rfl | rfl
    · exact hfiles
    · exact hempty
  · rw [hpath, List.mem_singleton] at hitem
    exact hitem ▸ hempty
  · rw [hpath, List.mem_cons, List.mem_singleton] at hitem
    rcases hitem with rfl | rfl
    · exact hfiles
    · rw [String.toList_ofList]
      exact Url.not_mem_percentEncode hset hmark name

/-- An identifier cannot leave its segment by a slash. -/
theorem slash_not_mem_filePath (id : String) : ∀ item ∈ filePath id, '/' ∉ item.toList :=
  not_mem_filePath (by decide) (by decide) (by decide) id

/-- The segments of an identifier are read back as they are. -/
theorem plainSegments_filePath (id : String) : Url.PlainSegments (filePath id) := by
  intro item hitem c hc
  have hquery : c ≠ '?' := by
    rintro rfl
    exact not_mem_filePath (by decide) (by decide) (by decide) id item hitem hc
  have hfragment : c ≠ '#' := by
    rintro rfl
    exact not_mem_filePath (by decide) (by decide) (by decide) id item hitem hc
  simp [Url.endsPath, hquery, hfragment]

theorem filePath_ne_nil (id : String) : filePath id ≠ [] := by
  rcases filePath_cases id with ⟨_, hpath⟩ | ⟨_, hpath⟩ | ⟨_, hpath⟩ | ⟨name, _, hpath⟩
  all_goals
    rw [hpath]
    exact List.cons_ne_nil _ _

/-- A file of a server of the web has an address of the web. -/
theorem addressOf_isWeb {base : Url} (hbase : base.IsWeb) (id : String) :
    (addressOf base id).IsWeb :=
  { hbase with path := ⟨filePath id, rfl, plainSegments_filePath id, filePath_ne_nil id⟩ }

/-- Exactly the identifiers of which an address tells all are named by their address. -/
theorem namesFile_iff (base : Url) {id : String} (hid : Text.isBlank id = false) :
    NamesFile (addressOf base id) id ↔ TellsAll id := by
  constructor
  · rintro ⟨segment, hsegment, hne, _, hdecode⟩
    have hpath : filePath id = ["files", segment] := Url.Path.segments.inj hsegment
    rw [tellsAll_iff, ← toldBy_filePath hid, hpath, toldBy, if_neg hne, hdecode, Utf8.encode,
      Utf8.scan_encodeChars]
  · intro hall
    have htold := tellsAll_iff.mp hall
    have hne : id.toList ≠ [] := by
      intro hnil
      exact told?_ne_nil hid (hnil ▸ htold)
    rcases filePath_cases id with ⟨hother, _⟩ | ⟨hother, _⟩ | ⟨hother, _⟩ | ⟨name, hname, hpath⟩
    · rw [htold] at hother
      cases hother
    -- the dots themselves were left out
    · have hdot : id.toList = ".".toList := Option.some.inj (htold.symm.trans hother)
      exact absurd (String.toList_injective hdot) hall.1.1
    · have hdots : id.toList = "..".toList := Option.some.inj (htold.symm.trans hother)
      exact absurd (String.toList_injective hdots) hall.1.2
    · obtain rfl : name = id.toList := Option.some.inj (hname.symm.trans htold)
      refine ⟨_, congrArg Url.Path.segments hpath, encoded_ne_empty hne, ?_, ?_⟩
      · rw [String.toList_ofList]
        exact Url.not_mem_percentEncode (by decide) (by decide) _
      · rw [String.toList_ofList, Url.percentDecode_percentEncode (by decide)]
        rfl

/-- Two files have the same address if the same is told of their identifiers. -/
theorem render_addressOf_eq_iff {base : Url} (hbase : base.IsWeb) {id other : String}
    (hid : Text.isBlank id = false) (hother : Text.isBlank other = false) :
    (addressOf base id).render = (addressOf base other).render ↔ told? id = told? other := by
  constructor
  · intro hrender
    have hpath : Url.segmentChars (filePath id) = Url.segmentChars (filePath other) :=
      (addressOf_isWeb hbase id).path_chars_eq (addressOf_isWeb hbase other) hrender
    rw [← toldBy_filePath hid, ← toldBy_filePath hother,
      Url.segmentChars_injective (slash_not_mem_filePath id) (slash_not_mem_filePath other) hpath]
  · intro htold
    rw [addressOf, addressOf, filePath, filePath, htold]

/-- **Addresses of files.** Every identifier that is not blank has an address on the server of
settings that pass their check, and a download asks for that address.  It names the file by one
segment that stands for the whole identifier exactly if all of the identifier is told.  Two
identifiers have one address exactly if the same is told of them, so never if all of both is told. -/
theorem files_addressed_by_what_is_told [Url.DomainNames] {settings : Settings}
    (hcheck : settings.check = .ok ())
    {id other : String} (hid : Text.isBlank id = false) (hother : Text.isBlank other = false) :
    ∃ base url otherUrl, settings.base = .ok base ∧
      fileUrl base id = .ok url ∧ fileUrl base other = .ok otherUrl ∧
      Asks (some ⟨"GET", url, .nothing⟩) (fun server => downloadAddress server base id) ∧
      url.origin = base.origin ∧ url.path = .segments (filePath id) ∧
      (NamesFile url id ↔ TellsAll id) ∧
      (url.render = otherUrl.render ↔ told? id = told? other) ∧
      (TellsAll id → TellsAll other → id ≠ other → url.render ≠ otherUrl.render) := by
  obtain ⟨base, hbase, hweb⟩ := base_isWeb hcheck
  have hurl := fileUrl_eq hweb hid
  have hasks := asks_downloadAddress base id
  rw [hurl] at hasks
  have hsame := render_addressOf_eq_iff hweb hid hother
  refine ⟨base, addressOf base id, addressOf base other, hbase, hurl, fileUrl_eq hweb hother, hasks,
    rfl, rfl, namesFile_iff base hid, hsame, fun hall hallOther hne hrender => hne ?_⟩
  have htold := hsame.mp hrender
  rw [tellsAll_iff.mp hall, tellsAll_iff.mp hallOther] at htold
  exact String.toList_injective (Option.some.inj htold)

/-- Two identifiers that differ in a tab have one address, which names only one of them. -/
theorem tab_is_not_told :
    Settings.initial.check = .ok () ∧ Text.isBlank "a\tb" = false ∧ Text.isBlank "ab" = false ∧
      ∃ base url otherUrl, Settings.initial.base = .ok base ∧
        fileUrl base "a\tb" = .ok url ∧ fileUrl base "ab" = .ok otherUrl ∧
        url.render = otherUrl.render ∧ ¬ NamesFile url "a\tb" := by
  have hcheck : Settings.initial.check = .ok () := by decide
  have hid : Text.isBlank "a\tb" = false := by decide
  have hother : Text.isBlank "ab" = false := by decide
  have htold : told? "a\tb" = told? "ab" := by decide
  have hpart : ¬ TellsAll "a\tb" := by
    intro hall
    exact (hall.2 '\t' (by decide)).1 rfl
  obtain ⟨base, url, otherUrl, hbase, hurl, hotherUrl, _, _, _, hnames, hsame, _⟩ :=
    files_addressed_by_what_is_told hcheck hid hother
  exact ⟨hcheck, hid, hother, base, url, otherUrl, hbase, hurl, hotherUrl, hsame.mpr htold,
    fun hnamed => hpart (hnames.mp hnamed)⟩

end DropRoom.Api
