import DropRoom.Proofs.Url.Reference
import Mathlib.Data.List.TakeWhile

namespace DropRoom.Url

/-!
# Paths that are written as they are read

A reference that is a path is not always found again in the address that it is resolved to:
characters are encoded, a query is no part of the path, and dots move within it.

* `PlainPath` — a text to which nothing of this happens;
* `segmentChars_appendText` — a plain path is appended as it is written;
* `suffix_path_of_plain` — so it ends the path of the address that it is resolved to;
* `plain_of_suffix_path` — after one slash, nothing but a plain path does.
-/

open DropRoom.Text

/-! ### Characters -/

/-- A character that a path holds as it is. -/
def standsInPath (c : Char) : Bool :=
  !(alwaysEncoded c || inPath c) && c != '\\'

theorem standsInPath_iff {c : Char} :
    standsInPath c = true ↔ (alwaysEncoded c || inPath c) = false ∧ c ≠ '\\' := by
  simp [standsInPath]

theorem visible_of_standsInPath {c : Char} (h : standsInPath c = true) : Visible c := by
  obtain ⟨hencoded, _⟩ := standsInPath_iff.mp h
  obtain ⟨halways, hpath⟩ := Bool.or_eq_false_iff.mp hencoded
  have hlow : ¬ c.toNat < 0x20 := by
    intro hlow
    simp [alwaysEncoded, hlow] at halways
  have hblank : c.toNat ≠ 0x20 := by
    intro hblank
    have hc : c = ' ' := Char.toNat_inj.mp hblank
    rw [hc] at hpath
    cases hpath
  rw [Visible]
  omega

theorem endsPath_of_standsInPath {c : Char} (h : standsInPath c = true) : endsPath c = false := by
  have hne (mark : Char) (hmark : standsInPath mark = false) : c ≠ mark := by
    rintro rfl
    rw [h] at hmark
    cases hmark
  simp [endsPath, hne '?' (by decide), hne '#' (by decide)]

theorem standsInPath_of_isEncodingChar {c : Char} (h : isEncodingChar c = true) :
    standsInPath c = true := by
  have hne (mark : Char) (hmark : isEncodingChar mark = false) : c ≠ mark := by
    rintro rfl
    rw [h] at hmark
    cases hmark
  have hrange : 0x25 ≤ c.toNat ∧ c.toNat ≤ 0x46 := by
    simp only [isEncodingChar, isDigit, Bool.or_eq_true, beq_iff_eq, Bool.and_eq_true,
      decide_eq_true_eq, Char.le_def, UInt32.le_iff_toNat_le] at h
    rcases h with (rfl | ⟨hlow, hhigh⟩) | ⟨hlow, hhigh⟩
    · decide
    · have hdigits : 0x30 ≤ c.toNat ∧ c.toNat ≤ 0x39 := ⟨hlow, hhigh⟩
      omega
    · have hletters : 0x41 ≤ c.toNat ∧ c.toNat ≤ 0x46 := ⟨hlow, hhigh⟩
      omega
  have hlow : ¬ c.toNat < 0x20 := by omega
  have hhigh : ¬ 0x7F ≤ c.toNat := by omega
  simp [standsInPath, alwaysEncoded, inPath, inFragment, hlow, hhigh, hne ' ' (by decide),
    hne '"' (by decide), hne '<' (by decide), hne '>' (by decide), hne '\x60' (by decide),
    hne '#' (by decide), hne '?' (by decide), hne '{' (by decide), hne '}' (by decide),
    hne '\\' (by decide)]

/-- What a path does not hold as it is, an encoded segment does not hold. -/
theorem standsInPath_of_mem_percentEncode {cs : List Char} (hcs : '\\' ∉ cs) {c : Char}
    (h : c ∈ percentEncode inPath cs) : standsInPath c = true := by
  rcases mem_percentEncode h with hencoding | ⟨hmem, hplain⟩
  · exact standsInPath_of_isEncodingChar hencoding
  · refine standsInPath_iff.mpr ⟨hplain, ?_⟩
    rintro rfl
    exact hcs hmem

/-- What stands in a path as it is written is not encoded. -/
theorem percentEncode_eq_self {cs : List Char} (h : ∀ c ∈ cs, standsInPath c = true) :
    percentEncode inPath cs = cs := by
  induction cs with
  | nil => rfl
  | cons c cs ih =>
    obtain ⟨hplain, _⟩ := standsInPath_iff.mp (h c List.mem_cons_self)
    have hrest := ih fun d hd => h d (List.mem_cons_of_mem c hd)
    rw [percentEncode, List.flatMap_cons, hplain]
    show c :: percentEncode inPath cs = _
    rw [hrest]

/-! ### Segments -/

theorem mem_of_mem_splitAt {sep c : Char} {cs piece : List Char} (hpiece : piece ∈ splitAt sep cs)
    (hc : c ∈ piece) : c ∈ cs := by
  induction cs generalizing piece with
  | nil =>
    rw [splitAt, List.mem_singleton] at hpiece
    rwa [hpiece] at hc
  | cons d cs ih =>
    rw [splitAt] at hpiece
    split at hpiece
    · rcases List.mem_cons.mp hpiece with rfl | hpiece
      · cases hc
      · exact List.mem_cons_of_mem d (ih hpiece hc)
    · split at hpiece
      · rename_i hsplit
        exact absurd hsplit (splitAt_ne_nil sep cs)
      · rename_i first pieces hsplit
        rcases List.mem_cons.mp hpiece with rfl | hpiece
        · rcases List.mem_cons.mp hc with rfl | hc
          · exact List.mem_cons_self
          · exact List.mem_cons_of_mem d (ih (hsplit ▸ List.mem_cons_self) hc)
        · exact List.mem_cons_of_mem d (ih (hsplit ▸ List.mem_cons_of_mem first hpiece) hc)

/-- The segments of a text, each after a slash, are a slash and the text. -/
theorem segmentChars_splitAt (cs : List Char) :
    segmentChars ((splitAt '/' cs).map String.ofList) = '/' :: cs := by
  induction cs with
  | nil => rfl
  | cons c cs ih =>
    rw [splitAt]
    split
    · rename_i hslash
      rw [hslash, List.map_cons, segmentChars, List.flatMap_cons]
      show '/' :: segmentChars _ = _
      rw [ih]
    · split
      · rename_i hsplit
        exact absurd hsplit (splitAt_ne_nil '/' cs)
      · rename_i first pieces hsplit
        have hcs : first ++ segmentChars (pieces.map String.ofList) = cs := by
          rw [hsplit] at ih
          simpa [segmentChars] using ih
        simpa [segmentChars] using hcs

theorem splitSegments_of_not_mem {special : Bool} {cs : List Char} (h : '\\' ∉ cs) :
    splitSegments special cs = splitAt '/' cs := by
  have hmap : cs.map (fun c => if c = '\\' then '/' else c) = cs.map id :=
    List.map_congr_left fun c hc => if_neg (by rintro rfl; exact h hc)
  rw [splitSegments, hmap, List.map_id, ite_self]

/-! ### Dots -/

/-- A segment that moves within a path. -/
def isDots (segment : String) : Bool :=
  isSingleDot segment || isDoubleDot segment

theorem segmentChars_append (a b : List String) :
    segmentChars (a ++ b) = segmentChars a ++ segmentChars b :=
  List.flatMap_append

/-- Segments without slashes can be told from the text of their path. -/
theorem segmentChars_injective {a b : List String} (ha : ∀ item ∈ a, '/' ∉ item.toList)
    (hb : ∀ item ∈ b, '/' ∉ item.toList) (h : segmentChars a = segmentChars b) : a = b := by
  -- what follows a segment is nothing, or starts with a slash
  have hfirst {item : String} (hitem : '/' ∉ item.toList) (items : List String) :
      (item.toList ++ segmentChars items).takeWhile (· ≠ '/') = item.toList := by
    have hplain : ∀ c ∈ item.toList, decide (c ≠ '/') = true := by
      intro c hc
      rw [decide_eq_true_eq]
      rintro rfl
      exact hitem hc
    rw [List.takeWhile_append_of_pos hplain]
    cases items with
    | nil => exact List.append_nil _
    | cons next items => exact List.append_nil _
  induction a generalizing b with
  | nil =>
    cases b with
    | nil => rfl
    | cons item items => cases h
  | cons item items ih =>
    cases b with
    | nil => cases h
    | cons other others =>
      have htail : item.toList ++ segmentChars items = other.toList ++ segmentChars others :=
        (List.cons.inj h).2
      have hitem : item.toList = other.toList := by
        rw [← hfirst (ha item List.mem_cons_self) items, htail,
          hfirst (hb other List.mem_cons_self) others]
      rw [hitem] at htail
      rw [String.toList_injective hitem, ih (fun item hitem => ha item (List.mem_cons_of_mem _ hitem))
        (fun item hitem => hb item (List.mem_cons_of_mem _ hitem)) (List.append_cancel_left htail)]

theorem length_segmentChars_cons (item : String) (items : List String) :
    (segmentChars (item :: items)).length =
      item.toList.length + 1 + (segmentChars items).length := by
  rw [segmentChars, List.flatMap_cons, List.length_append, List.length_cons, segmentChars]

theorem length_segmentChars_snoc (items : List String) (item : String) :
    (segmentChars (items ++ [item])).length =
      (segmentChars items).length + item.toList.length + 1 := by
  rw [segmentChars_append, List.length_append, length_segmentChars_cons]
  show (segmentChars items).length + (item.toList.length + 1 + 0) = _
  omega

theorem length_pos_of_isDots {segment : String} (h : isDots segment = true) :
    0 < segment.toList.length := by
  rw [List.length_pos_iff]
  intro hnil
  rw [String.toList_eq_nil_iff.mp hnil] at h
  revert h
  decide

theorem length_goUp_le (scheme : String) (path : List String) :
    (segmentChars (goUp scheme path)).length ≤ (segmentChars path).length := by
  have hdrop : (segmentChars path.dropLast).length ≤ (segmentChars path).length := by
    rcases List.eq_nil_or_concat path with rfl | ⟨items, item, rfl⟩
    · exact Nat.le_refl _
    · rw [List.concat_eq_append, List.dropLast_concat, length_segmentChars_snoc]
      omega
  unfold goUp
  split
  · split
    · exact Nat.le_refl _
    · exact hdrop
  · exact hdrop

section

variable {scheme : String} (hscheme : scheme ≠ "file")
include hscheme

theorem append_eq (path : List String) (segment : String) :
    append scheme path segment = path ++ [segment] := by
  rw [append, if_neg fun h => hscheme h.1]

/-- Without dots, segments are appended as they are. -/
theorem resolveDots_of_no_dots (path : List String) {segments : List String}
    (h : ∀ segment ∈ segments, isDots segment = false) :
    resolveDots scheme path segments = path ++ segments := by
  fun_induction resolveDots scheme path segments with
  | case1 path => rw [List.append_nil]
  | case2 path last hdouble => simp [isDots, hdouble] at h
  | case3 path last hdouble hsingle => simp [isDots, hsingle] at h
  | case4 path last hdouble hsingle => exact append_eq hscheme path last
  | case5 path segment more hmore hdouble ih => simp [isDots, hdouble] at h
  | case6 path segment more hmore hdouble hsingle ih => simp [isDots, hsingle] at h
  | case7 path segment more hmore hdouble hsingle ih =>
    rw [ih fun other hother => h other (List.mem_cons_of_mem segment hother),
      append_eq hscheme, List.append_assoc, List.singleton_append]

/-- Dots make a path shorter than the text of its segments. -/
theorem length_resolveDots (path segments : List String) :
    (segmentChars (resolveDots scheme path segments)).length ≤
        (segmentChars path).length + (segmentChars segments).length ∧
      ((∃ segment ∈ segments, isDots segment = true) →
        (segmentChars (resolveDots scheme path segments)).length <
          (segmentChars path).length + (segmentChars segments).length) := by
  have hnil : (segmentChars []).length = 0 := rfl
  have hempty : "".toList.length = 0 := rfl
  fun_induction resolveDots scheme path segments with
  | case1 path => simp [segmentChars]
  | case2 path last hdouble =>
    have hlast : 0 < last.toList.length := length_pos_of_isDots (by simp [isDots, hdouble])
    have hup := length_goUp_le scheme path
    rw [length_segmentChars_snoc, length_segmentChars_cons]
    omega
  | case3 path last hdouble hsingle =>
    have hlast : 0 < last.toList.length := length_pos_of_isDots (by simp [isDots, hsingle])
    rw [length_segmentChars_snoc, length_segmentChars_cons]
    omega
  | case4 path last hdouble hsingle =>
    rw [append_eq hscheme, length_segmentChars_snoc, length_segmentChars_cons]
    simp [isDots, hdouble, hsingle]
    omega
  | case5 path segment more hmore hdouble ih =>
    have hsegment : 0 < segment.toList.length := length_pos_of_isDots (by simp [isDots, hdouble])
    have hup := length_goUp_le scheme path
    rw [length_segmentChars_cons]
    omega
  | case6 path segment more hmore hdouble hsingle ih =>
    have hsegment : 0 < segment.toList.length := length_pos_of_isDots (by simp [isDots, hsingle])
    rw [length_segmentChars_cons]
    omega
  | case7 path segment more hmore hdouble hsingle ih =>
    obtain ⟨hle, hlt⟩ := ih
    rw [append_eq hscheme] at hle hlt ⊢
    rw [length_segmentChars_snoc] at hle hlt
    rw [length_segmentChars_cons]
    refine ⟨by omega, ?_⟩
    rintro ⟨other, hother, hdots⟩
    -- the segment that was appended is none of dots
    rcases List.mem_cons.mp hother with rfl | hother
    · simp [isDots, hdouble, hsingle] at hdots
    · have hshorter := hlt ⟨other, hother, hdots⟩
      omega

end

/-! ### Plain paths -/

/-- A text that is found in a path as it is written: nothing in it is encoded, ends the path or moves
within it. -/
structure PlainPath (cs : List Char) : Prop where
  characters : ∀ c ∈ cs, standsInPath c = true
  segments : ∀ segment ∈ splitAt '/' cs, isDots (String.ofList segment) = false

theorem plainPath_iff_all {cs : List Char} :
    PlainPath cs ↔ cs.all standsInPath = true ∧
      (splitAt '/' cs).all (fun segment => !isDots (String.ofList segment)) = true := by
  constructor
  · rintro ⟨hcharacters, hsegments⟩
    exact ⟨List.all_eq_true.mpr hcharacters, by simpa using hsegments⟩
  · rintro ⟨hcharacters, hsegments⟩
    exact ⟨List.all_eq_true.mp hcharacters, by simpa using hsegments⟩

instance (cs : List Char) : Decidable (PlainPath cs) :=
  decidable_of_iff _ plainPath_iff_all.symm

theorem PlainPath.of_slash {cs : List Char} (h : PlainPath ('/' :: cs)) : PlainPath cs :=
  ⟨fun c hc => h.characters c (List.mem_cons_of_mem _ hc),
    fun segment hsegment => h.segments segment (List.mem_cons_of_mem _ hsegment)⟩

section

variable {scheme : String} (hscheme : scheme ≠ "file")
include hscheme

/-- Characters of a path are not encoded when they are appended. -/
theorem appendText_of_stands {cs : List Char} (hcs : ∀ c ∈ cs, standsInPath c = true)
    (path : List String) :
    appendText scheme path cs =
      resolveDots scheme path ((splitAt '/' cs).map String.ofList) := by
  have hbackslash : '\\' ∉ cs := fun hmem => (standsInPath_iff.mp (hcs '\\' hmem)).2 rfl
  have hencoded : (splitAt '/' cs).map (fun segment => String.ofList (percentEncode inPath segment)) =
      (splitAt '/' cs).map String.ofList :=
    List.map_congr_left fun segment hsegment => by
      rw [percentEncode_eq_self fun c hc => hcs c (mem_of_mem_splitAt hsegment hc)]
  simp only [appendText, if_neg hscheme]
  rw [splitSegments_of_not_mem hbackslash, hencoded]

/-- The segments of a plain path are appended. -/
theorem appendText_of_plainPath {cs : List Char} (h : PlainPath cs) (path : List String) :
    appendText scheme path cs = path ++ (splitAt '/' cs).map String.ofList := by
  have hdots : ∀ segment ∈ (splitAt '/' cs).map String.ofList, isDots segment = false := by
    intro item hitem
    obtain ⟨segment, hsegment, rfl⟩ := List.mem_map.mp hitem
    exact h.segments segment hsegment
  rw [appendText_of_stands hscheme h.characters, resolveDots_of_no_dots hscheme path hdots]

/-- **Plain paths.** A plain path is appended as it is written. -/
theorem segmentChars_appendText {cs : List Char} (h : PlainPath cs) (path : List String) :
    segmentChars (appendText scheme path cs) = segmentChars path ++ '/' :: cs := by
  rw [appendText_of_plainPath hscheme h, segmentChars_append, segmentChars_splitAt]

/-- What is appended to an empty path holds only characters of a path. -/
theorem standsInPath_of_mem_appendText (hspecial : isSpecial scheme = true) {cs : List Char}
    {c : Char} (h : c ∈ segmentChars (appendText scheme [] cs)) : standsInPath c = true := by
  obtain ⟨item, hitem, hc⟩ := List.mem_flatMap.mp h
  rcases List.mem_cons.mp hc with rfl | hc
  · decide
  · simp only [appendText, if_neg hscheme] at hitem
    rcases mem_resolveDots hscheme [] _ hitem with hold | hnew | rfl
    · cases hold
    · obtain ⟨segment, hsegment, rfl⟩ := List.mem_map.mp hnew
      rw [String.toList_ofList] at hc
      refine standsInPath_of_mem_percentEncode (fun hmem => ?_) hc
      -- backslashes have become slashes before the segments are split
      rw [splitSegments, if_pos hspecial] at hsegment
      obtain ⟨d, _, hd⟩ := List.mem_map.mp (mem_of_mem_splitAt hsegment hmem)
      split at hd
      · cases hd
      · rename_i hbackslash
        exact hbackslash hd
    · cases hc

/-- What ends the path that it makes is a plain path: dots would make it shorter. -/
theorem plainPath_of_suffix_appendText {cs : List Char} (hcs : ∀ c ∈ cs, standsInPath c = true)
    (h : ('/' :: cs) <:+ segmentChars (appendText scheme [] cs)) : PlainPath cs := by
  refine ⟨hcs, fun segment hsegment => ?_⟩
  rw [appendText_of_stands hscheme hcs] at h
  have hle := h.length_le
  have hlt := (length_resolveDots hscheme [] ((splitAt '/' cs).map String.ofList)).2
  rw [segmentChars_splitAt] at hlt
  cases hdots : isDots (String.ofList segment) with
  | false => rfl
  | true =>
    have hshorter := hlt ⟨String.ofList segment, List.mem_map.mpr ⟨segment, hsegment, rfl⟩, hdots⟩
    have hnil : (segmentChars []).length = 0 := rfl
    omega

end

/-! ### References -/

variable {base url : Url}

/-- A reference with one slash replaces the whole path. -/
theorem resolve_of_one_slash [DomainNames] (base : Url) (items : List String) {rest : List Char}
    (hslash : rest.takeWhile isSlash = []) :
    resolve base items ('/' :: rest) =
      .ok (base.withRest (fun path => .segments (appendText base.scheme [] path)) rest) := by
  have hlength : ¬ (('/' :: rest).takeWhile isSlash).length ≥ 2 := by
    rw [List.takeWhile_cons_of_pos rfl, hslash]
    decide
  rw [resolve, if_pos (.inl rfl), if_neg hlength]
  · decide
  · decide

/-- One without a slash replaces the end of the path. -/
theorem resolve_of_no_slash [DomainNames] (base : Url) (items : List String) {c : Char}
    (rest : List Char) (hc : standsInPath c = true) (hslash : c ≠ '/') :
    resolve base items (c :: rest) =
      .ok (base.withRest
        (fun path => .segments (appendText base.scheme (goUp base.scheme items) path))
        (c :: rest)) := by
  have hne (mark : Char) (hmark : standsInPath mark = false) : c ≠ mark := by
    rintro rfl
    rw [hc] at hmark
    cases hmark
  rw [resolve, if_neg]
  · rintro (rfl | ⟨_, rfl⟩)
    · exact hslash rfl
    · exact hne '\\' (by decide) rfl
  · exact hne '?' (by decide)
  · exact hne '#' (by decide)

/-- A text without the marks of a query and a fragment is all path, and neither of them is left. -/
theorem withRest_of_stands (base : Url) (readPath : List Char → Path) {cs : List Char}
    (hcs : ∀ c ∈ cs, standsInPath c = true) :
    base.withRest readPath cs =
      { base with path := readPath cs, query := none, fragment := none } := by
  have hplain : ∀ c ∈ cs, (!endsPath c) = true := fun c hc => by
    rw [endsPath_of_standsInPath (hcs c hc)]
    rfl
  have htake : cs.takeWhile (fun c => !endsPath c) = cs := List.takeWhile_eq_self_iff.mpr hplain
  have hdrop : cs.dropWhile (fun c => !endsPath c) = [] := List.dropWhile_eq_nil_iff.mpr hplain
  rw [withRest, splitBefore, htake, hdrop]
  rfl

theorem path_withRest (base : Url) (readPath : List Char → Path) {cs : List Char}
    (hcs : ∀ c ∈ cs, standsInPath c = true) : (base.withRest readPath cs).path = readPath cs := by
  rw [withRest_of_stands base readPath hcs]

/-- A reference that names neither a scheme nor a host. -/
def StaysOnServer (reference : String) : Prop :=
  scheme? (normalized reference) = none ∧ ((normalized reference).takeWhile isSlash).length < 2

/-- **Found again.** A plain path is resolved on the server of the base, and ends the path that it is
resolved to. -/
theorem suffix_path_of_plain [DomainNames] (hbase : base.IsWeb) {reference : String}
    (hplain : PlainPath reference.toList) (hserver : StaysOnServer reference) :
    ∃ url, base.join reference = .ok url ∧ url.origin = base.origin ∧
      reference.toList <:+ url.path.chars := by
  obtain ⟨items, hitems, _⟩ := hbase.path
  have hfile := scheme_ne_file_of_isHttp hbase.isHttp
  have hnormalized := normalized_of_visible fun c hc =>
    visible_of_standsInPath (hplain.characters c hc)
  obtain ⟨hscheme, hslashes⟩ := hserver
  rw [hnormalized] at hscheme hslashes
  have hjoin : base.join reference = resolve base items reference.toList := by
    rw [join_of_no_scheme hitems, hnormalized]
    · rwa [hnormalized]
    · intro rest heq
      have hmark := hplain.characters '#' (hnormalized ▸ heq ▸ List.mem_cons_self)
      cases hmark
  rw [hjoin]
  -- an empty reference is the base, a slash begins the path anew, and all else is appended to the
  -- directory of the base
  cases hreference : reference.toList with
  | nil => exact ⟨_, rfl, rfl, List.nil_suffix⟩
  | cons c rest =>
    rw [hreference] at hplain hslashes
    by_cases hslash : c = '/'
    · subst hslash
      have hrest : rest.takeWhile isSlash = [] := by
        rw [List.takeWhile_cons_of_pos rfl, List.length_cons] at hslashes
        exact List.length_eq_zero_iff.mp (by omega)
      refine ⟨_, resolve_of_one_slash base items hrest, origin_withRest _ _ _, ?_⟩
      rw [path_withRest _ _ hplain.of_slash.characters]
      show _ <:+ segmentChars _
      rw [segmentChars_appendText hfile hplain.of_slash]
      exact List.suffix_append _ _
    · refine ⟨_, resolve_of_no_slash base items rest (hplain.characters c List.mem_cons_self) hslash,
        origin_withRest _ _ _, ?_⟩
      rw [path_withRest _ _ hplain.characters]
      show _ <:+ segmentChars _
      rw [segmentChars_appendText hfile hplain]
      exact (List.suffix_cons '/' _).trans (List.suffix_append _ _)

/-- **Nothing else.** What starts with one slash and ends the path that it is resolved to is a plain
path. -/
theorem plainPath_of_suffix_path [DomainNames] (hbase : base.IsWeb) {reference : String}
    {rest : List Char}
    (hreference : normalized reference = '/' :: rest) (hslash : rest.takeWhile isSlash = [])
    (h : base.join reference = .ok url) (hsuffix : reference.toList <:+ url.path.chars) :
    PlainPath reference.toList := by
  obtain ⟨items, hitems, _⟩ := hbase.path
  have hfile := scheme_ne_file_of_isHttp hbase.isHttp
  have hspecial := isSpecial_of_isHttp hbase.isHttp
  have hjoin : base.join reference = resolve base items ('/' :: rest) := by
    rw [join_of_no_scheme hitems, hreference]
    · rw [hreference]
      rfl
    · intro _ heq
      rw [hreference] at heq
      cases heq
  rw [hjoin, resolve_of_one_slash base items hslash] at h
  cases h
  -- all characters of the path stand there as they are, so nothing was dropped from the reference
  have hstands : ∀ c ∈ reference.toList, standsInPath c = true := fun c hc =>
    standsInPath_of_mem_appendText hfile hspecial (hsuffix.subset hc)
  rw [normalized_of_visible fun c hc => visible_of_standsInPath (hstands c hc)] at hreference
  rw [hreference] at hstands hsuffix ⊢
  have hrest : ∀ c ∈ rest, standsInPath c = true := fun c hc =>
    hstands c (List.mem_cons_of_mem _ hc)
  rw [path_withRest _ _ hrest] at hsuffix
  obtain ⟨hcharacters, hsegments⟩ := plainPath_of_suffix_appendText hfile hrest hsuffix
  refine ⟨hstands, fun segment hsegment => ?_⟩
  rcases List.mem_cons.mp hsegment with rfl | hsegment
  · decide
  · exact hsegments segment hsegment

end DropRoom.Url
