import DropRoom.Proofs.Url.PlainPath
import DropRoom.Url.Edit

namespace DropRoom.Url

/-!
# Paths of a server

The address of a path of the server can be made in two ways: the path is resolved as a reference, or
it takes the place of the path of an address.  Both give the path itself, but only the first drops
query and fragment of the address.

* `IsServerPath` — a path that follows the server in an address as it is written;
* `IsServerPath.join` — it is resolved as a reference;
* `IsServerPath.setPath` — it takes the place of a path.
-/

open Text (splitAt)

/-- A path of a server that is written as an address has it: one slash and a plain path. -/
def IsServerPath (path : String) : Prop :=
  ∃ rest, path.toList = '/' :: rest ∧ PlainPath rest ∧ rest.takeWhile isSlash = []

/-- The address of a path on the server of an address. -/
def onServer (base : Url) (path : String) : Url :=
  { base with
    path := .segments ((splitAt '/' (path.toList.drop 1)).map String.ofList)
    query := none
    fragment := none }

variable {base : Url} {path : String}

namespace IsServerPath

/-- The characters of a path of the server are visible, and none of them is dropped or encoded. -/
theorem stands (h : IsServerPath path) : ∀ c ∈ path.toList, standsInPath c = true := by
  obtain ⟨rest, hpath, hplain, _⟩ := h
  intro c hc
  rw [hpath] at hc
  rcases List.mem_cons.mp hc with rfl | hc
  · decide
  · exact hplain.characters c hc

theorem visible (h : IsServerPath path) : ∀ c ∈ path.toList, Visible c :=
  fun c hc => visible_of_standsInPath (h.stands c hc)

/-- A path of the server is that of its address. -/
theorem pathText_onServer (h : IsServerPath path) (base : Url) :
    (base.onServer path).pathText = path := by
  obtain ⟨rest, hpath, _⟩ := h
  have hchars : (base.onServer path).path.chars = path.toList := by
    show segmentChars ((splitAt '/' (path.toList.drop 1)).map String.ofList) = path.toList
    rw [hpath]
    exact segmentChars_splitAt rest
  rw [pathText, hchars, String.ofList_toList]

/-- **Resolved.** A path of the server is resolved to its address. -/
theorem join [DomainNames] (h : IsServerPath path) (hbase : base.IsWeb) :
    base.join path = .ok (base.onServer path) := by
  obtain ⟨rest, hpath, hplain, hslash⟩ := id h
  have hfile := scheme_ne_file_of_isHttp hbase.isHttp
  obtain ⟨items, hjoin⟩ := join_of_visible hbase h.visible hpath (by decide) (by decide)
  rw [hjoin, resolve_of_one_slash base items hslash, withRest_of_stands _ _ hplain.characters,
    appendText_of_plainPath hfile hplain, onServer, hpath]
  rfl

/-- **Replaced.** Where it takes the place of a path, query and fragment stay. -/
theorem setPath (h : IsServerPath path) (hbase : base.IsWeb) :
    base.setPath path =
      { base.onServer path with query := base.query, fragment := base.fragment } := by
  obtain ⟨items, hitems, _⟩ := hbase.path
  have hfile := scheme_ne_file_of_isHttp hbase.isHttp
  have hkept : withoutLineEnds path = path.toList := filter_of_visible h.visible
  obtain ⟨rest, hpath, hplain, _⟩ := h
  have hafter : pathAfterHost base.scheme ('/' :: rest) = appendText base.scheme [] rest := rfl
  rw [Url.setPath, hitems]
  simp only [hkept, onServer, hpath, hafter, appendText_of_plainPath hfile hplain]
  rfl

/-- Both are one address exactly if the server is given by an address without query and fragment. -/
theorem setPath_eq_onServer_iff (h : IsServerPath path) (hbase : base.IsWeb) :
    base.setPath path = base.onServer path ↔ base.query = none ∧ base.fragment = none := by
  rw [h.setPath hbase]
  constructor
  · intro hsame
    exact ⟨congrArg Url.query hsame, congrArg Url.fragment hsame⟩
  · rintro ⟨hquery, hfragment⟩
    rw [hquery, hfragment]
    rfl

end IsServerPath

end DropRoom.Url
