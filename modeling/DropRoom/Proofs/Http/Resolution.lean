import DropRoom.Http.Target
import DropRoom.Proofs.Url.Reference

namespace DropRoom.Http.Target

/-!
# The server that a target belongs to

The target of a request is resolved on the server.  A path that starts with two slashes is no path
there: as a reference it names a host of its own.

* `namesHost` — whether a target starts with two slashes;
* `path_of_parse?` — what a path that was read looks like;
* `resolve_on_server_or_named_host` — the server that a target belongs to.
-/

open DropRoom.Url

/-- Whether a target starts with two slashes or backslashes. -/
def namesHost : Target → Bool
  | .path text => 2 ≤ (text.toList.takeWhile isSlash).length
  | .address _ _ _ => false
  | .host _ => false

/-! ### The characters of a path -/

/-- A character of a path is not one that a reader of addresses drops. -/
theorem visible_of_isPathChar {c : Char} (h : isPathChar c = true) : Visible c := by
  rw [isPathChar, Bool.and_eq_true, decide_eq_true_eq] at h
  exact h.1

/-- Nor is a character of a query. -/
theorem visible_of_isQueryChar {c : Char} (h : isQueryChar c = true) : Visible c := by
  rw [isQueryChar, Bool.and_eq_true, decide_eq_true_eq] at h
  exact h.1

/-- A path before the mark of its query, and what starts there. -/
theorem pathWithQuery?_cases {cs path : List Char} (h : pathWithQuery? cs = some path) :
    ∃ before query, before = (withoutFragment cs).takeWhile (fun c => decide (c ≠ '?')) ∧
      query = (withoutFragment cs).dropWhile (fun c => decide (c ≠ '?')) ∧
      before.all isPathChar = true ∧ query.tail.all isQueryChar = true ∧
      path = (if before = [] then ['/'] else before) ++ query := by
  simp only [pathWithQuery?] at h
  split at h
  · rename_i hall
    obtain ⟨hbefore, hquery⟩ := Bool.and_eq_true_iff.mp hall
    exact ⟨_, _, rfl, rfl, hbefore, hquery, (Option.some.inj h).symm⟩
  · cases h

/-- A path with its query is made of visible characters. -/
theorem visible_of_pathWithQuery? {cs path : List Char} (h : pathWithQuery? cs = some path) :
    ∀ c ∈ path, Visible c := by
  obtain ⟨before, query, _, hdrop, hbefore, hquery, rfl⟩ := pathWithQuery?_cases h
  intro c hc
  rcases List.mem_append.mp hc with hc | hc
  · split at hc
    · rw [List.mem_singleton.mp hc]
      show 32 < '/'.toNat
      decide
    · exact visible_of_isPathChar (List.all_eq_true.mp hbefore c hc)
  · -- the query starts with its mark
    have hhead := List.head?_dropWhile_not (fun c => decide (c ≠ '?')) (withoutFragment cs)
    rw [← hdrop] at hhead
    cases query with
    | nil => cases hc
    | cons mark tail =>
      have hmark : mark = '?' := by simpa using hhead
      rcases List.mem_cons.mp hc with rfl | htail
      · rw [hmark]
        show 32 < '?'.toNat
        decide
      · exact visible_of_isQueryChar (List.all_eq_true.mp hquery c htail)

/-- The path of a text that starts with a slash starts with it too. -/
theorem slash_of_pathWithQuery? {cs path : List Char}
    (h : pathWithQuery? ('/' :: cs) = some path) : ∃ rest, path = '/' :: rest := by
  obtain ⟨before, query, htake, _, _, _, rfl⟩ := pathWithQuery?_cases h
  rw [htake]
  exact ⟨_, rfl⟩

/-- A path that was read is made of visible characters, and is the mark of the server as a whole or
starts with a slash. -/
theorem path_of_parse? {text path : String} (h : parse? text = some (.path path)) :
    (∀ c ∈ path.toList, Visible c) ∧ (path = "*" ∨ ∃ rest, path.toList = '/' :: rest) := by
  unfold parse? at h
  split at h
  · cases h
  · split at h
    · cases h
    · cases h
      refine ⟨?_, .inl rfl⟩
      intro c hc
      rw [List.mem_singleton.mp hc]
      show 32 < '*'.toNat
      decide
    · obtain ⟨found, hfound, hpath⟩ := Option.map_eq_some_iff.mp h
      cases hpath
      rw [String.toList_ofList]
      exact ⟨visible_of_pathWithQuery? hfound, .inr (slash_of_pathWithQuery? hfound)⟩
    · -- full addresses and hosts are no paths
      split at h
      · simp only [address?] at h
        split at h
        · cases h
        · obtain ⟨_, _, hpath⟩ := Option.map_eq_some_iff.mp h
          cases hpath
      · split at h
        · cases h
        · cases h

/-! ### Resolving -/

/-- **The server of a target.** A target other than a full address that does not start with two
slashes is resolved, and to an address of the server itself.  One that does stands for the address
that it names after the scheme of the server, whatever server that is, or is refused because it
names no host. -/
theorem resolve_on_server_or_named_host [Url.DomainNames] {base text : String} {origin : Url}
    {target : Target} (horigin : Url.parse base = .ok origin) (hhttp : origin.isHttp = true)
    (htarget : parse? text = some target)
    (hform : ∀ scheme authority rest, target ≠ .address scheme authority rest) :
    (target.namesHost = false →
      ∃ url, target.resolve origin = .ok url ∧ url.origin = origin.origin) ∧
    (target.namesHost = true →
      target.resolve origin = .error .emptyHost ∨
        target.resolve origin = Url.parse (origin.scheme ++ ":" ++ target.render)) := by
  have hweb : origin.IsWeb := parse_isWeb horigin hhttp
  cases target with
  | path path =>
    obtain ⟨hvisible, hpath⟩ := path_of_parse? htarget
    refine ⟨fun hone => ?_, fun htwo => ?_⟩
    · rw [namesHost, decide_eq_false_iff_not] at hone
      rcases hpath with rfl | ⟨rest, hrest⟩
      · have hstar : "*".toList = '*' :: [] := rfl
        exact join_of_at_most_one_slash hweb hvisible hstar (by decide) (by decide) hone
      · exact join_of_at_most_one_slash hweb hvisible hrest (by decide) (by decide) hone
    · rw [namesHost, decide_eq_true_eq] at htwo
      exact join_of_two_slashes hweb hvisible htwo
  | address scheme authority rest => exact absurd rfl (hform scheme authority rest)
  | host authority =>
    refine ⟨fun _ => ?_, fun hnames => by cases hnames⟩
    -- a host alone means the root of the server
    have hvisible : ∀ c ∈ "/".toList, Visible c := by
      intro c hc
      rw [List.mem_singleton.mp hc]
      show 32 < '/'.toNat
      decide
    have hroot : "/".toList = '/' :: [] := rfl
    exact join_of_at_most_one_slash hweb hvisible hroot (by decide) (by decide) (by decide)

/-- A target with two slashes at its front goes to the host that it names, and not to the server. -/
theorem resolve_on_server_or_named_host_of_two_slashes :
    let origin : Url :=
      ⟨"http", "", "", some (.domain "origin.test"), none, .segments [""], none, none⟩
    let named : Url :=
      ⟨"http", "", "", some (.domain "evil.test"), none, .segments ["x"], none, none⟩
    Url.parse "http://origin.test" = .ok origin ∧ origin.isHttp = true ∧
      parse? "//evil.test/x" = some (.path "//evil.test/x") ∧
      (path "//evil.test/x").resolve origin = .ok named ∧ named.origin ≠ origin.origin := by
  intro origin named
  have horigin : Url.parse "http://origin.test" = .ok origin := by rfl
  have htarget : parse? "//evil.test/x" = some (.path "//evil.test/x") := by decide +kernel
  have hnamed : Url.parse "http://evil.test/x" = .ok named := by rfl
  refine ⟨horigin, rfl, htarget, ?_, by decide⟩
  rcases (resolve_on_server_or_named_host horigin rfl htarget (by simp)).2 (by decide) with
    hempty | haddress
  · cases hempty
  · rw [haddress]
    exact hnamed

end DropRoom.Http.Target
