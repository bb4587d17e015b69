import DropRoom.Proofs.Url.Characters

namespace DropRoom.Url

/-!
# Addresses of the web as they are read

An address of one of the two schemes of the web that was read has a host and a path with
hierarchy, and no mark that ends a part occurs within it.  So its path can be told from its text.

* `IsWeb` — what is known of such an address;
* `parse_isWeb`, `join_isWeb` — what is read, and what is resolved against such an address, is one;
* `IsWeb.path_chars_eq` — two such addresses with the same text have the same path.
-/

open DropRoom.Text

/-! ### Segments -/

/-- No segment holds a character that ends a path. -/
def PlainSegments (items : List String) : Prop :=
  ∀ item ∈ items, ∀ c ∈ item.toList, endsPath c = false

theorem plainSegments_single_empty : PlainSegments [""] := by
  intro item hitem c hc
  rw [List.mem_singleton.mp hitem] at hc
  cases hc

/-- An encoded segment is plain. -/
theorem endsPath_of_mem_percentEncode {cs : List Char} {c : Char}
    (h : c ∈ percentEncode inPath cs) : endsPath c = false := by
  have hquery : c ≠ '?' := by
    rintro rfl
    exact not_mem_percentEncode (by decide) (by decide) cs h
  have hfragment : c ≠ '#' := by
    rintro rfl
    exact not_mem_percentEncode (by decide) (by decide) cs h
  simp [endsPath, hquery, hfragment]

theorem splitAt_ne_nil (sep : Char) (cs : List Char) : splitAt sep cs ≠ [] := by
  induction cs with
  | nil => exact List.cons_ne_nil _ _
  | cons c cs ih =>
    rw [splitAt]
    repeat' split
    · exact List.cons_ne_nil _ _
    · exact List.cons_ne_nil _ _
    · exact List.cons_ne_nil _ _

theorem mem_of_mem_goUp {scheme item : String} {path : List String} (h : item ∈ goUp scheme path) :
    item ∈ path := by
  unfold goUp at h
  split at h
  · split at h
    · exact h
    · cases h
  · exact List.dropLast_subset _ h

/-- Resolving dots makes no segments but empty ones. -/
theorem mem_resolveDots {scheme : String} (hscheme : scheme ≠ "file") {item : String}
    (path segments : List String) (h : item ∈ resolveDots scheme path segments) :
    item ∈ path ∨ item ∈ segments ∨ item = "" := by
  -- the exception for drive letters is one of `file` addresses
  have happend (path : List String) (segment : String) :
      append scheme path segment = path ++ [segment] := by
    simp [append, hscheme]
  fun_induction resolveDots scheme path segments with
  | case1 path => exact .inl h
  | case2 path last hdouble =>
    rcases List.mem_append.mp h with hup | hlast
    · exact .inl (mem_of_mem_goUp hup)
    · exact .inr (.inr (List.mem_singleton.mp hlast))
  | case3 path last hdouble hsingle =>
    rcases List.mem_append.mp h with hpath | hlast
    · exact .inl hpath
    · exact .inr (.inr (List.mem_singleton.mp hlast))
  | case4 path last hdouble hsingle =>
    rw [happend] at h
    exact (List.mem_append.mp h).imp_right .inl
  | case5 path segment more hmore hdouble ih =>
    rcases ih h with hup | hmore | hempty
    · exact .inl (mem_of_mem_goUp hup)
    · exact .inr (.inl (List.mem_cons_of_mem _ hmore))
    · exact .inr (.inr hempty)
  | case6 path segment more hmore hdouble hsingle ih =>
    rcases ih h with hpath | hmore | hempty
    · exact .inl hpath
    · exact .inr (.inl (List.mem_cons_of_mem _ hmore))
    · exact .inr (.inr hempty)
  | case7 path segment more hmore hdouble hsingle ih =>
    rcases ih h with hpath | hmore | hempty
    · rw [happend, List.mem_append, List.mem_singleton] at hpath
      rcases hpath with hpath | rfl
      · exact .inl hpath
      · exact .inr (.inl List.mem_cons_self)
    · exact .inr (.inl (List.mem_cons_of_mem _ hmore))
    · exact .inr (.inr hempty)

theorem append_ne_nil (scheme : String) (path : List String) (segment : String) :
    append scheme path segment ≠ [] := by
  rw [append]
  split
  · exact List.cons_ne_nil _ _
  · simp

/-- Resolving dots leaves a segment where there was one to append. -/
theorem resolveDots_ne_nil (scheme : String) (path segments : List String) (h : segments ≠ []) :
    resolveDots scheme path segments ≠ [] := by
  fun_induction resolveDots scheme path segments with
  | case1 path => exact absurd rfl h
  | case2 path last hdouble => simp
  | case3 path last hdouble hsingle => simp
  | case4 path last hdouble hsingle => exact append_ne_nil scheme path last
  | case5 path segment more hmore hdouble ih => exact ih hmore
  | case6 path segment more hmore hdouble hsingle ih => exact ih hmore
  | case7 path segment more hmore hdouble hsingle ih => exact ih hmore

/-- What is appended to plain segments is plain, and there is some. -/
theorem appendText_plain {scheme : String} (hscheme : scheme ≠ "file") {path : List String}
    (hpath : PlainSegments path) (cs : List Char) :
    PlainSegments (appendText scheme path cs) ∧ appendText scheme path cs ≠ [] := by
  simp only [appendText, if_neg hscheme]
  constructor
  · intro item hitem
    rcases mem_resolveDots hscheme path _ hitem with hold | hnew | rfl
    · exact hpath item hold
    · obtain ⟨segment, _, rfl⟩ := List.mem_map.mp hnew
      intro c hc
      rw [String.toList_ofList] at hc
      exact endsPath_of_mem_percentEncode hc
    · exact plainSegments_single_empty "" (List.mem_singleton_self _)
  · apply resolveDots_ne_nil
    rw [ne_eq, List.map_eq_nil_iff]
    exact splitAt_ne_nil _ _

/-- The path after a host has plain segments, and one at least. -/
theorem pathAfterHost_plain {scheme : String} (hscheme : scheme ≠ "file")
    (hspecial : isSpecial scheme = true) (cs : List Char) :
    PlainSegments (pathAfterHost scheme cs) ∧ pathAfterHost scheme cs ≠ [] := by
  have happend (cs : List Char) :
      PlainSegments (appendText scheme [] cs) ∧ appendText scheme [] cs ≠ [] :=
    appendText_plain hscheme (fun item hitem => absurd hitem List.not_mem_nil) cs
  unfold pathAfterHost
  split
  · exact happend _
  · rw [if_pos hspecial]
    exact happend _
  · rw [if_pos hspecial]
    exact ⟨plainSegments_single_empty, List.cons_ne_nil _ _⟩
  · exact happend _

/-! ### Addresses of the web -/

/-- What is known of an address of the web that was read: it has a host and a path with hierarchy,
nothing before the path holds a slash, and no segment holds a character that ends a path. -/
structure IsWeb (url : Url) : Prop where
  isHttp : url.isHttp = true
  host : ∃ host, url.host = some host ∧ '/' ∉ host.chars
  username : '/' ∉ url.username.toList
  password : '/' ∉ url.password.toList
  path : ∃ items, url.path = .segments items ∧ PlainSegments items ∧ items ≠ []

theorem isHttp_iff {url : Url} :
    url.isHttp = true ↔ url.scheme = "http" ∨ url.scheme = "https" := by
  simp [isHttp]

/-- The standard has rules for the two schemes of the web. -/
theorem isSpecial_of_web {scheme : String} (h : scheme = "http" ∨ scheme = "https") :
    isSpecial scheme = true := by
  rcases h with rfl | rfl
  · decide
  · decide

theorem ne_file_of_web {scheme : String} (h : scheme = "http" ∨ scheme = "https") :
    scheme ≠ "file" := by
  rcases h with rfl | rfl
  · decide
  · decide

theorem isSpecial_of_isHttp {url : Url} (h : url.isHttp = true) : isSpecial url.scheme = true :=
  isSpecial_of_web (isHttp_iff.mp h)

theorem scheme_ne_file_of_isHttp {url : Url} (h : url.isHttp = true) : url.scheme ≠ "file" :=
  ne_file_of_web (isHttp_iff.mp h)

/-! ### Path, query and fragment -/

/-- A path, a query and a fragment are given to an address without a change before them. -/
theorem withRest_eq (url : Url) (readPath : List Char → Path) (cs : List Char) :
    ∃ text query fragment,
      url.withRest readPath cs =
        { url with path := readPath text, query := query, fragment := fragment } :=
  ⟨(splitBefore endsPath cs).1, _, _, rfl⟩

/-- An address stays one of the web when it gets another path of plain segments. -/
theorem IsWeb.withRest {url : Url} (hhttp : url.isHttp = true)
    (hhost : ∃ host, url.host = some host ∧ '/' ∉ host.chars)
    (husername : '/' ∉ url.username.toList) (hpassword : '/' ∉ url.password.toList)
    {readPath : List Char → List String}
    (hpath : ∀ text, PlainSegments (readPath text) ∧ readPath text ≠ []) (cs : List Char) :
    (url.withRest (fun text => .segments (readPath text)) cs).IsWeb := by
  obtain ⟨text, query, fragment, heq⟩ :=
    withRest_eq url (fun text => .segments (readPath text)) cs
  rw [heq]
  exact ⟨hhttp, hhost, husername, hpassword, readPath text, rfl, hpath text⟩

/-! ### Authorities -/

theorem slash_not_mem_percentEncode_inUserinfo (cs : List Char) :
    '/' ∉ percentEncode inUserinfo cs :=
  not_mem_percentEncode (by decide) (by decide) cs

theorem slash_not_mem_credentials (cs : List Char) :
    '/' ∉ (credentials cs).1.toList ∧ '/' ∉ (credentials cs).2.toList := by
  rw [credentials]
  split
  · rw [String.toList_ofList]
    exact ⟨slash_not_mem_percentEncode_inUserinfo cs, by simp⟩
  · rename_i user password _
    rw [String.toList_ofList, String.toList_ofList]
    exact ⟨slash_not_mem_percentEncode_inUserinfo user,
      slash_not_mem_percentEncode_inUserinfo password⟩

/-- What an authority gives an address: its credentials, a host that was read, and a port. -/
theorem readAuthority_cases [DomainNames] {scheme : String} {cs left : List Char} {url : Url}
    (h : readAuthority scheme cs = .ok (url, left)) :
    ∃ user text host port, readHost scheme text = .ok host ∧
      url = { bare scheme with
        username := (credentials user).1, password := (credentials user).2, host := some host,
        port := port } := by
  unfold readAuthority at h
  split at h
  rename_i user hostAndPort _
  split at h
  rename_i username password hcredentials
  split at h
  rename_i text portText _
  split at h
  · cases h
  · rename_i host hhost
    dsimp only at h
    split at h
    · cases h
    · split at h
      · cases h
        exact ⟨user, text, host, none, hhost, by rw [hcredentials]; rfl⟩
      · split at h
        · cases h
        · rename_i port _
          cases h
          exact ⟨user, text, host, port, hhost, by rw [hcredentials]⟩

/-- The address that an authority makes, and what follows of it. -/
theorem afterSlashes_cases [DomainNames] {scheme : String} {cs : List Char} {url : Url}
    (h : afterSlashes scheme cs = .ok url) :
    ∃ text authority left rest, readAuthority scheme text = .ok (authority, left) ∧
      url = authority.withRest (fun path => .segments (pathAfterHost scheme path)) rest := by
  unfold afterSlashes at h
  split at h
  rename_i text rest _
  split at h
  · cases h
  · rename_i authority left hauthority
    cases h
    exact ⟨text, authority, left, left ++ rest, hauthority, rfl⟩

theorem scheme_afterSlashes [DomainNames] {scheme : String} {cs : List Char} {url : Url}
    (h : afterSlashes scheme cs = .ok url) : url.scheme = scheme := by
  obtain ⟨_, _, _, _, hauthority, rfl⟩ := afterSlashes_cases h
  obtain ⟨_, _, _, _, _, rfl⟩ := readAuthority_cases hauthority
  rfl

/-- What follows two slashes after a scheme of the web is an address of the web. -/
theorem afterSlashes_isWeb [DomainNames] {scheme : String} {cs : List Char} {url : Url}
    (h : afterSlashes scheme cs = .ok url) (hhttp : url.isHttp = true) : url.IsWeb := by
  have hscheme := scheme_afterSlashes h
  have hspecial : isSpecial scheme = true := hscheme ▸ isSpecial_of_isHttp hhttp
  have hfile : scheme ≠ "file" := hscheme ▸ scheme_ne_file_of_isHttp hhttp
  obtain ⟨_, authority, _, rest, hauthority, rfl⟩ := afterSlashes_cases h
  obtain ⟨user, _, host, port, hhost, rfl⟩ := readAuthority_cases hauthority
  obtain ⟨husername, hpassword⟩ := slash_not_mem_credentials user
  exact IsWeb.withRest hhttp ⟨host, rfl, slash_not_mem_chars_of_readHost hspecial hhost⟩
    husername hpassword (pathAfterHost_plain hfile hspecial) rest

/-! ### Reading -/

theorem scheme_readFile [DomainNames] {cs : List Char} {url : Url} (h : readFile cs = .ok url) :
    url.scheme = "file" := by
  unfold readFile at h
  dsimp only at h
  repeat' split at h
  · cases h
    rfl
  · cases h
    rfl
  · cases h
  · cases h
    rfl
  · cases h
    rfl
  · cases h
    rfl
  · cases h
    rfl

/-- What is read after a scheme of the web is an address of the web. -/
theorem readWithScheme_isWeb [DomainNames] {scheme : String} {cs : List Char} {url : Url}
    (h : readWithScheme scheme cs = .ok url) (hhttp : url.isHttp = true) : url.IsWeb := by
  rw [readWithScheme] at h
  by_cases hfile : scheme = "file"
  · rw [if_pos hfile] at h
    exact absurd (scheme_readFile h) (scheme_ne_file_of_isHttp hhttp)
  · rw [if_neg hfile] at h
    by_cases hspecial : isSpecial scheme
    · rw [if_pos hspecial] at h
      exact afterSlashes_isWeb h hhttp
    · -- the scheme would be that of the address, and those of the web are special
      rw [if_neg hspecial] at h
      unfold readOther at h
      split at h
      · exact afterSlashes_isWeb h hhttp
      · cases h
        exact absurd (isSpecial_of_isHttp hhttp) hspecial
      · cases h
        exact absurd (isSpecial_of_isHttp hhttp) hspecial

/-- **Reading.** An address of the web that is read from a text has the form of one. -/
theorem parse_isWeb [DomainNames] {text : String} {url : Url} (h : parse text = .ok url)
    (hhttp : url.isHttp = true) : url.IsWeb := by
  rw [parse] at h
  split at h
  · exact readWithScheme_isWeb h hhttp
  · cases h

/-! ### Resolving -/

/-- A reference that names no host keeps what stands before the path. -/
theorem IsWeb.resolve [DomainNames] {base url : Url} (hbase : base.IsWeb) {items : List String}
    (hitems : base.path = .segments items) {cs : List Char}
    (h : Url.resolve base items cs = .ok url) (hhttp : url.isHttp = true) : url.IsWeb := by
  obtain ⟨hhttpBase, hhost, husername, hpassword, items', hpath, hplain, hne⟩ := hbase
  obtain rfl : items' = items := by
    rw [hpath] at hitems
    exact Path.segments.inj hitems
  have hfile := scheme_ne_file_of_isHttp hhttpBase
  unfold Url.resolve at h
  -- nothing, a query or a fragment leaves the path as it is
  split at h
  · cases h
    exact ⟨hhttpBase, hhost, husername, hpassword, _, hpath, hplain, hne⟩
  · cases h
    exact ⟨hhttpBase, hhost, husername, hpassword, _, hpath, hplain, hne⟩
  · cases h
    exact ⟨hhttpBase, hhost, husername, hpassword, _, hpath, hplain, hne⟩
  -- after a slash the path begins anew, and after two there is a host to be read
  · split at h
    · split at h
      · split at h
        · exact afterSlashes_isWeb h hhttp
        · exact afterSlashes_isWeb h hhttp
      · cases h
        refine IsWeb.withRest hhttpBase hhost husername hpassword (fun text => ?_) _
        exact appendText_plain hfile (fun item hitem => absurd hitem List.not_mem_nil) text
    · cases h
      refine IsWeb.withRest hhttpBase hhost husername hpassword (fun text => ?_) _
      exact appendText_plain hfile (fun item hitem => hplain item (mem_of_mem_goUp hitem)) text

/-- **Resolving.** An address of the web that is resolved against one has the form of one. -/
theorem join_isWeb [DomainNames] {base url : Url} (hbase : base.IsWeb) {reference : String}
    (h : base.join reference = .ok url) (hhttp : url.isHttp = true) : url.IsWeb := by
  obtain ⟨items, hitems, hplain⟩ := hbase.path
  unfold join at h
  dsimp only at h
  rw [hitems] at h
  split at h
  · dsimp only at h
    split at h
    · exact hbase.resolve hitems h hhttp
    · exact readWithScheme_isWeb h hhttp
  · split at h
    · cases h
      exact ⟨hhttp, hbase.host, hbase.username, hbase.password, items, rfl, hplain⟩
    · rename_i heq _
      cases heq
      exact hbase.resolve hitems h hhttp
    · rename_i heq _
      cases heq

/-! ### The path within the text -/

/-- The path within the text of an address of the web: from the first slash after the two that
follow the scheme up to the mark of a query or fragment. -/
def pathWithin (cs : List Char) : List Char :=
  let afterScheme := (cs.dropWhile fun c => c ≠ ':').drop 3
  (afterScheme.dropWhile fun c => c ≠ '/').takeWhile fun c => !endsPath c

theorem takeWhile_markedChars (query fragment : Option String) :
    (markedChars '?' query ++ markedChars '#' fragment).takeWhile (fun c => !endsPath c) = [] := by
  cases query with
  | some text => rfl
  | none =>
    cases fragment with
    | some text => rfl
    | none => rfl

/-- What stands between the two slashes and the path of an address. -/
def authorityText (url : Url) (host : Host) : List Char :=
  url.credentialChars ++ host.chars ++ url.portChars

/-- What stands before the path of an address has no slash. -/
theorem IsWeb.slash_not_mem_authorityText {url : Url} (h : url.IsWeb) {host : Host}
    (hhost : url.host = some host) : '/' ∉ url.authorityText host := by
  obtain ⟨host', hhost', hslash⟩ := h.host
  obtain rfl : host' = host := Option.some.inj (hhost'.symm.trans hhost)
  have hcredentials : '/' ∉ url.credentialChars := by
    rw [credentialChars]
    split
    · exact List.not_mem_nil
    · split
      · simp [h.username]
      · simp [h.username, h.password]
  simp [authorityText, hcredentials, hslash, slash_not_mem_portChars]

/-- The text of an address with a host. -/
theorem chars_of_host {url : Url} {host : Host} (hhost : url.host = some host) :
    url.chars = url.scheme.toList ++ ':' :: '/' :: '/' :: (url.authorityText host ++
      (url.path.chars ++ (markedChars '?' url.query ++ markedChars '#' url.fragment))) := by
  simp [chars, authorityChars, authorityText, hhost]

/-- The path of plain segments starts with a slash and holds no mark that ends it. -/
theorem segmentChars_plain {items : List String} (hplain : PlainSegments items) (hne : items ≠ []) :
    (∃ rest, segmentChars items = '/' :: rest) ∧
      ∀ c ∈ segmentChars items, (!endsPath c) = true := by
  constructor
  · obtain ⟨item, rest, rfl⟩ := List.exists_cons_of_ne_nil hne
    exact ⟨item.toList ++ segmentChars rest, rfl⟩
  · intro c hc
    obtain ⟨item, hitem, hmem⟩ := List.mem_flatMap.mp hc
    rcases List.mem_cons.mp hmem with rfl | hmem
    · decide
    · rw [hplain item hitem c hmem]
      rfl

/-- The path of an address of the web is found in its text. -/
theorem IsWeb.pathWithin_chars {url : Url} (h : url.IsWeb) :
    pathWithin url.chars = url.path.chars := by
  obtain ⟨host, hhost, _⟩ := h.host
  obtain ⟨items, hitems, hplain, hne⟩ := h.path
  obtain ⟨⟨rest, hslash⟩, hends⟩ := segmentChars_plain hplain hne
  have hpath : url.path.chars = segmentChars items := by
    rw [hitems]
    rfl
  have hscheme : url.scheme.toList.all (fun c => c ≠ ':') = true := by
    rcases isHttp_iff.mp h.isHttp with hscheme | hscheme
    · rw [hscheme]
      decide
    · rw [hscheme]
      decide
  have hauthority : ∀ c ∈ url.authorityText host, decide (c ≠ '/') = true := by
    intro c hc
    rw [decide_eq_true_eq]
    rintro rfl
    exact h.slash_not_mem_authorityText hhost hc
  -- the scheme holds no colon, and what follows its two slashes no slash before the path
  have hbefore : pathWithin url.chars = (segmentChars items ++
      (markedChars '?' url.query ++ markedChars '#' url.fragment)).takeWhile
        fun c => !endsPath c := by
    rw [pathWithin, chars_of_host hhost, List.dropWhile_append_of_pos (List.all_eq_true.mp hscheme),
      hpath]
    show ((url.authorityText host ++ _).dropWhile _).takeWhile _ = _
    rw [List.dropWhile_append_of_pos hauthority, hslash]
    rfl
  rw [hbefore, List.takeWhile_append_of_pos hends, takeWhile_markedChars, List.append_nil, hpath]

/-- **The path from the text.** Two addresses of the web with the same text have the same path. -/
theorem IsWeb.path_chars_eq {a b : Url} (ha : a.IsWeb) (hb : b.IsWeb)
    (h : a.render = b.render) : a.path.chars = b.path.chars := by
  have hchars : a.chars = b.chars := String.ofList_injective h
  rw [← ha.pathWithin_chars, ← hb.pathWithin_chars, hchars]

end DropRoom.Url
