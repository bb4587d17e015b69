import DropRoom.Proofs.Url.Web

namespace DropRoom.Url

/-!
# References without a scheme

What a reference that starts with a slash is resolved to against an address of the web: one slash
alone leaves it on the server, and two name a host.

* `Visible`, `normalized_of_visible` — nothing is dropped from visible characters;
* `join_of_one_slash` — a reference that starts with one slash alone stays on the server;
* `join_of_two_slashes` — one that starts with two is read as an address of the scheme of the base.
-/

open DropRoom.Text

/-! ### Visible characters -/

/-- A character that comes after the blank. -/
def Visible (c : Char) : Prop :=
  32 < c.toNat

theorem dropWhile_edge_of_visible {cs : List Char} (h : ∀ c ∈ cs, Visible c) :
    cs.dropWhile (fun c => decide (c.toNat ≤ 0x20)) = cs := by
  cases cs with
  | nil => rfl
  | cons c cs =>
    have hc : 32 < c.toNat := h c List.mem_cons_self
    apply List.dropWhile_cons_of_neg
    rw [decide_eq_true_eq]
    omega

theorem filter_of_visible {cs : List Char} (h : ∀ c ∈ cs, Visible c) :
    cs.filter (fun c => !(c == '\t' || c == '\n' || c == '\r')) = cs := by
  rw [List.filter_eq_self]
  intro c hc
  have hne (mark : Char) (hmark : mark.toNat ≤ 32) : c ≠ mark := by
    rintro rfl
    exact absurd (h c hc) (Nat.not_lt.mpr hmark)
  simp [hne '\t' (by decide), hne '\n' (by decide), hne '\r' (by decide)]

/-- Nothing is dropped from visible characters. -/
theorem normalized_of_visible {text : String} (h : ∀ c ∈ text.toList, Visible c) :
    normalized text = text.toList := by
  have hreverse : ∀ c ∈ text.toList.reverse, Visible c :=
    fun c hc => h c (List.mem_reverse.mp hc)
  simp only [normalized]
  rw [dropWhile_edge_of_visible h, dropWhile_edge_of_visible hreverse, List.reverse_reverse,
    filter_of_visible h]

/-! ### Resolving -/

variable {base : Url}

/-- A reference without a scheme that is more than a fragment is resolved as it is. -/
theorem join_of_no_scheme [DomainNames] {items : List String} (hitems : base.path = .segments items)
    {reference : String} (hscheme : scheme? (normalized reference) = none)
    (hfragment : ∀ rest, normalized reference ≠ '#' :: rest) :
    base.join reference = resolve base items (normalized reference) := by
  simp only [join, hscheme, hitems]

/-- A reference of visible characters that starts with neither a letter nor the mark of a fragment
is resolved as it is. -/
theorem join_of_visible [DomainNames] (hbase : base.IsWeb) {reference : String}
    (hvisible : ∀ c ∈ reference.toList, Visible c) {c : Char} {rest : List Char}
    (hreference : reference.toList = c :: rest) (hletter : isLetter c = false)
    (hfragment : c ≠ '#') :
    ∃ items, base.join reference = resolve base items (c :: rest) := by
  obtain ⟨items, hitems, _⟩ := hbase.path
  have hnormalized := (normalized_of_visible hvisible).trans hreference
  have hscheme : scheme? (normalized reference) = none := by
    rw [hnormalized, scheme?, hletter]
    rfl
  refine ⟨items, hnormalized ▸ join_of_no_scheme hitems hscheme fun _ heq => ?_⟩
  rw [hnormalized] at heq
  exact hfragment (List.cons.inj heq).1

theorem origin_withRest (url : Url) (readPath : List Char → Path) (cs : List Char) :
    (url.withRest readPath cs).origin = url.origin := by
  obtain ⟨text, query, fragment, heq⟩ := withRest_eq url readPath cs
  rw [heq]
  rfl

/-- A reference that does not start with two slashes is resolved on the server of the base. -/
theorem resolve_of_at_most_one_slash [DomainNames] (base : Url) (items : List String)
    {cs : List Char} (hslashes : ¬ 2 ≤ (cs.takeWhile isSlash).length) :
    ∃ url, resolve base items cs = .ok url ∧ url.origin = base.origin := by
  unfold resolve
  split
  · exact ⟨_, rfl, rfl⟩
  · exact ⟨_, rfl, rfl⟩
  · exact ⟨_, rfl, rfl⟩
  · split
    · exact ⟨_, rfl, origin_withRest _ _ _⟩
    · exact ⟨_, rfl, origin_withRest _ _ _⟩

/-- After a further slash there is no host. -/
theorem afterSlashes_of_slash [DomainNames] {scheme : String} (hspecial : isSpecial scheme = true)
    {c : Char} (hc : isSlash c = true) (cs : List Char) :
    afterSlashes scheme (c :: cs) = .error .emptyHost := by
  have hends : endsAuthority (isSpecial scheme) c = true := by
    rw [isSlash, Bool.or_eq_true, beq_iff_eq, beq_iff_eq] at hc
    rcases hc with rfl | rfl
    · rfl
    · rw [hspecial]
      rfl
  have hbefore : splitBefore (endsAuthority (isSpecial scheme)) (c :: cs) = ([], c :: cs) := by
    simp [splitBefore, hends]
  have hhost : readHost scheme [] = .error .emptyHost := by
    simp [readHost, hspecial]
  have hauthority : readAuthority scheme [] = .error .emptyHost := by
    simp [readAuthority, cutLast, cut, splitPort, hhost]
  simp only [afterSlashes, hbefore, hauthority]

/-- A reference that starts with two slashes is read as what follows its slashes; but where there
are more of them than two it may be refused for want of a host. -/
theorem resolve_of_two_slashes [DomainNames] (hspecial : isSpecial base.scheme = true)
    (items : List String) {cs : List Char} (hslashes : 2 ≤ (cs.takeWhile isSlash).length) :
    resolve base items cs = .error .emptyHost ∨
      resolve base items cs = afterSlashes base.scheme (cs.dropWhile isSlash) := by
  unfold resolve
  split
  · simp at hslashes
  · simp [isSlash] at hslashes
  · simp [isSlash] at hslashes
  · rename_i c rest _ _
    have hfirst : c = '/' ∨ (isSpecial base.scheme = true ∧ c = '\\') := by
      by_cases hc : isSlash c
      · rw [isSlash, Bool.or_eq_true, beq_iff_eq, beq_iff_eq] at hc
        exact hc.imp_right fun hbackslash => ⟨hspecial, hbackslash⟩
      · simp [hc] at hslashes
    rw [if_pos hfirst, if_pos hslashes]
    split
    · rename_i after heq
      rw [heq]
      -- both slashes are passed over, and a third one leaves no host
      cases after with
      | nil => exact .inr rfl
      | cons d after =>
        by_cases hd : isSlash d
        · exact .inl (afterSlashes_of_slash hspecial hd after)
        · refine .inr (congrArg _ ?_)
          have hdrop : ('/' :: '/' :: d :: after).dropWhile isSlash = (d :: after).dropWhile isSlash :=
            rfl
          rw [hdrop, List.dropWhile_cons_of_neg hd]
    · exact .inr rfl

/-! ### Addresses of a scheme of the web -/

/-- A name of characters of a scheme before a colon is read as the scheme. -/
theorem scheme?_of_name {c : Char} {name : List Char} (hletter : isLetter c = true)
    (hname : (c :: name).all isSchemeChar = true) (cs : List Char) :
    scheme? (c :: name ++ ':' :: cs) = some (asciiLower (String.ofList (c :: name)), cs) := by
  have hcolon : ¬ isSchemeChar ':' = true := by decide
  have hall := List.all_eq_true.mp hname
  have hdrop : (c :: name ++ ':' :: cs).dropWhile isSchemeChar = ':' :: cs := by
    rw [List.dropWhile_append_of_pos hall, List.dropWhile_cons_of_neg hcolon]
  have htake : (c :: name ++ ':' :: cs).takeWhile isSchemeChar = c :: name := by
    rw [List.takeWhile_append_of_pos hall, List.takeWhile_cons_of_neg hcolon, List.append_nil]
  rw [List.cons_append] at hdrop htake ⊢
  rw [scheme?, if_pos hletter, hdrop, htake]
  rfl

theorem scheme?_of_web {scheme : String} (hscheme : scheme = "http" ∨ scheme = "https")
    (cs : List Char) : scheme? (scheme.toList ++ ':' :: cs) = some (scheme, cs) := by
  rcases hscheme with rfl | rfl
  · exact @scheme?_of_name 'h' ['t', 't', 'p'] (by decide) (by decide) cs
  · exact @scheme?_of_name 'h' ['t', 't', 'p', 's'] (by decide) (by decide) cs

/-- An address is read from what follows the slashes after its scheme. -/
theorem parse_of_web [DomainNames] {scheme text : String}
    (hscheme : scheme = "http" ∨ scheme = "https") (hvisible : ∀ c ∈ text.toList, Visible c) :
    parse (scheme ++ ":" ++ text) = afterSlashes scheme (text.toList.dropWhile isSlash) := by
  have htext : (scheme ++ ":" ++ text).toList = scheme.toList ++ ':' :: text.toList := by
    simp
  have hall : ∀ c ∈ (scheme ++ ":" ++ text).toList, Visible c := by
    rw [htext]
    intro c hc
    rcases List.mem_append.mp hc with hc | hc
    · have hvisibleScheme : scheme.toList.all (fun c => 32 < c.toNat) = true := by
        rcases hscheme with rfl | rfl
        · decide
        · decide
      have hc32 := List.all_eq_true.mp hvisibleScheme c hc
      rwa [decide_eq_true_eq] at hc32
    · rcases List.mem_cons.mp hc with rfl | hc
      · show 32 < ':'.toNat
        decide
      · exact hvisible c hc
  rw [parse, normalized_of_visible hall, htext, scheme?_of_web hscheme]
  show readWithScheme scheme text.toList = _
  rw [readWithScheme, if_neg (ne_file_of_web hscheme), if_pos (isSpecial_of_web hscheme)]

/-! ### Slashes at the front -/

/-- **One slash.** A reference of visible characters that starts with neither a letter, the mark of
a fragment nor two slashes is resolved on the server of the base. -/
theorem join_of_at_most_one_slash [DomainNames] (hbase : base.IsWeb) {reference : String}
    (hvisible : ∀ c ∈ reference.toList, Visible c) {c : Char} {rest : List Char}
    (hreference : reference.toList = c :: rest) (hletter : isLetter c = false)
    (hfragment : c ≠ '#') (hslashes : ¬ 2 ≤ (reference.toList.takeWhile isSlash).length) :
    ∃ url, base.join reference = .ok url ∧ url.origin = base.origin := by
  obtain ⟨items, hjoin⟩ := join_of_visible hbase hvisible hreference hletter hfragment
  rw [hjoin]
  rw [hreference] at hslashes
  exact resolve_of_at_most_one_slash base items hslashes

/-- **Two slashes.** A reference of visible characters that starts with two slashes is read as an
address with the scheme of the base, or refused for want of a host. -/
theorem join_of_two_slashes [DomainNames] (hbase : base.IsWeb) {reference : String}
    (hvisible : ∀ c ∈ reference.toList, Visible c)
    (hslashes : 2 ≤ (reference.toList.takeWhile isSlash).length) :
    base.join reference = .error .emptyHost ∨
      base.join reference = parse (base.scheme ++ ":" ++ reference) := by
  have hspecial := isSpecial_of_isHttp hbase.isHttp
  rw [parse_of_web (isHttp_iff.mp hbase.isHttp) hvisible]
  cases hreference : reference.toList with
  | nil =>
    rw [hreference] at hslashes
    simp at hslashes
  | cons c rest =>
    rw [hreference] at hslashes
    have hc : isSlash c = true := by
      by_cases hc : isSlash c
      · exact hc
      · simp [hc] at hslashes
    have hfirst : isLetter c = false ∧ c ≠ '#' := by
      rw [isSlash, Bool.or_eq_true, beq_iff_eq, beq_iff_eq] at hc
      rcases hc with rfl | rfl
      · decide
      · decide
    obtain ⟨items, hjoin⟩ := join_of_visible hbase hvisible hreference hfirst.1 hfirst.2
    rw [hjoin]
    exact resolve_of_two_slashes hspecial items hslashes

end DropRoom.Url
