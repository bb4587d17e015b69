import DropRoom.Proofs.Url.PlainPath

namespace DropRoom.Url

/-!
# References that name a server

What a reference is resolved to is on the server of the base, or has nothing of the base but its
scheme.  Which of the two it is can be told from the front of the reference.

* `NamesServer` — a reference with a server of its own;
* `join_of_not_namesServer` — any other is resolved on the server of the base;
* `join_of_namesServer` — one that names a server is resolved in the same way on all servers of a
  scheme;
* `normalized_of_prefix` — visible characters at the front are read first.
-/

open DropRoom.Text

/-- A reference names a server of its own: it has a scheme, or two slashes at its front.  The scheme of
the base itself counts only with two slashes after it. -/
def NamesServer (base : Url) (reference : String) : Prop :=
  match scheme? (normalized reference) with
  | some (scheme, rest) => scheme = base.scheme → 2 ≤ (rest.takeWhile isSlash).length
  | none => 2 ≤ ((normalized reference).takeWhile isSlash).length

instance (base : Url) (reference : String) : Decidable (base.NamesServer reference) := by
  unfold NamesServer
  split <;> infer_instance

variable {base : Url} {reference : String} {scheme : String} {rest : List Char}

theorem namesServer_of_scheme (h : scheme? (normalized reference) = some (scheme, rest)) :
    base.NamesServer reference ↔
      (scheme = base.scheme → 2 ≤ (rest.takeWhile isSlash).length) := by
  rw [NamesServer, h]

theorem namesServer_of_no_scheme (h : scheme? (normalized reference) = none) :
    base.NamesServer reference ↔ 2 ≤ ((normalized reference).takeWhile isSlash).length := by
  rw [NamesServer, h]

/-- A reference with a scheme of its own stands for itself. -/
theorem join_of_scheme [DomainNames] (hbase : base.IsWeb)
    (h : scheme? (normalized reference) = some (scheme, rest))
    (hserver : base.NamesServer reference) : base.join reference = parse reference := by
  obtain ⟨items, hitems, _⟩ := hbase.path
  have hown : ¬ (isSpecial scheme = true ∧ scheme ≠ "file" ∧ scheme = base.scheme ∧
      (rest.takeWhile isSlash).length < 2) := by
    rintro ⟨-, -, hscheme, hslashes⟩
    have htwo := (namesServer_of_scheme h).mp hserver hscheme
    omega
  simp only [join, parse, h, hitems, if_neg hown]

/-- **On the server.** A reference that names no server is resolved on that of the base. -/
theorem join_of_not_namesServer [DomainNames] (hbase : base.IsWeb)
    (h : ¬ base.NamesServer reference) :
    ∃ url, base.join reference = .ok url ∧ url.origin = base.origin := by
  obtain ⟨items, hitems, _⟩ := hbase.path
  cases hscheme : scheme? (normalized reference) with
  | none =>
    rw [namesServer_of_no_scheme hscheme] at h
    by_cases hfragment : ∃ rest, normalized reference = '#' :: rest
    · obtain ⟨rest, hrest⟩ := hfragment
      rw [hrest] at hscheme
      refine ⟨{ base with fragment := some (fragmentOf rest) }, ?_, rfl⟩
      simp only [join, hrest, hscheme]
    · have hresolve := join_of_no_scheme hitems hscheme fun rest heq => hfragment ⟨rest, heq⟩
      rw [hresolve]
      exact resolve_of_at_most_one_slash base items h
  | some found =>
    obtain ⟨scheme, rest⟩ := found
    rw [namesServer_of_scheme hscheme, Classical.not_imp] at h
    obtain ⟨rfl, hslashes⟩ := h
    have hspecial := isSpecial_of_isHttp hbase.isHttp
    have hfile := scheme_ne_file_of_isHttp hbase.isHttp
    have hjoin : base.join reference = resolve base items rest := by
      simp only [join, hscheme, hitems]
      exact if_pos ⟨hspecial, hfile, trivial, Nat.lt_of_not_le hslashes⟩
    rw [hjoin]
    exact resolve_of_at_most_one_slash base items hslashes

/-- After two slashes nothing of the base is left but its scheme. -/
theorem resolve_eq_of_two_slashes [DomainNames] {base other : Url}
    (hscheme : other.scheme = base.scheme)
    (hspecial : isSpecial base.scheme = true) (items others : List String) {cs : List Char}
    (h : 2 ≤ (cs.takeWhile isSlash).length) :
    resolve other others cs = resolve base items cs := by
  cases cs with
  | nil => simp at h
  | cons c rest =>
    have hslash : isSlash c = true := by
      by_cases hslash : isSlash c
      · exact hslash
      · simp [hslash] at h
    have hc : c = '/' ∨ c = '\\' := by
      rwa [isSlash, Bool.or_eq_true, beq_iff_eq, beq_iff_eq] at hslash
    have hfirst : c = '/' ∨ (isSpecial base.scheme = true ∧ c = '\\') :=
      hc.imp_right fun hbackslash => ⟨hspecial, hbackslash⟩
    have hquery : c ≠ '?' := by
      rintro rfl
      cases hslash
    have hfragment : c ≠ '#' := by
      rintro rfl
      cases hslash
    rw [resolve, hscheme, if_pos hfirst, if_pos h, resolve, if_pos hfirst, if_pos h]
    all_goals assumption

/-- **On a server of its own.** A reference that names a server is resolved in the same way against all
addresses of the web with one scheme. -/
theorem join_of_namesServer [DomainNames] (hbase : base.IsWeb) {other : Url} (hother : other.IsWeb)
    (hscheme : other.scheme = base.scheme) (h : base.NamesServer reference) :
    other.join reference = base.join reference := by
  cases hfound : scheme? (normalized reference) with
  | none =>
    obtain ⟨items, hitems, _⟩ := hbase.path
    obtain ⟨others, hothers, _⟩ := hother.path
    rw [namesServer_of_no_scheme hfound] at h
    have hfragment : ∀ rest, normalized reference ≠ '#' :: rest := by
      intro rest heq
      rw [heq] at h
      simp [isSlash] at h
    rw [join_of_no_scheme hitems hfound hfragment, join_of_no_scheme hothers hfound hfragment]
    exact resolve_eq_of_two_slashes hscheme (isSpecial_of_isHttp hbase.isHttp) items others h
  | some found =>
    obtain ⟨scheme, rest⟩ := found
    have hserver : other.NamesServer reference := by
      rw [namesServer_of_scheme hfound, hscheme]
      exact (namesServer_of_scheme hfound).mp h
    rw [join_of_scheme hother hfound hserver, join_of_scheme hbase hfound h]

/-! ### The front of a text -/

/-- Visible characters at the front of a text are read first. -/
theorem normalized_of_prefix {text : String} {front back : List Char} (hne : front ≠ [])
    (hfront : ∀ c ∈ front, Visible c) (h : text.toList = front ++ back) :
    ∃ rest, normalized text = front ++ rest := by
  let isEdge := fun (c : Char) => decide (c.toNat ≤ 0x20)
  have hstart : (front ++ back).dropWhile isEdge = front ++ back := by
    cases front with
    | nil => exact absurd rfl hne
    | cons c front =>
      have hc : 32 < c.toNat := hfront c List.mem_cons_self
      exact List.dropWhile_cons_of_neg (by simp only [isEdge, decide_eq_true_eq]; omega)
  have hend : ∃ rest, ((front ++ back).reverse.dropWhile isEdge).reverse = front ++ rest := by
    have hreverse : ∀ c ∈ front.reverse, Visible c := fun c hc => hfront c (List.mem_reverse.mp hc)
    rw [List.reverse_append, List.dropWhile_append]
    split
    · exact ⟨[], by rw [dropWhile_edge_of_visible hreverse, List.reverse_reverse, List.append_nil]⟩
    · exact ⟨(back.reverse.dropWhile isEdge).reverse,
        by rw [List.reverse_append, List.reverse_reverse]⟩
  obtain ⟨rest, hrest⟩ := hend
  have hnormalized : normalized text =
      (front ++ rest).filter fun c => !(c == '\t' || c == '\n' || c == '\r') := by
    rw [← hrest, ← hstart, ← h]
    rfl
  rw [hnormalized, List.filter_append, filter_of_visible hfront]
  exact ⟨_, rfl⟩

end DropRoom.Url
