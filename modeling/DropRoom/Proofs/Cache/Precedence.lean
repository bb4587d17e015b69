import DropRoom.Proofs.Cache.Routing

namespace DropRoom

/-!
# Precedence of the tables

The tables of settings are asked in a fixed order: the files of rooms, then the paths of the server's
interface, then the static assets.  An address has the class of the first table with an entry that
recognises it, wherever the entry stands in its table, and the class of what is left if there is no
such table.

* `Cache.Matcher.Recognises`, `Cache.Kind.Recognises` — an entry of a table recognises an address;
* `CacheSettings.Finds` — some entry for a class does;
* `CacheSettings.IsFirst` — a class is the first of those, and `CacheSettings.IsFirst.unique`;
* `CacheSettings.Enlarges` — settings have more entries than others, at most for one class;
* `Cache.Classifier.classify_eq_iff` — the class of an address is the first;
* `Cache.Classifier.classify_of_enlarges` — its class after entries have been added to a table;
* `Cache.Classifier.classifies_by_first_table` — the classes of addresses, by the tables.
-/

namespace Cache

/-! ### Entries -/

/-- An entry of the table of static assets recognises an address: by its text in normal form, or by
the end of its path. -/
def Matcher.Recognises [Url.DomainNames] (entry : String) (url : Url) : Prop :=
  if looksAbsolute entry then url.render = normalForm entry
  else entry.toList <:+ url.path.chars

instance [Url.DomainNames] (entry : String) (url : Url) :
    Decidable (Matcher.Recognises entry url) :=
  inferInstanceAs (Decidable (if Matcher.looksAbsolute entry then url.render = Matcher.normalForm entry
    else entry.toList <:+ url.path.chars))

/-- An entry of an asset hits the addresses that it recognises. -/
theorem Matcher.any_hits_ofAsset [Url.DomainNames] {entry : String} {url : Url} :
    (ofAsset entry).any (hits url) = true ↔ Recognises entry url := by
  rw [ofAsset, Recognises]
  split
  · simp [hits]
  · -- a path as a whole is also the end of itself
    have hwhole : url.pathText = entry → entry.toList <:+ url.path.chars := by
      rintro rfl
      have hchars : url.pathText.toList = url.path.chars := String.toList_ofList
      exact hchars ▸ List.suffix_rfl
    simpa [hits] using hwhole

/-- An entry of the table of a class recognises an address: a static asset as above, and any other
entry by its characters within the path. -/
def Kind.Recognises [Url.DomainNames] (kind : Kind) (entry : String) (url : Url) : Prop :=
  match kind with
  | .static => Matcher.Recognises entry url
  | .dynamic | .api | .residual => entry.toList <:+: url.path.chars

instance [Url.DomainNames] : (kind : Kind) → (entry : String) → (url : Url) →
    Decidable (kind.Recognises entry url)
  | .static, entry, url => inferInstanceAs (Decidable (Matcher.Recognises entry url))
  | .dynamic, _, _ | .api, _, _ | .residual, _, _ => decidable_of_iff _ Text.occursIn_iff

/-- The place of a class in the order in which the tables are asked. -/
def Kind.rank : Kind → Nat
  | .dynamic => 0
  | .api => 1
  | .static => 2
  | .residual => 3

/-- The class of what is left comes last. -/
theorem Kind.rank_le_residual (kind : Kind) : kind.rank ≤ Kind.residual.rank := by
  cases kind <;> decide

/-- Each class has a rank of its own. -/
theorem Kind.rank_injective {kind other : Kind} (h : kind.rank = other.rank) : kind = other := by
  cases kind <;> cases other <;> first | rfl | exact absurd h (by decide)

end Cache

/-! ### Tables -/

open Cache (Kind Matcher)

namespace CacheSettings

/-- The entries for a class; there are none for what is left. -/
def table (settings : CacheSettings) : Kind → List String
  | .dynamic => settings.dynamicFiles
  | .api => settings.apiPatterns
  | .static => settings.staticAssets
  | .residual => []

/-- Some entry for a class recognises an address. -/
def Finds [Url.DomainNames] (settings : CacheSettings) (kind : Kind) (url : Url) : Prop :=
  ∃ entry ∈ settings.table kind, kind.Recognises entry url

instance [Url.DomainNames] (settings : CacheSettings) (kind : Kind) (url : Url) :
    Decidable (settings.Finds kind url) :=
  inferInstanceAs (Decidable (∃ entry ∈ settings.table kind, kind.Recognises entry url))

/-- A class is the first with an entry that recognises an address, or it is that of what is left, and
no class has such an entry. -/
structure IsFirst [Url.DomainNames] (settings : CacheSettings) (url : Url) (kind : Kind) :
    Prop where
  found : kind = .residual ∨ settings.Finds kind url
  before : ∀ other : Kind, other.rank < kind.rank → ¬ settings.Finds other url

/-- Settings have the entries of others, and more at most for one class. -/
structure Enlarges (larger settings : CacheSettings) (kind : Kind) : Prop where
  kept : settings.table kind ⊆ larger.table kind
  others : ∀ other, other ≠ kind → larger.table other = settings.table other

variable {settings larger : CacheSettings} {url : Url} {kind other : Kind}

/-- No class comes before the first. -/
theorem IsFirst.rank_le [Url.DomainNames] (h : settings.IsFirst url kind)
    (h' : settings.IsFirst url other) :
    kind.rank ≤ other.rank := by
  -- what is found for the other is not before the first
  rcases h'.found with rfl | hfound
  · exact kind.rank_le_residual
  · exact Nat.le_of_not_lt fun hlt => h.before other hlt hfound

/-- There is one first class. -/
theorem IsFirst.unique [Url.DomainNames] (h : settings.IsFirst url kind)
    (h' : settings.IsFirst url other) :
    kind = other :=
  Kind.rank_injective (Nat.le_antisymm (h.rank_le h') (h'.rank_le h))

/-- Neither the order of the entries nor how often they are there counts. -/
theorem IsFirst.congr [Url.DomainNames]
    (hsame : ∀ kind entry, entry ∈ larger.table kind ↔ entry ∈ settings.table kind)
    (h : settings.IsFirst url kind) : larger.IsFirst url kind := by
  have hfinds (kind : Kind) : larger.Finds kind url ↔ settings.Finds kind url :=
    exists_congr fun entry => and_congr_left' (hsame kind entry)
  refine ⟨h.found.imp_right (hfinds kind).mpr, fun other hlt => ?_⟩
  rw [hfinds]
  exact h.before other hlt

section

variable [Url.DomainNames] (henlarges : larger.Enlarges settings kind)

include henlarges

/-- Other tables find what they found. -/
theorem Enlarges.finds_of_ne (hne : other ≠ kind) :
    larger.Finds other url ↔ settings.Finds other url := by
  rw [Finds, Finds, henlarges.others other hne]

/-- What was found is found in a larger table. -/
theorem Enlarges.finds (hfinds : settings.Finds other url) : larger.Finds other url := by
  by_cases hkind : other = kind
  · subst hkind
    obtain ⟨entry, hentry, hrecognises⟩ := hfinds
    exact ⟨entry, henlarges.kept hentry, hrecognises⟩
  · exact (henlarges.finds_of_ne hkind).mpr hfinds

/-- The class whose table got an entry for the address is the first, if it is before the first. -/
theorem Enlarges.isFirst_of_lt (hfirst : settings.IsFirst url other) (hlt : kind.rank < other.rank)
    (hfinds : larger.Finds kind url) : larger.IsFirst url kind where
  found := .inr hfinds
  before before hbefore := by
    have hne : before ≠ kind := fun h => Nat.lt_irrefl _ (h ▸ hbefore)
    rw [henlarges.finds_of_ne hne]
    exact hfirst.before before (Nat.lt_trans hbefore hlt)

/-- Otherwise the first stays the first. -/
theorem Enlarges.isFirst_of_not (hfirst : settings.IsFirst url other)
    (hnot : ¬ (kind.rank < other.rank ∧ larger.Finds kind url)) : larger.IsFirst url other where
  found := hfirst.found.imp_right henlarges.finds
  before before hbefore := by
    -- the tables before the first have no entry for the address, but for that which got some
    by_cases hkind : before = kind
    · exact fun hfinds => hnot ⟨hkind ▸ hbefore, hkind ▸ hfinds⟩
    · rw [henlarges.finds_of_ne hkind]
      exact hfirst.before before hbefore

end

/-! ### Tables as matchers -/

/-- A part is found in a path exactly if it stands in it. -/
theorem any_hits_of_contains {parts : List String} :
    (parts.map Matcher.pathContains).any (Matcher.hits url) = true ↔
      ∃ part ∈ parts, part.toList <:+: url.path.chars := by
  simp [Matcher.hits, Text.occursIn_iff]

/-- The table of the files of rooms finds what is in the settings. -/
theorem any_hits_dynamic [Url.DomainNames] :
    (settings.dynamicFiles.map Matcher.pathContains).any (Matcher.hits url) = true ↔
      settings.Finds .dynamic url :=
  any_hits_of_contains

/-- So does that of the paths of the interface. -/
theorem any_hits_api [Url.DomainNames] :
    (settings.apiPatterns.map Matcher.pathContains).any (Matcher.hits url) = true ↔
      settings.Finds .api url :=
  any_hits_of_contains

/-- So does that of the static assets. -/
theorem any_hits_static [Url.DomainNames] :
    (settings.staticAssets.flatMap Matcher.ofAsset).any (Matcher.hits url) = true ↔
      settings.Finds .static url := by
  rw [List.any_flatMap, List.any_eq_true]
  exact exists_congr fun entry => and_congr_right' Matcher.any_hits_ofAsset

end CacheSettings

/-! ### Classes -/

namespace Cache.Classifier

variable {settings larger : CacheSettings} {url : Url} {kind : Kind}

/-- The class of an address is the first with an entry that recognises it. -/
theorem isFirst_classify [Url.DomainNames] (settings : CacheSettings) (url : Url) :
    settings.IsFirst url ((ofSettings settings).classify url) := by
  rw [classify_ofSettings]
  simp only [CacheSettings.any_hits_dynamic, CacheSettings.any_hits_api,
    CacheSettings.any_hits_static]
  -- each table is asked where those before it have no entry for the address
  split
  · rename_i hdynamic
    exact ⟨.inr hdynamic, fun other hlt => absurd hlt (Nat.not_lt_zero _)⟩
  · rename_i hdynamic
    split
    · rename_i hapi
      refine ⟨.inr hapi, fun other hlt => ?_⟩
      cases other with
      | dynamic => exact hdynamic
      | _ => exact absurd hlt (by decide)
    · rename_i hapi
      split
      · rename_i hstatic
        refine ⟨.inr hstatic, fun other hlt => ?_⟩
        cases other with
        | dynamic => exact hdynamic
        | api => exact hapi
        | _ => exact absurd hlt (by decide)
      · rename_i hstatic
        refine ⟨.inl rfl, fun other hlt => ?_⟩
        cases other with
        | dynamic => exact hdynamic
        | api => exact hapi
        | static => exact hstatic
        | residual => exact absurd hlt (Nat.lt_irrefl _)

/-- The class of an address is the first one that finds it. -/
theorem classify_eq_iff [Url.DomainNames] :
    (ofSettings settings).classify url = kind ↔ settings.IsFirst url kind := by
  constructor
  · rintro rfl
    exact isFirst_classify settings url
  · exact (isFirst_classify settings url).unique

/-- The class of an address after entries have been added to a table. -/
theorem classify_of_enlarges [Url.DomainNames] (henlarges : larger.Enlarges settings kind) :
    (ofSettings larger).classify url =
      if kind.rank < ((ofSettings settings).classify url).rank ∧ larger.Finds kind url then kind
      else (ofSettings settings).classify url := by
  have hfirst := isFirst_classify settings url
  rw [classify_eq_iff]
  split
  · rename_i hmoved
    exact henlarges.isFirst_of_lt hfirst hmoved.1 hmoved.2
  · rename_i hnot
    exact henlarges.isFirst_of_not hfirst hnot

/-- **Precedence of the tables.** An address has the class of the first table, of the files of rooms,
the interface and the static assets, with an entry that recognises it, and is left over if there is
none.  So entries that are added to a table, at whatever places, leave its class as it was or make it
that of the table, the latter only where it was of a later class; and they do so exactly if, moreover,
an entry of the table recognises it.  The order of the entries of a table, and how often they are
there, never count. -/
theorem classifies_by_first_table [Url.DomainNames] (settings : CacheSettings) (url : Url) :
    let kind := (ofSettings settings).classify url
    (∀ other, kind = other ↔ settings.IsFirst url other) ∧
    (∀ (larger : CacheSettings) (added : Kind), larger.Enlarges settings added →
      ((ofSettings larger).classify url = kind ∨
        (ofSettings larger).classify url = added ∧ added.rank < kind.rank) ∧
      ((ofSettings larger).classify url ≠ kind ↔
        added.rank < kind.rank ∧ larger.Finds added url)) ∧
    (∀ shuffled : CacheSettings,
      (∀ table entry, entry ∈ shuffled.table table ↔ entry ∈ settings.table table) →
      (ofSettings shuffled).classify url = kind) := by
  intro kind
  refine ⟨fun _ => classify_eq_iff, fun larger added henlarges => ?_, fun shuffled hsame => ?_⟩
  · rw [classify_of_enlarges henlarges]
    split
    · rename_i hmoved
      have hne : added ≠ kind := fun h => Nat.lt_irrefl _ (h ▸ hmoved.1)
      exact ⟨.inr ⟨rfl, hmoved.1⟩, iff_of_true hne hmoved⟩
    · rename_i hnot
      exact ⟨.inl rfl, iff_of_false (not_not_intro rfl) hnot⟩
  · exact classify_eq_iff.mpr ((isFirst_classify settings url).congr hsame)

/-- A style sheet under the interface: it moves to the files of rooms as soon as its name is one of
them, but not to the static assets. -/
theorem classifies_by_first_table_of_overlap :
    let url : Url := ⟨"http", "", "", some (.domain "origin.test"), none,
      .segments ["rooms", "a.css"], none, none⟩
    let settings : CacheSettings := { CacheSettings.initial with staticAssets := ["/rooms/a.css"] }
    let dynamic := { settings with
      dynamicFiles := ["codecopy.js", "a.css"] ++ settings.dynamicFiles }
    let static := { settings with staticAssets := ["a.css", "/rooms/a.css"] }
    let shuffled := { settings with apiPatterns := ["/metrics", "/rooms/", "/files/", "/rooms/"] }
    (ofSettings settings).classify url = .api ∧
      dynamic.Enlarges settings .dynamic ∧ (ofSettings dynamic).classify url = .dynamic ∧
      static.Enlarges settings .static ∧ static.Finds .static url ∧
      (ofSettings static).classify url = .api ∧
      (∀ table entry, entry ∈ shuffled.table table ↔ entry ∈ settings.table table) ∧
      (ofSettings shuffled).classify url = .api := by
  intro url settings dynamic static shuffled
  have hdynamic : dynamic.Enlarges settings .dynamic :=
    ⟨List.subset_append_right _ _, fun other hne => by cases other <;> first | rfl | contradiction⟩
  have hstatic : static.Enlarges settings .static :=
    ⟨List.subset_cons_self _ _, fun other hne => by cases other <;> first | rfl | contradiction⟩
  have hshuffled (table : Kind) (entry : String) :
      entry ∈ shuffled.table table ↔ entry ∈ settings.table table := by
    cases table with
    | api =>
      simp only [shuffled, settings, CacheSettings.table, CacheSettings.initial, List.mem_cons]
      grind
    | _ => rfl
  have hfound : static.Finds .static url := by decide
  obtain ⟨hclass, hadded, hsame⟩ := classifies_by_first_table settings url
  have hapi : (ofSettings settings).classify url = .api :=
    (hclass .api).mpr ⟨.inr (by decide), fun other hlt => by
      cases other <;> first | decide | exact absurd hlt (by decide)⟩
  rw [hapi] at hadded hsame
  obtain ⟨hmoves, hmoved⟩ := hadded dynamic .dynamic hdynamic
  obtain ⟨_, hstays⟩ := hadded static .static hstatic
  refine ⟨hapi, hdynamic, ?_, hstatic, hfound, ?_, hshuffled, hsame shuffled hshuffled⟩
  · exact (hmoves.resolve_left (hmoved.mpr ⟨by decide, by decide⟩)).1
  · exact Decidable.not_not.mp fun hne => absurd (hstays.mp hne).1 (by decide)

end Cache.Classifier

end DropRoom
