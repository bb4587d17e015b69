import DropRoom.Proofs.Proxy.Freshness
import DropRoom.Proofs.Url.Servers

namespace DropRoom

/-!
# Static assets that are fetched

An installation fetches the static assets whose text does not start like an address of the web.  What
it asks for is what these are resolved to, on whatever server that is: a text that starts with two
slashes, with a scheme in capitals or with another scheme names a server as well.  And an asset that
is given by its address is left out even if it is on the server that the proxy stands for.

* `Proxy.fetched` — the addresses that an installation asks the network for;
* `Proxy.mem_fetched_iff` — they are those of the static assets that do not look like addresses;
* `Proxy.fetches_own_assets_iff` — when all of these are on the server, and all that are on the server
  are among them.
-/

open Cache (Matcher)
open Http (Network)

/-- A text that starts like an address of the web is read as one, and names a server. -/
theorem Cache.Matcher.scheme?_of_looksAbsolute {asset : String} (h : looksAbsolute asset = true) :
    ∃ scheme rest, Url.scheme? (Url.normalized asset) = some (scheme, rest) ∧
      2 ≤ (rest.takeWhile Url.isSlash).length := by
  obtain ⟨scheme, hscheme, hstart⟩ : ∃ scheme : String, (scheme = "http" ∨ scheme = "https") ∧
      scheme.toList ++ "://".toList <+: asset.toList := by
    rw [looksAbsolute, Bool.or_eq_true, List.isPrefixOf_iff_prefix, List.isPrefixOf_iff_prefix] at h
    rcases h with hhttp | hhttps
    · exact ⟨"http", .inl rfl, hhttp⟩
    · exact ⟨"https", .inr rfl, hhttps⟩
  obtain ⟨back, hback⟩ := hstart
  have hall : (scheme.toList ++ "://".toList).all (fun c => 32 < c.toNat) = true := by
    rcases hscheme with rfl | rfl
    · decide
    · decide
  have hvisible : ∀ c ∈ scheme.toList ++ "://".toList, Url.Visible c := by
    intro c hc
    have hc32 := List.all_eq_true.mp hall c hc
    rwa [decide_eq_true_eq] at hc32
  -- so nothing is dropped before the two slashes have been read
  obtain ⟨rest, hrest⟩ := Url.normalized_of_prefix (by simp) hvisible hback.symm
  refine ⟨scheme, '/' :: '/' :: rest, ?_, by simp [Url.isSlash]⟩
  rw [hrest, List.append_assoc]
  exact Url.scheme?_of_web hscheme _

/-- An asset that looks like a whole address names a server. -/
theorem Url.namesServer_of_looksAbsolute {asset : String} (h : Matcher.looksAbsolute asset = true)
    (base : Url) : base.NamesServer asset := by
  obtain ⟨scheme, rest, hscheme, hslashes⟩ := Matcher.scheme?_of_looksAbsolute h
  exact (namesServer_of_scheme hscheme).mpr fun _ => hslashes

/-- So the server of the proxy does not count for it. -/
theorem Url.join_of_looksAbsolute [Url.DomainNames] {asset : String}
    (h : Matcher.looksAbsolute asset = true)
    {base : Url} (hbase : base.IsWeb) : base.join asset = Url.parse asset := by
  obtain ⟨scheme, rest, hscheme, _⟩ := Matcher.scheme?_of_looksAbsolute h
  exact join_of_scheme hbase hscheme (namesServer_of_looksAbsolute h base)

namespace Proxy

variable {ν : Type}

/-! ### What is asked for -/

/-- The addresses that an installation asks the network for, in order. -/
def fetched [Url.DomainNames] (p : Proxy) (network : Network ν) (s : ν) : List Url :=
  (p.install (recorded network .installation) ⟨s, []⟩).2.2.said.map fun exchange =>
    exchange.request.url

/-- An installation fetches the addresses of the assets, whatever the network says. -/
theorem fetched_eq [Url.DomainNames] (p : Proxy) (network : Network ν) (s : ν) :
    p.fetched network s = p.assetUrls := by
  have hresult := install_recorded network p.assetUrls p.engine s []
  have hurls := congrArg (List.map Http.Request.url) (map_request_heard network p.assetUrls s)
  simpa [fetched, install, hresult, Function.comp_def, Http.Request.get] using hurls

/-- An address is asked for if it is that of a static asset that does not look like an address. -/
theorem mem_fetched_iff [Url.DomainNames] {p : Proxy} {network : Network ν} {s : ν} {url : Url} :
    url ∈ p.fetched network s ↔
      ∃ asset ∈ p.staticAssets, Matcher.looksAbsolute asset = false ∧
        p.origin.join asset = .ok url := by
  have htoOption (result : Except Url.UrlError Url) :
      result.toOption = some url ↔ result = .ok url := by
    cases result with
    | error e => exact ⟨nofun, nofun⟩
    | ok found =>
      exact ⟨fun h => congrArg _ (Option.some.inj h), fun h => congrArg _ (Except.ok.inj h)⟩
  simp [fetched_eq, assetUrls, and_assoc, htoOption]

/-! ### Assets of the server -/

/-- **Assets of the server.** An installation asks for the addresses of those static assets that do not
look like addresses.  All that name no server are on that of the proxy, and are asked for; those that
name one have nothing of that of the proxy but its scheme.

It asks no other server exactly if all those that name a server name that of the proxy.  And it asks
for all that is on the server exactly if each asset on it that is given by its address is given in
another way as well. -/
theorem fetches_own_assets_iff [Url.DomainNames] {settings : Settings} {store : Cache.Store}
    {p : Proxy} (hp : ofSettings settings store = .ok p) (network : Network ν) (s : ν) :
    let assets := settings.cache.staticAssets
    let fetched := p.fetched network s
    (∀ url, url ∈ fetched ↔
      ∃ asset ∈ assets, Matcher.looksAbsolute asset = false ∧ p.origin.join asset = .ok url) ∧
    (∀ asset ∈ assets, ¬ p.origin.NamesServer asset →
      ∃ url ∈ fetched, p.origin.join asset = .ok url ∧ url.origin = p.origin.origin) ∧
    (∀ asset ∈ assets, p.origin.NamesServer asset → ∀ other : Url, other.IsWeb →
      other.scheme = p.origin.scheme → other.join asset = p.origin.join asset) ∧
    ((∀ url ∈ fetched, url.origin = p.origin.origin) ↔
      ∀ asset ∈ assets, Matcher.looksAbsolute asset = false → p.origin.NamesServer asset →
        ∀ url, p.origin.join asset = .ok url → url.origin = p.origin.origin) ∧
    ((∀ asset ∈ assets, ∀ url, p.origin.join asset = .ok url → url.origin = p.origin.origin →
        url ∈ fetched) ↔
      ∀ asset ∈ assets, Matcher.looksAbsolute asset = true → ∀ url, Url.parse asset = .ok url →
        url.origin = p.origin.origin →
          ∃ other ∈ assets, Matcher.looksAbsolute other = false ∧ p.origin.join other = .ok url) := by
  intro assets fetched
  obtain ⟨horigin, _, _, hassets⟩ := ofSettings_cases hp
  have hfetched : ∀ url, url ∈ fetched ↔
      ∃ asset ∈ assets, Matcher.looksAbsolute asset = false ∧ p.origin.join asset = .ok url := by
    intro url
    rw [mem_fetched_iff, hassets]
  refine ⟨hfetched, fun asset hasset hserver => ?_, fun asset _ hserver other hother hscheme => ?_,
    ⟨?_, ?_⟩, ⟨?_, ?_⟩⟩
  · obtain ⟨url, hurl, hserved⟩ := Url.join_of_not_namesServer horigin hserver
    have hpath : Matcher.looksAbsolute asset = false :=
      Bool.eq_false_iff.mpr fun h => hserver (Url.namesServer_of_looksAbsolute h p.origin)
    exact ⟨url, (hfetched url).mpr ⟨asset, hasset, hpath, hurl⟩, hurl, hserved⟩
  · exact Url.join_of_namesServer horigin hother hscheme hserver
  · intro hall asset hasset hpath _ url hurl
    exact hall url ((hfetched url).mpr ⟨asset, hasset, hpath, hurl⟩)
  · intro hown url hmem
    obtain ⟨asset, hasset, hpath, hurl⟩ := (hfetched url).mp hmem
    -- a text that names no server cannot lead to another one
    by_cases hserver : p.origin.NamesServer asset
    · exact hown asset hasset hpath hserver url hurl
    · obtain ⟨found, hfound, hserved⟩ := Url.join_of_not_namesServer horigin hserver
      obtain rfl : found = url := Except.ok.inj (hfound.symm.trans hurl)
      exact hserved
  · intro hall asset hasset habsolute url hparse hserved
    have hurl := (Url.join_of_looksAbsolute habsolute horigin).trans hparse
    exact (hfetched url).mp (hall asset hasset url hurl hserved)
  · intro hgiven asset hasset url hurl hserved
    rw [hfetched]
    cases habsolute : Matcher.looksAbsolute asset with
    | false => exact ⟨asset, hasset, habsolute, hurl⟩
    | true =>
      have hparse := (Url.join_of_looksAbsolute habsolute horigin).symm.trans hurl
      exact hgiven asset hasset habsolute url hparse hserved

/-! ### A library of another server -/

/-- Settings with a page on the server, a library of another server that is given without a scheme, and
a style sheet on the server that is given by its address. -/
def librarySettings : Settings :=
  { Settings.ofBaseUrl "http://origin.test" with
    cache := { CacheSettings.initial with
      staticAssets := ["/create.html", "//cdn.test/lib.js", "http://origin.test/app.css"] } }

/-- The proxy of the settings. -/
def libraryProxy : Proxy where
  origin := sheetUrl [""]
  classifier := .ofSettings librarySettings.cache
  engine := .ofSettings librarySettings.cache .empty
  staticAssets := librarySettings.cache.staticAssets

/-- The page is fetched.  The library is fetched from the other server, and the style sheet is left
out. -/
theorem fetches_own_assets_iff_of_library :
    let page := sheetUrl ["create.html"]
    let library := { sheetUrl ["lib.js"] with host := some (.domain "cdn.test") }
    let style := sheetUrl ["app.css"]
    let fetched := libraryProxy.fetched scripted []
    ofSettings librarySettings .empty = .ok libraryProxy ∧ page ∈ fetched ∧
      library ∈ fetched ∧ library.origin ≠ libraryProxy.origin.origin ∧
      libraryProxy.origin.join "http://origin.test/app.css" = .ok style ∧
      style.origin = libraryProxy.origin.origin ∧ style ∉ fetched := by
  intro page library style fetched
  have hp : ofSettings librarySettings .empty = .ok libraryProxy := by rfl
  obtain ⟨hfetched, hserved, _⟩ := fetches_own_assets_iff hp scripted []
  have hpage : libraryProxy.origin.join "/create.html" = .ok page := by rfl
  have hlibrary : libraryProxy.origin.join "//cdn.test/lib.js" = .ok library := by rfl
  -- only the entry that is left out is resolved to the style sheet
  have hmissing : style ∉ fetched := by
    intro hmem
    obtain ⟨asset, hasset, hpath, hurl⟩ := (hfetched style).mp hmem
    have hassets : asset = "/create.html" ∨ asset = "//cdn.test/lib.js" ∨
        asset = "http://origin.test/app.css" := by
      simpa [librarySettings] using hasset
    rcases hassets with rfl | rfl | rfl
    · exact absurd (Except.ok.inj (hurl.symm.trans hpage)) (by decide)
    · exact absurd (Except.ok.inj (hurl.symm.trans hlibrary)) (by decide)
    · cases hpath
  obtain ⟨found, hfound, hurl, _⟩ := hserved "/create.html" List.mem_cons_self (by decide)
  obtain rfl : page = found := Except.ok.inj (hpage.symm.trans hurl)
  refine ⟨hp, hfound, ?_, by decide, by rfl, rfl, hmissing⟩
  refine (hfetched library).mpr ⟨"//cdn.test/lib.js", ?_, by decide, hlibrary⟩
  exact List.mem_cons_of_mem _ List.mem_cons_self

end Proxy

end DropRoom
