import DropRoom.Proofs.Cache.Precedence
import DropRoom.Proofs.Proxy.Freshness
import DropRoom.Proofs.Url.PlainPath

namespace DropRoom

/-!
# The class of static assets

A static asset that is given as a path is fetched from the address that the path is resolved to, and
requests for that address are recognised by the path as it is given.  The two agree where nothing
of the path changes when it is resolved.

* `CacheSettings.Spares` — no entry of the tables that are asked before that of the static assets
  recognises an address;
* `Proxy.asset_is_static_iff` — the class of the address that an asset is fetched from.
-/

open Cache (Classifier Matcher)

/-! ### Tables -/

/-- Neither a file that is never intercepted nor a path of the server's interface is found in the
path of an address. -/
def CacheSettings.Spares (settings : CacheSettings) (url : Url) : Prop :=
  ∀ part ∈ settings.dynamicFiles ++ settings.apiPatterns,
    Text.occursIn part.toList url.path.chars = false

variable {settings : CacheSettings} {url : Url}

/-- An address is spared exactly if neither of the two tables that come first finds it. -/
theorem CacheSettings.spares_iff [Url.DomainNames] :
    settings.Spares url ↔ ¬ settings.Finds .dynamic url ∧ ¬ settings.Finds .api url := by
  rw [← any_hits_dynamic, ← any_hits_api]
  simp [Spares, Matcher.hits, or_imp, forall_and]

/-- An address is static exactly if it is spared and an entry of an asset recognises it. -/
theorem Cache.Classifier.classify_eq_static_iff [Url.DomainNames] :
    (ofSettings settings).classify url = .static ↔
      settings.Spares url ∧ ∃ entry ∈ settings.staticAssets, Matcher.Recognises entry url := by
  rw [classify_eq_iff, CacheSettings.spares_iff]
  constructor
  · intro h
    exact ⟨⟨h.before .dynamic (by decide), h.before .api (by decide)⟩,
      h.found.resolve_left (by decide)⟩
  · rintro ⟨⟨hdynamic, hapi⟩, hfound⟩
    refine ⟨.inr hfound, fun other hlt => ?_⟩
    cases other with
    | dynamic => exact hdynamic
    | api => exact hapi
    | _ => exact absurd hlt (by decide)

/-- What is at a static address is answered from the cache first. -/
theorem Cache.Classifier.route_get_of_static {classifier : Classifier} (hhttp : url.isHttp = true)
    (hclass : classifier.classify url = .static) :
    classifier.route (.get url) = .intercept .static .cacheFirst := by
  have hstream : ¬ (Http.Request.get url).accepts "text/event-stream" = true := Bool.false_ne_true
  have hurl : (Http.Request.get url).url = url := rfl
  rw [route_of_get rfl hhttp, if_neg hstream, hurl, hclass]
  rfl

namespace Proxy

/-! ### Assets that are fetched -/

/-- **The class of an asset.** A static asset that is given as a path is fetched from the address that
the path is resolved to.  This address is static exactly if no entry of the tables that are asked
before is found in its path, and some entry for static assets recognises it.  If the path is plain,
its own entry does, and requests are answered from the cache first.  After one slash, its own entry
does so for nothing but a plain path. -/
theorem asset_is_static_iff [Url.DomainNames] {settings : Settings} {store : Cache.Store}
    {p : Proxy} (hp : ofSettings settings store = .ok p) {asset : String}
    (hasset : asset ∈ settings.cache.staticAssets) (hpath : Matcher.looksAbsolute asset = false)
    {url : Url} (hurl : p.origin.join asset = .ok url) :
    url ∈ p.assetUrls ∧
    (p.classifier.classify url = .static ↔
      settings.cache.Spares url ∧
        ∃ entry ∈ settings.cache.staticAssets, Matcher.Recognises entry url) ∧
    (Url.PlainPath asset.toList → Url.StaysOnServer asset → settings.cache.Spares url →
      p.classifier.route (.get url) = .intercept .static .cacheFirst) ∧
    (∀ rest, Url.normalized asset = '/' :: rest → rest.takeWhile Url.isSlash = [] →
      (Matcher.Recognises asset url ↔ Url.PlainPath asset.toList)) := by
  obtain ⟨horigin, hclassifier, _, hassets⟩ := ofSettings_cases hp
  have hsuffix : Matcher.Recognises asset url ↔ asset.toList <:+ url.path.chars := by
    rw [Matcher.Recognises, if_neg (by rw [hpath]; exact Bool.false_ne_true)]
  -- a plain path is not rewritten on the way to `url`, so that its entry is found at the end
  have hplain (hplain : Url.PlainPath asset.toList) (hserver : Url.StaysOnServer asset) :
      url.origin = p.origin.origin ∧ Matcher.Recognises asset url := by
    obtain ⟨found, hfound, hserved, hends⟩ := Url.suffix_path_of_plain horigin hplain hserver
    obtain rfl : found = url := Except.ok.inj (hfound.symm.trans hurl)
    exact ⟨hserved, hsuffix.mpr hends⟩
  have hclass : p.classifier.classify url = .static ↔
      settings.cache.Spares url ∧
        ∃ entry ∈ settings.cache.staticAssets, Matcher.Recognises entry url := by
    rw [hclassifier]
    exact Classifier.classify_eq_static_iff
  refine ⟨?_, hclass, fun hplainPath hserver hspared => ?_, fun rest hreference hslash => ?_⟩
  · refine List.mem_filterMap.mpr ⟨asset, ?_, by rw [hurl]; rfl⟩
    rw [hassets]
    exact List.mem_filter.mpr ⟨hasset, by rw [hpath]; rfl⟩
  · obtain ⟨hserved, hrecognises⟩ := hplain hplainPath hserver
    have hscheme : url.scheme = p.origin.scheme := congrArg Url.Origin.scheme hserved
    have hhttp : url.isHttp = true := by
      rw [Url.isHttp, hscheme]
      exact horigin.isHttp
    exact Classifier.route_get_of_static hhttp (hclass.mpr ⟨hspared, asset, hasset, hrecognises⟩)
  · constructor
    · intro hrecognises
      exact Url.plainPath_of_suffix_path horigin hreference hslash hurl (hsuffix.mp hrecognises)
    · intro hplainPath
      refine (hplain hplainPath ⟨?_, ?_⟩).2
      · rw [hreference]
        rfl
      · rw [hreference, List.takeWhile_cons_of_pos rfl, hslash]
        decide

/-! ### A blank within a path -/

/-- Settings with two static assets, of which one has a blank in its path. -/
def blankSettings : Settings :=
  { Settings.ofBaseUrl "http://origin.test" with
    cache := { CacheSettings.initial with staticAssets := ["/create.html", "/my styles.css"] } }

/-- The proxy of the settings. -/
def blankProxy : Proxy where
  origin := sheetUrl [""]
  classifier := .ofSettings blankSettings.cache
  engine := .ofSettings blankSettings.cache .empty
  staticAssets := blankSettings.cache.staticAssets

/-- The page is static.  The style sheet is fetched, too, but although no other table has an entry for
its address it is not static. -/
theorem asset_is_static_iff_of_blank :
    let page := sheetUrl ["create.html"]
    let style := sheetUrl ["my%20styles.css"]
    ofSettings blankSettings .empty = .ok blankProxy ∧
      blankProxy.classifier.route (.get page) = .intercept .static .cacheFirst ∧
      style ∈ blankProxy.assetUrls ∧ blankSettings.cache.Spares style ∧
      blankProxy.classifier.classify style ≠ .static := by
  intro page style
  have hp : ofSettings blankSettings .empty = .ok blankProxy := by rfl
  have hspares : blankSettings.cache.Spares page ∧ blankSettings.cache.Spares style := by
    simp only [CacheSettings.Spares]
    decide
  obtain ⟨_, _, hpage, _⟩ := asset_is_static_iff hp List.mem_cons_self
    (by decide : Matcher.looksAbsolute "/create.html" = false) (by rfl : _ = Except.ok page)
  obtain ⟨hfetched, hclass, _, hplain⟩ :=
    asset_is_static_iff hp (List.mem_cons_of_mem _ List.mem_cons_self)
      (by decide : Matcher.looksAbsolute "/my styles.css" = false) (by rfl : _ = Except.ok style)
  refine ⟨hp, hpage (by decide) ⟨by decide, by decide⟩ hspares.1, hfetched, hspares.2,
    fun hstatic => ?_⟩
  obtain ⟨_, entry, hentry, hrecognises⟩ := hclass.mp hstatic
  have hentries : entry = "/create.html" ∨ entry = "/my styles.css" := by
    simpa [blankSettings] using hentry
  rcases hentries with rfl | rfl
  · revert hrecognises
    decide
  · -- the blank of its own entry is encoded in the address
    have hblank : ¬ Url.PlainPath "/my styles.css".toList := by decide
    exact hblank ((hplain _ rfl rfl).mp hrecognises)

end Proxy

end DropRoom
