import DropRoom.Proofs.Settings.Check
import DropRoom.Proofs.Yaml.Mappings

namespace DropRoom

/-!
# Keys that are left out of a document

A document of settings need not give all keys.  At the top all keys but that of the server have
defaults.  A section on the cache has to be given as a whole, but for one key.

* `CacheSettings.reset`, `Settings.reset` — settings with some values at their defaults;
* `CacheSettings.ofNode?_without` — a section without some keys;
* `Settings.ofNode?_reduced` — a document without some keys;
* `Settings.omitted_keys_take_defaults` — which keys may be left out, and what comes in their place.
-/

open Yaml

/-! ### The section on the cache -/

namespace CacheSettings

/-- The keys that a section on the cache must give. -/
def requiredKeys : List String :=
  ["version", "static_assets", "dynamic_files", "api_patterns"]

/-- The tables with those of some keys at their defaults. -/
def reset (keys : List String) (settings : CacheSettings) : CacheSettings where
  version := if "version" ∈ keys then initial.version else settings.version
  staticAssets := if "static_assets" ∈ keys then initial.staticAssets else settings.staticAssets
  dynamicFiles := if "dynamic_files" ∈ keys then initial.dynamicFiles else settings.dynamicFiles
  apiPatterns := if "api_patterns" ∈ keys then initial.apiPatterns else settings.apiPatterns
  offlinePaths := if "offline_paths" ∈ keys then initial.offlinePaths else settings.offlinePaths

/-- Defaults that are reset are the defaults. -/
theorem reset_initial (keys : List String) : initial.reset keys = initial := by
  simp only [reset, ite_self]

/-- A section is read exactly if each of its keys is read, with its default where it has one. -/
theorem ofNode?_eq_some {node : Node} {settings : CacheSettings} :
    ofNode? node = some settings ↔ ∃ fields,
      node.fields? ["version", "static_assets", "dynamic_files", "api_patterns", "offline_paths"] =
        some fields ∧
      required fields "version" Node.text? = some settings.version ∧
      required fields "static_assets" Node.texts? = some settings.staticAssets ∧
      required fields "dynamic_files" Node.texts? = some settings.dynamicFiles ∧
      required fields "api_patterns" Node.texts? = some settings.apiPatterns ∧
      defaulted fields "offline_paths" Node.texts? defaultOfflinePaths =
        some settings.offlinePaths := by
  obtain ⟨version, staticAssets, dynamicFiles, apiPatterns, offlinePaths⟩ := settings
  simp only [ofNode?, Option.bind_eq_bind, Option.bind_eq_some_iff, Option.pure_def,
    Option.some.injEq, CacheSettings.mk.injEq]
  constructor
  · rintro ⟨fields, hfields, _, hversion, _, hstatic, _, hdynamic, _, hapi, _, hoffline,
      rfl, rfl, rfl, rfl, rfl⟩
    exact ⟨fields, hfields, hversion, hstatic, hdynamic, hapi, hoffline⟩
  · rintro ⟨fields, hfields, hversion, hstatic, hdynamic, hapi, hoffline⟩
    exact ⟨fields, hfields, _, hversion, _, hstatic, _, hdynamic, _, hapi, _, hoffline,
      rfl, rfl, rfl, rfl, rfl⟩

/-- A section on the cache has all keys that it must give. -/
theorem field?_of_ofNode? {node : Node} {settings : CacheSettings}
    (h : ofNode? node = some settings) {fields : List (String × Node)}
    (hfields : node.fields?
      ["version", "static_assets", "dynamic_files", "api_patterns", "offline_paths"] =
        some fields) :
    ∀ key ∈ requiredKeys, field? fields key ≠ none := by
  obtain ⟨found, hfound, hversion, hstatic, hdynamic, hapi, _⟩ := ofNode?_eq_some.mp h
  obtain rfl := Option.some.inj (hfields.symm.trans hfound)
  simp only [requiredKeys, List.forall_mem_cons, List.not_mem_nil, false_implies, implies_true,
    and_true]
  exact ⟨field?_of_required hversion, field?_of_required hstatic, field?_of_required hdynamic,
    field?_of_required hapi⟩

/-- A section without some keys is refused if it has to give one of them, and else the key that it may
leave out has its default. -/
theorem ofNode?_without {node : Node} {settings : CacheSettings}
    (h : ofNode? node = some settings) (keys : List String) :
    ofNode? (node.without keys) =
      if ∀ key ∈ requiredKeys, key ∉ keys then some (settings.reset keys) else none := by
  obtain ⟨fields, hfields, hversion, hstatic, hdynamic, hapi, hoffline⟩ := ofNode?_eq_some.mp h
  have hversion := required_without hversion keys
  have hstatic := required_without hstatic keys
  have hdynamic := required_without hdynamic keys
  have hapi := required_without hapi keys
  have hoffline := defaulted_without hoffline keys
  split
  · rename_i hkept
    rw [requiredKeys] at hkept
    simp only [List.forall_mem_cons] at hkept
    obtain ⟨hkversion, hkstatic, hkdynamic, hkapi, _⟩ := hkept
    rw [if_neg hkversion] at hversion
    rw [if_neg hkstatic] at hstatic
    rw [if_neg hkdynamic] at hdynamic
    rw [if_neg hkapi] at hapi
    refine ofNode?_eq_some.mpr ⟨_, fields?_without hfields keys, ?_, ?_, ?_, ?_, hoffline⟩
    · rw [hversion, reset, if_neg hkversion]
    · rw [hstatic, reset, if_neg hkstatic]
    · rw [hdynamic, reset, if_neg hkdynamic]
    · rw [hapi, reset, if_neg hkapi]
  · rename_i hleft
    rw [Option.eq_none_iff_forall_ne_some]
    intro read hread
    -- a key that is left out would have to be there
    refine hleft fun key hrequired hkey => ?_
    have hnone := field?_without keys fields key
    rw [if_pos hkey] at hnone
    exact field?_of_ofNode? hread (fields?_without hfields keys) key hrequired hnone

end CacheSettings

/-! ### Documents -/

namespace Settings

/-- A document without some keys, and with some others left out of its section on the cache. -/
def reduced (omitted cacheOmitted : List String) (node : Node) : Node :=
  (node.change "cache" (.without cacheOmitted)).without omitted

/-- The section on the cache of a document. -/
def cacheSection? (node : Node) : Option Node :=
  (node.fields? keys).bind (field? · "cache")

/-- The settings with those of some keys at their defaults, and those of some others within the
section on the cache. -/
def reset (omitted cacheOmitted : List String) (settings : Settings) : Settings where
  baseUrl := settings.baseUrl
  username := if "username" ∈ omitted then initial.username else settings.username
  createPage := if "create_page" ∈ omitted then initial.createPage else settings.createPage
  redirectDelay :=
    if "redirect_delay_ms" ∈ omitted then initial.redirectDelay else settings.redirectDelay
  actionRedirectDelay :=
    if "action_redirect_delay_ms" ∈ omitted then initial.actionRedirectDelay
    else settings.actionRedirectDelay
  toastLifetime := if "notification_ms" ∈ omitted then initial.toastLifetime else settings.toastLifetime
  promptLifetime :=
    if "prompt_notification_ms" ∈ omitted then initial.promptLifetime else settings.promptLifetime
  reconnection := if "reconnect" ∈ omitted then initial.reconnection else settings.reconnection
  eventCapacity :=
    if "event_bus_capacity" ∈ omitted then initial.eventCapacity else settings.eventCapacity
  cache := if "cache" ∈ omitted then initial.cache else settings.cache.reset cacheOmitted
  proxyListen := if "proxy_listen" ∈ omitted then initial.proxyListen else settings.proxyListen

theorem ofNode?_eq_some {node : Node} {settings : Settings} :
    ofNode? node = some settings ↔ ∃ fields, node.fields? keys = some fields ∧
      required fields "base_url" Node.text? = some settings.baseUrl ∧
      defaulted fields "username" Node.optionalText? none = some settings.username ∧
      defaulted fields "create_page" Node.text? initial.createPage = some settings.createPage ∧
      defaulted fields "redirect_delay_ms" Node.uint64? initial.redirectDelay =
        some settings.redirectDelay ∧
      defaulted fields "action_redirect_delay_ms" Node.uint64? initial.actionRedirectDelay =
        some settings.actionRedirectDelay ∧
      defaulted fields "notification_ms" Node.uint64? initial.toastLifetime =
        some settings.toastLifetime ∧
      defaulted fields "prompt_notification_ms" Node.uint64? initial.promptLifetime =
        some settings.promptLifetime ∧
      defaulted fields "reconnect" Reconnection.ofNode? .never = some settings.reconnection ∧
      defaulted fields "event_bus_capacity" Node.uint64? initial.eventCapacity =
        some settings.eventCapacity ∧
      defaulted fields "cache" CacheSettings.ofNode? .initial = some settings.cache ∧
      defaulted fields "proxy_listen" Node.text? initial.proxyListen =
        some settings.proxyListen := by
  obtain ⟨baseUrl, username, createPage, redirectDelay, actionRedirectDelay, toastLifetime,
    promptLifetime, reconnection, eventCapacity, cache, proxyListen⟩ := settings
  simp only [ofNode?, Option.bind_eq_bind, Option.bind_eq_some_iff, Option.pure_def,
    Option.some.injEq, Settings.mk.injEq]
  constructor
  · rintro ⟨fields, hfields, _, hbase, _, huser, _, hpage, _, hredirect, _, haction, _, htoast,
      _, hprompt, _, hreconnect, _, hevents, _, hcache, _, hlisten,
      rfl, rfl, rfl, rfl, rfl, rfl, rfl, rfl, rfl, rfl, rfl⟩
    exact ⟨fields, hfields, hbase, huser, hpage, hredirect, haction, htoast, hprompt, hreconnect,
      hevents, hcache, hlisten⟩
  · rintro ⟨fields, hfields, hbase, huser, hpage, hredirect, haction, htoast, hprompt, hreconnect,
      hevents, hcache, hlisten⟩
    exact ⟨fields, hfields, _, hbase, _, huser, _, hpage, _, hredirect, _, haction, _, htoast,
      _, hprompt, _, hreconnect, _, hevents, _, hcache, _, hlisten,
      rfl, rfl, rfl, rfl, rfl, rfl, rfl, rfl, rfl, rfl, rfl⟩

section

variable {fields : List (String × Node)} {omitted cacheOmitted : List String}

/-- The entries of a document without some keys. -/
def reducedFields (omitted cacheOmitted : List String) (fields : List (String × Node)) :
    List (String × Node) :=
  (fields.map fun field =>
      if field.1 = "cache" then (field.1, field.2.without cacheOmitted) else field).filter
    fun field => !omitted.contains field.1

/-- What is reduced has the fields that are left. -/
theorem fields?_reduced {node : Node} (h : node.fields? keys = some fields)
    (omitted cacheOmitted : List String) :
    (reduced omitted cacheOmitted node).fields? keys =
      some (reducedFields omitted cacheOmitted fields) :=
  fields?_without (fields?_change h "cache" _) omitted

/-- A value outside the section on the cache takes its default where it is left out. -/
theorem defaulted_reduced {α : Type} {name : String} {read : Node → Option α} {value default : α}
    (h : defaulted fields name read default = some value) (hname : name ≠ "cache")
    (omitted cacheOmitted : List String) :
    defaulted (reducedFields omitted cacheOmitted fields) name read default =
      some (if name ∈ omitted then default else value) :=
  defaulted_without ((defaulted_change "cache" _ hname default).trans h) omitted

/-- The section on the cache is gone, or has fewer keys. -/
theorem field?_reduced_cache (fields : List (String × Node)) (omitted cacheOmitted : List String) :
    field? (reducedFields omitted cacheOmitted fields) "cache" =
      if "cache" ∈ omitted then none
      else (field? fields "cache").map (.without cacheOmitted) := by
  rw [reducedFields, field?_without, field?_change, if_pos rfl]

/-- The section on the cache may be left out, but not in part. -/
theorem cache_reduced {cache : CacheSettings}
    (h : defaulted fields "cache" CacheSettings.ofNode? .initial = some cache)
    (omitted cacheOmitted : List String) :
    defaulted (reducedFields omitted cacheOmitted fields) "cache" CacheSettings.ofNode? .initial =
      if "cache" ∈ omitted ∨ field? fields "cache" = none ∨
          ∀ key ∈ CacheSettings.requiredKeys, key ∉ cacheOmitted then
        some (if "cache" ∈ omitted then .initial else cache.reset cacheOmitted)
      else none := by
  rw [defaulted, field?_reduced_cache]
  by_cases homitted : "cache" ∈ omitted
  · rw [if_pos homitted, if_pos (.inl homitted), if_pos homitted]
  · simp only [homitted, if_false, false_or]
    cases hsection : field? fields "cache" with
    | none =>
      rw [defaulted, hsection] at h
      cases h
      rw [if_pos (.inl rfl), CacheSettings.reset_initial]
      rfl
    | some node =>
      rw [defaulted, hsection] at h
      simp only [reduceCtorEq, false_or]
      exact CacheSettings.ofNode?_without h cacheOmitted

end

/-- A document stays one of settings without some keys if its section on the cache is left out as a
whole, is not there, or keeps the keys that it must give. -/
def MayOmit (omitted cacheOmitted : List String) (node : Node) : Prop :=
  "cache" ∈ omitted ∨ cacheSection? node = none ∨
    ∀ key ∈ CacheSettings.requiredKeys, key ∉ cacheOmitted

/-- A document that is reduced is read with the defaults of what is gone, if that may be gone. -/
theorem ofNode?_reduced {node : Node} {settings : Settings} (h : ofNode? node = some settings)
    {omitted : List String} (hkept : "base_url" ∉ omitted) (cacheOmitted : List String) :
    (MayOmit omitted cacheOmitted node →
      ofNode? (reduced omitted cacheOmitted node) = some (settings.reset omitted cacheOmitted)) ∧
    (¬ MayOmit omitted cacheOmitted node → ofNode? (reduced omitted cacheOmitted node) = none) := by
  -- one fact for each key that was read, in the order of the document
  obtain ⟨fields, hfields, hbase, huser, hpage, hredirect, haction, htoast, hprompt, hreconnect,
    hevents, hcache, hlisten⟩ := ofNode?_eq_some.mp h
  have hreduced := fields?_reduced hfields omitted cacheOmitted
  have hcache := cache_reduced hcache omitted cacheOmitted
  have hsection : cacheSection? node = field? fields "cache" := by
    rw [cacheSection?, hfields, Option.bind_some]
  rw [MayOmit, hsection]
  refine ⟨fun hmay => ?_, fun hmay => ?_⟩
  · rw [if_pos hmay] at hcache
    have hbase : required (reducedFields omitted cacheOmitted fields) "base_url" Node.text? =
        some settings.baseUrl := by
      have hchanged := (required_change "cache" (.without cacheOmitted) (by decide)).trans hbase
      rw [reducedFields, required_without hchanged omitted, if_neg hkept]
    exact ofNode?_eq_some.mpr ⟨_, hreduced, hbase,
      defaulted_reduced huser (by decide) omitted cacheOmitted,
      defaulted_reduced hpage (by decide) omitted cacheOmitted,
      defaulted_reduced hredirect (by decide) omitted cacheOmitted,
      defaulted_reduced haction (by decide) omitted cacheOmitted,
      defaulted_reduced htoast (by decide) omitted cacheOmitted,
      defaulted_reduced hprompt (by decide) omitted cacheOmitted,
      defaulted_reduced hreconnect (by decide) omitted cacheOmitted,
      defaulted_reduced hevents (by decide) omitted cacheOmitted, hcache,
      defaulted_reduced hlisten (by decide) omitted cacheOmitted⟩
  -- the section of the cache is the one that may not be read any more
  · rw [if_neg hmay] at hcache
    rw [Option.eq_none_iff_forall_ne_some]
    intro read hread
    obtain ⟨found, hfound, _, _, _, _, _, _, _, _, _, hsome, _⟩ := ofNode?_eq_some.mp hread
    obtain rfl := Option.some.inj (hreduced.symm.trans hfound)
    cases hcache.symm.trans hsome

/-! ### The check -/

/-- The defaults pass their checks. -/
theorem check_reset [Url.DomainNames] {settings : Settings} (h : settings.check = .ok ())
    (omitted cacheOmitted : List String) : (settings.reset omitted cacheOmitted).check = .ok () := by
  obtain ⟨url, hbase, hhttp, hversion, hreconnect⟩ := check_eq_ok.mp h
  have hdefault : Text.isBlank CacheSettings.initial.version = false := by decide
  have hversion : Text.isBlank (if "cache" ∈ omitted then CacheSettings.initial
      else settings.cache.reset cacheOmitted).version = false := by
    split
    · exact hdefault
    · show Text.isBlank (if "version" ∈ cacheOmitted then CacheSettings.initial.version
        else settings.cache.version) = false
      split
      · exact hdefault
      · exact hversion
  have hreconnect : waitsAtFirst (if "reconnect" ∈ omitted then initial.reconnection
      else settings.reconnection) = true := by
    split
    · rfl
    · exact hreconnect
  exact check_eq_ok.mpr ⟨url, hbase, hhttp, hversion, hreconnect⟩

/-! ### Texts -/

/-- **Keys that are left out.** Take a text of settings that is read and passes its check, and another
text whose document is the same but for keys that are left out, at the top all but that of the
server.  If the section on the cache is left out as a whole, is not there, or keeps the keys that it
must give, the other text is read and passes its check too: each key that is left out has its
default, and the others have their values.  Otherwise the other text is refused. -/
theorem omitted_keys_take_defaults [Url.DomainNames] {text other : String} {node : Node}
    {settings : Settings}
    {omitted cacheOmitted : List String} (hparse : Yaml.parse text = some node)
    (haccepted : ofYaml text = .ok settings) (hkept : "base_url" ∉ omitted)
    (hother : Yaml.parse other = some (reduced omitted cacheOmitted node)) :
    (MayOmit omitted cacheOmitted node →
      ofYaml other = .ok (settings.reset omitted cacheOmitted)) ∧
    (¬ MayOmit omitted cacheOmitted node →
      ∃ message, ofYaml other = .error (.unreadable none message)) := by
  rw [ofYaml, ofText, hparse, Option.bind_some] at haccepted
  rw [ofYaml, ofText, hother, Option.bind_some]
  split at haccepted
  · cases haccepted
  · rename_i read hread
    split at haccepted
    · cases haccepted
    · rename_i hcheck
      cases haccepted
      obtain ⟨hsome, hnone⟩ := ofNode?_reduced hread hkept cacheOmitted
      refine ⟨fun hmay => ?_, fun hmay => ?_⟩
      · rw [hsome hmay]
        simp only [check_reset hcheck]
      · rw [hnone hmay]
        exact ⟨_, rfl⟩

/-- The lines of a document: that of the server, those of the section on the cache but for the last,
and the last of them. -/
def serverLine : String := "base_url: http://a.test\n"

def sectionLines : String :=
  "cache:\n  version: v2\n  static_assets: [/a]\n  dynamic_files: [x]\n"

def apiLine : String := "  api_patterns: [/q/]\n"

/-- The section on the cache may be left out, but one of its tables may not. -/
theorem omitted_keys_take_defaults_of_tables :
    let settings := { ofBaseUrl "http://a.test" with
      cache := ⟨"v2", ["/a"], ["x"], ["/q/"], CacheSettings.defaultOfflinePaths⟩ }
    ofYaml (serverLine ++ sectionLines ++ apiLine) = .ok settings ∧
      ofYaml serverLine = .ok { settings with cache := .initial } ∧
      ∃ message, ofYaml (serverLine ++ sectionLines) = .error (.unreadable none message) := by
  intro settings
  have haccepted : ofYaml (serverLine ++ sectionLines ++ apiLine) = .ok settings := by
    decide +kernel
  have hwhole : Yaml.parse serverLine =
      (Yaml.parse (serverLine ++ sectionLines ++ apiLine)).map (reduced ["cache"] []) := by
    decide +kernel
  have hpart : Yaml.parse (serverLine ++ sectionLines) =
      (Yaml.parse (serverLine ++ sectionLines ++ apiLine)).map (reduced [] ["api_patterns"]) := by
    decide +kernel
  have hsection : ((Yaml.parse (serverLine ++ sectionLines ++ apiLine)).bind
      cacheSection?).isSome = true := by
    decide +kernel
  cases hparse : Yaml.parse (serverLine ++ sectionLines ++ apiLine) with
  | none =>
    rw [hparse] at hsection
    cases hsection
  | some node =>
    rw [hparse] at hwhole hpart hsection
    have hmay : MayOmit ["cache"] [] node := .inl (by decide)
    have hmay_not : ¬ MayOmit [] ["api_patterns"] node := by
      rintro (hmem | hnone | hkept)
      · cases hmem
      · rw [Option.bind_some, hnone] at hsection
        cases hsection
      · exact hkept "api_patterns" (by decide) (by decide)
    refine ⟨haccepted, ?_, ?_⟩
    · exact (omitted_keys_take_defaults hparse haccepted (by decide) hwhole).1 hmay
    · exact (omitted_keys_take_defaults hparse haccepted (by decide) hpart).2 hmay_not

end Settings

end DropRoom
