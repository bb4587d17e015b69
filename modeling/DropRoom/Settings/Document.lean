import DropRoom.Settings.Basic

namespace DropRoom

/-!
# Settings as JSON documents

* `CacheSettings.decoder`, `CacheSettings.toJson`;
* `Settings.decoder`, `Settings.toJson`.

Only the address of the server must be given; a section on the cache must be
complete but for the paths that are answered while offline.
-/

/-- The decoder of the section on the cache. -/
def CacheSettings.decoder : Json.Decoder CacheSettings :=
  (Json.Record.start CacheSettings.mk
    |>.required "version" .string
    |>.required "static_assets" (.list .string)
    |>.required "dynamic_files" (.list .string)
    |>.required "api_patterns" (.list .string)
    |>.defaulted "offline_paths" (.list .string) CacheSettings.defaultOfflinePaths).decoder

/-- The members of the section on the cache. -/
def CacheSettings.members (s : CacheSettings) : List (String × Json) := [
  ("version", .string s.version),
  ("static_assets", .strings s.staticAssets),
  ("dynamic_files", .strings s.dynamicFiles),
  ("api_patterns", .strings s.apiPatterns),
  ("offline_paths", .strings s.offlinePaths)]

/-- The decoder of settings. -/
def Settings.decoder : Json.Decoder Settings :=
  (Json.Record.start Settings.mk
    |>.required "base_url" .string
    |>.defaulted "username" (.nullable .string) none
    |>.defaulted "create_page" .string Settings.initial.createPage
    |>.defaulted "redirect_delay_ms" .uint64 Settings.initial.redirectDelay
    |>.defaulted "action_redirect_delay_ms" .uint64 Settings.initial.actionRedirectDelay
    |>.defaulted "notification_ms" .uint64 Settings.initial.toastLifetime
    |>.defaulted "prompt_notification_ms" .uint64 Settings.initial.promptLifetime
    |>.defaulted "reconnect" Reconnection.decoder .never
    |>.defaulted "event_bus_capacity" .uint64 Settings.initial.eventCapacity
    |>.defaulted "cache" CacheSettings.decoder .initial
    |>.defaulted "proxy_listen" .string Settings.initial.proxyListen).decoder

/-- The members of settings. -/
def Settings.members (s : Settings) : List (String × Json) := [
  ("base_url", .string s.baseUrl),
  ("username", .optional .string s.username),
  ("create_page", .string s.createPage),
  ("redirect_delay_ms", .nat s.redirectDelay.toNat),
  ("action_redirect_delay_ms", .nat s.actionRedirectDelay.toNat),
  ("notification_ms", .nat s.toastLifetime.toNat),
  ("prompt_notification_ms", .nat s.promptLifetime.toNat),
  ("reconnect", s.reconnection.toJson),
  ("event_bus_capacity", .nat s.eventCapacity.toNat),
  ("cache", .object s.cache.members),
  ("proxy_listen", .string s.proxyListen)]

/-- Settings as a JSON value. -/
def Settings.toJson (s : Settings) : Json :=
  .object s.members

end DropRoom
