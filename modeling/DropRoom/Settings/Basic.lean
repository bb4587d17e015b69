import DropRoom.Settings.Reconnection
import DropRoom.Text.Blank
import DropRoom.Url.Reader

namespace DropRoom

/-!
# Settings

What a client is set up with: the address of the room server, the delays and
lifetimes of what it shows, and the tables of the offline cache.

* `CacheSettings` — which requests the cache answers, and how;
* `Settings` — all settings, with `Settings.ofBaseUrl` giving their defaults;
* `SettingsError` — why settings cannot be used;
* `Settings.check` — whether the values make sense;
* `Settings.base` — the address of the server.
-/

/-- Which requests the cache answers, and how. -/
structure CacheSettings where
  /-- A tag within the names of the partitions. -/
  version : String
  /-- Paths or addresses that are answered from the cache first, and fetched on installation. -/
  staticAssets : List String
  /-- Files that are never intercepted. -/
  dynamicFiles : List String
  /-- Parts of paths that are answered from the network first. -/
  apiPatterns : List String
  /-- Parts of paths that get a document about being offline where nothing else answers. -/
  offlinePaths : List String
  deriving DecidableEq, Repr

namespace CacheSettings

/-- The partition of the static assets. -/
def staticPartition (settings : CacheSettings) : String :=
  "eventdrop-static-" ++ settings.version

/-- The partition of the copies of answers from the network. -/
def runtimePartition (settings : CacheSettings) : String :=
  "eventdrop-" ++ settings.version

/-- The paths that get a document about being offline unless others are named. -/
def defaultOfflinePaths : List String :=
  ["/rooms/", "/files/"]

/-- The tables unless others are given. -/
def initial : CacheSettings where
  version := "v1"
  staticAssets := [
    "/landing-page.html",
    "/create.html",
    "/shared-header.js",
    "/shared-styles.css",
    "/landing-page.js",
    "/create-room.js",
    "/manifest.json",
    "https://cdnjs.cloudflare.com/ajax/libs/remixicon/4.6.0/remixicon.min.css",
    "https://assets-persist.lovart.ai/agent-static-assets/MiSans-Regular.ttf",
    "https://assets-persist.lovart.ai/agent-static-assets/MiSans-Medium.ttf",
    "https://assets-persist.lovart.ai/agent-static-assets/MiSans-Bold.ttf"]
  dynamicFiles := [
    "codecopy.js",
    "rooms.html",
    "rooms.js",
    "rooms-mobile.js",
    "rooms-mobile.css"]
  apiPatterns := ["/rooms/", "/files/", "/metrics"]
  offlinePaths := defaultOfflinePaths

end CacheSettings

/-- All settings of a client; delays and lifetimes are in milliseconds. -/
structure Settings where
  /-- The address of the room server. -/
  baseUrl : String
  /-- The name that the room page shows. -/
  username : Option String
  /-- Where the user goes when a room is over. -/
  createPage : String
  /-- The wait before that after the end of a room. -/
  redirectDelay : UInt64
  /-- The wait before that after an action of the user. -/
  actionRedirectDelay : UInt64
  /-- How long a toast is shown. -/
  toastLifetime : UInt64
  /-- How long a toast that asks for something is shown. -/
  promptLifetime : UInt64
  reconnection : Reconnection
  /-- How many events are kept for a slow receiver. -/
  eventCapacity : UInt64
  cache : CacheSettings
  /-- Where the proxy listens. -/
  proxyListen : String
  deriving DecidableEq, Repr

/-- Why settings cannot be used. -/
inductive SettingsError where
  /-- The document, from a file where one is named, is not one of settings. -/
  | unreadable (file : Option String) (message : String)
  /-- A value makes no sense. -/
  | invalid (field value message : String)
  deriving DecidableEq, Repr

/-- The text of an error. -/
def SettingsError.message : SettingsError → String
  | .unreadable (some file) message => "Failed to parse config file '" ++ file ++ "': " ++ message
  | .unreadable none message => "Failed to parse config: " ++ message
  | .invalid field value message =>
    "Invalid value '" ++ value ++ "' for field '" ++ field ++ "': " ++ message

namespace Settings

/-- The settings for a server, with all else at its default. -/
def ofBaseUrl (baseUrl : String) : Settings where
  baseUrl := baseUrl
  username := none
  createPage := "/create.html"
  redirectDelay := 1000
  actionRedirectDelay := 500
  toastLifetime := 4000
  promptLifetime := 8000
  reconnection := .never
  eventCapacity := 1024
  cache := .initial
  proxyListen := "127.0.0.1:8787"

/-- The settings for a server on the same machine. -/
def initial : Settings :=
  ofBaseUrl "http://localhost:8080"

/-- The address of the server. -/
def base [Url.DomainNames] (settings : Settings) : Except SettingsError Url :=
  match Url.parse settings.baseUrl with
  | .ok url => .ok url
  | .error e => .error (.invalid "base_url" settings.baseUrl e.message)

/-- Whether the first wait of a policy is positive, where it has one. -/
def waitsAtFirst : Reconnection → Bool
  | .never => true
  | .backoff policy => policy.initialDelay != 0

/-- Check the values: the server is one of the web, the version tag is not blank, and the first
wait before a reconnection is positive. -/
def check [Url.DomainNames] (settings : Settings) : Except SettingsError Unit :=
  match settings.base with
  | .error e => .error e
  | .ok url =>
    if ¬ url.isHttp then
      .error (.invalid "base_url" settings.baseUrl "scheme must be http or https")
    else if Text.isBlank settings.cache.version then
      .error (.invalid "cache.version" settings.cache.version "version tag cannot be empty")
    else if ¬ waitsAtFirst settings.reconnection then
      .error (.invalid "reconnect.initial_delay_ms" "0" "backoff delay must be positive")
    else .ok ()

end Settings

end DropRoom
