import DropRoom.Bytes.Utf8
import DropRoom.Settings.Basic
import DropRoom.Yaml.Document
import DropRoom.Yaml.Value

namespace DropRoom

/-!
# Settings as YAML documents

* `Settings.ofNode?` — the settings of a document;
* `Settings.ofYaml` — read and check settings;
* `Settings.ofFile` — read and check the settings of a file.

Any scalar is a text where a text is asked for.  A collection may be left empty,
and what a document does not mention has its default.
-/

namespace Yaml

/-- The entries of a mapping whose keys are scalars and whose known keys are not repeated; a scalar
that is left out counts as an empty mapping. -/
def Node.fields? (known : List String) : Node → Option (List (String × Node))
  | .mapping entries _ => do
    let fields ← entries.mapM fun entry => entry.1.text?.map fun key => (key, entry.2)
    let keys := (fields.map (·.1)).filter known.contains
    if keys.Nodup then some fields else none
  | node => if node.isLeftOut then some [] else none

/-- What a document makes of the value under a key, if it is there. -/
def field? (fields : List (String × Node)) (name : String) : Option Node :=
  (fields.find? fun entry => entry.1 == name).map (·.2)

/-- A value that must be given. -/
def required {α : Type} (fields : List (String × Node)) (name : String)
    (read : Node → Option α) : Option α :=
  (field? fields name).bind read

/-- A value that has a default. -/
def defaulted {α : Type} (fields : List (String × Node)) (name : String)
    (read : Node → Option α) (default : α) : Option α :=
  match field? fields name with
  | none => some default
  | some node => read node

/-- A list of texts. -/
def Node.texts? : Node → Option (List String)
  | .sequence items _ => items.mapM Node.text?
  | node => if node.isLeftOut then some [] else none

/-- An unsigned integer of 64 bits. -/
def Node.uint64? (node : Node) : Option UInt64 :=
  node.natural?.bind fun n => if n < UInt64.size then some (.ofNat n) else none

end Yaml

open Yaml

/-- A number of a policy, which is below a bound. -/
def Backoff.number? (bound : Nat) : Value → Option Nat
  | .int n => if 0 ≤ n ∧ n < bound then some n.toNat else none
  | _ => none

/-- The keys of the spacing of attempts, in order. -/
def Backoff.keys : List String :=
  ["initial_delay_ms", "max_delay_ms", "max_attempts"]

/-- The name of the field that a key is for: a name, or a place among the fields. -/
def Backoff.key? : Value → Option String
  | .text name => some name
  | .int n => if 0 ≤ n then some (Backoff.keys.getD n.toNat "") else none
  | _ => none

/-- How attempts to reconnect are spaced, from the values in order. -/
def Backoff.ofValues? (delay maxDelay attempts : Value) : Option Backoff := do
  return {
    initialDelay := UInt64.ofNat (← number? UInt64.size delay)
    maxDelay := UInt64.ofNat (← number? UInt64.size maxDelay)
    maxAttempts := UInt32.ofNat (← number? UInt32.size attempts) }

/-- How attempts to reconnect are spaced, from entries. -/
def Backoff.ofEntries? (entries : List (Value × Value)) : Option Backoff := do
  let fields ← entries.mapM fun entry => (key? entry.1).map fun key => (key, entry.2)
  if ((fields.map (·.1)).filter keys.contains).Nodup then
    ofValues? (← fields.lookup "initial_delay_ms") (← fields.lookup "max_delay_ms")
      (← fields.lookup "max_attempts")
  else none

/-- Whether a value is the key of the mode. -/
def Reconnection.isMode : Value → Bool
  | .text name => name == "mode"
  | _ => false

/-- The policy of a mapping with its mode, or of a sequence that starts with it.  The other values
are read before their types are known, so they are what they look like. -/
def Reconnection.ofNode? : Node → Option Reconnection
  | .sequence (mode :: items) tag => do
    let values ← if isLocalTag tag then none else valuesOf? items
    match (← mode.text?), values with
    | "never", [] => some .never
    | "backoff", [delay, maxDelay, attempts] =>
      (Backoff.ofValues? delay maxDelay attempts).map .backoff
    | _, _ => none
  | .mapping entries tag => do
    let keyed ←
      if isLocalTag tag then none
      else entries.mapM fun entry => entry.1.value?.map fun key => (key, entry.2)
    let (modes, others) := keyed.partition fun entry => isMode entry.1
    let values ← others.mapM fun entry => entry.2.value?.map fun value => (entry.1, value)
    match (← modes.mapM fun entry => entry.2.text?) with
    | ["never"] => some .never
    | ["backoff"] => (Backoff.ofEntries? values).map .backoff
    | _ => none
  | _ => none

/-- The section on the cache. -/
def CacheSettings.ofNode? (node : Node) : Option CacheSettings := do
  let fields ← node.fields?
    ["version", "static_assets", "dynamic_files", "api_patterns", "offline_paths"]
  return {
    version := ← required fields "version" Node.text?
    staticAssets := ← required fields "static_assets" Node.texts?
    dynamicFiles := ← required fields "dynamic_files" Node.texts?
    apiPatterns := ← required fields "api_patterns" Node.texts?
    offlinePaths := ← defaulted fields "offline_paths" Node.texts? defaultOfflinePaths }

namespace Settings

/-- The keys of settings. -/
def keys : List String :=
  ["base_url", "username", "create_page", "redirect_delay_ms", "action_redirect_delay_ms",
    "notification_ms", "prompt_notification_ms", "reconnect", "event_bus_capacity", "cache",
    "proxy_listen"]

/-- The settings of a document. -/
def ofNode? (node : Node) : Option Settings := do
  let fields ← node.fields? keys
  return {
    baseUrl := ← required fields "base_url" Node.text?
    username := ← defaulted fields "username" Node.optionalText? none
    createPage := ← defaulted fields "create_page" Node.text? initial.createPage
    redirectDelay := ← defaulted fields "redirect_delay_ms" Node.uint64? initial.redirectDelay
    actionRedirectDelay :=
      ← defaulted fields "action_redirect_delay_ms" Node.uint64? initial.actionRedirectDelay
    toastLifetime := ← defaulted fields "notification_ms" Node.uint64? initial.toastLifetime
    promptLifetime :=
      ← defaulted fields "prompt_notification_ms" Node.uint64? initial.promptLifetime
    reconnection := ← defaulted fields "reconnect" Reconnection.ofNode? .never
    eventCapacity := ← defaulted fields "event_bus_capacity" Node.uint64? initial.eventCapacity
    cache := ← defaulted fields "cache" CacheSettings.ofNode? .initial
    proxyListen := ← defaulted fields "proxy_listen" Node.text? initial.proxyListen }

/-- Read and check settings, from a file where one is named. -/
def ofText [Url.DomainNames] (file : Option String) (text : String)
    : Except SettingsError Settings :=
  match (Yaml.parse text).bind ofNode? with
  | none => .error (.unreadable file "not a document of settings")
  | some settings =>
    match settings.check with
    | .error e => .error e
    | .ok () => .ok settings

/-- Read and check settings. -/
def ofYaml [Url.DomainNames] (text : String) : Except SettingsError Settings :=
  ofText none text

/-- Why settings cannot be had from a file. -/
inductive FileError where
  | notFound
  /-- The file does not hold a text. -/
  | invalidData
  | settings (error : SettingsError)
  deriving DecidableEq, Repr

/-- Read and check the settings of a file, given what the file holds. -/
def ofFile [Url.DomainNames] (name : String) : Option Bytes → Except FileError Settings
  | none => .error .notFound
  | some content =>
    match Utf8.decode? content with
    | none => .error .invalidData
    | some text => (ofText (some name) text).mapError .settings

end Settings

end DropRoom
