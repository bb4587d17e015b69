import DropRoom.Json.Access
import DropRoom.Settings.Document

namespace DropRoom

/-!
# Changes to settings

A change is an object with the keys that it sets.  In the section on the cache it
sets single keys, too.
-/

/-- The tables of the cache with some of their keys changed. -/
def CacheSettings.patched (base : CacheSettings) (change : Json) :
    Except Json.DecodeError CacheSettings :=
  Json.decodeValue decoder (.object (Json.overlay base.members change.entries))

/-- A member of a change, where a section on the cache is completed. -/
def Settings.completed (base : Settings) : String × Json → String × Json
  | ("cache", .object changes) => ("cache", .object (Json.overlay base.cache.members changes))
  | member => member

/-- Settings with some of their keys changed. -/
def Settings.patched (base : Settings) (change : Json) : Except Json.DecodeError Settings :=
  Json.decodeValue decoder (.object (Json.overlay base.members (change.entries.map base.completed)))

end DropRoom
