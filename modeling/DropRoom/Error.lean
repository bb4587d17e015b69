import DropRoom.Api.Failure
import DropRoom.Cache.Error
import DropRoom.Room.Input
import DropRoom.Settings.Basic

namespace DropRoom

/-!
# Errors of a client

* `ClientError` — an error of any part of a client, with its text, its code and the
  text of its cause.
-/

/-- An error of any part of a client. -/
inductive ClientError where
  | stream (error : Room.FeedError)
  | request (error : Api.RequestError)
  | cache (error : Cache.CacheError)
  | settings (error : SettingsError)
  deriving DecidableEq, Repr

namespace ClientError

/-- The text of an error. -/
def message : ClientError → String
  | .stream e => e.message
  | .request e => e.message
  | .cache e => e.message
  | .settings e => e.message

/-- A short code. -/
def code : ClientError → String
  | .stream e => e.code
  | .request e => e.code
  | .cache _ => "CACHE_MISS_CASCADE"
  | .settings _ => "CONFIG_ERROR"

/-- The text of the cause: that of the error of the part. -/
def cause (e : ClientError) : String :=
  e.message

end ClientError

end DropRoom
