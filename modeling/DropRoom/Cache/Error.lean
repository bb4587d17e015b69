import DropRoom.Http.Fetch

namespace DropRoom.Cache

/-!
# Requests without an answer

* `CacheError` — the network failed, and nothing else could answer a request.
-/

/-- The network failed, and nothing else could answer a request. -/
structure CacheError where
  url : String
  cause : Http.FetchError
  deriving DecidableEq, Repr

/-- The text of an error. -/
def CacheError.message (e : CacheError) : String :=
  "Network unavailable for '" ++ e.url ++ "' and no cached copy: " ++ e.cause.message

end DropRoom.Cache
