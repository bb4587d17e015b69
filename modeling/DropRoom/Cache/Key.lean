import DropRoom.Json.Record
import DropRoom.Text.Ascii

namespace DropRoom.Cache

/-!
# Keys of the cache

A response is kept under the method, in upper case, and the address of its request.
-/

/-- What a response is kept under. -/
structure Key where
  method : String
  url : String
  deriving DecidableEq, Repr

namespace Key

/-- The key of a method and an address. -/
def of (method url : String) : Key :=
  ⟨Text.asciiUpper method, url⟩

/-- The key of a request for what is at an address. -/
def get (url : String) : Key :=
  of "GET" url

/-- The text of a key. -/
def render (key : Key) : String :=
  key.method ++ " " ++ key.url

/-- The decoder of a key. -/
def decoder : Json.Decoder Key :=
  (Json.Record.start Key.mk
    |>.required "method" .string
    |>.required "url" .string).decoder

/-- A key as a JSON value. -/
def toJson (key : Key) : Json :=
  .object [("method", .string key.method), ("url", .string key.url)]

end Key

end DropRoom.Cache
