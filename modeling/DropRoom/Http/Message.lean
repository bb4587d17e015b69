import DropRoom.Bytes.Utf8
import DropRoom.Url.Basic

namespace DropRoom.Http

/-!
# Requests and responses

* `Headers` — names and values in order, where the case of a name has no meaning;
* `Request`, `Response`;
* `isHopByHop` — whether a header is about one connection only.
-/

open DropRoom.Text

/-- Names and values in order. -/
abbrev Headers := List (String × String)

/-- The first value of a name. -/
def Headers.first? (headers : Headers) (name : String) : Option String :=
  (headers.find? fun header => equalsIgnoringCase header.1 name).map (·.2)

/-- A response. -/
structure Response where
  status : Nat
  headers : Headers
  body : Bytes
  deriving DecidableEq, Repr

/-- Whether a status tells of success. -/
def isSuccess (status : Nat) : Bool :=
  200 ≤ status && status < 300

namespace Response

/-- A response without headers. -/
def ofBody (status : Nat) (body : Bytes) : Response :=
  ⟨status, [], body⟩

/-- Add a header at the end. -/
def withHeader (r : Response) (name value : String) : Response :=
  { r with headers := r.headers ++ [(name, value)] }

/-- Whether the response tells of success. -/
def isSuccess (r : Response) : Bool :=
  Http.isSuccess r.status

/-- The first value of a header. -/
def header? (r : Response) (name : String) : Option String :=
  r.headers.first? name

end Response

/-- A request. -/
structure Request where
  method : String
  url : Url
  headers : Headers
  body : Bytes
  deriving DecidableEq, Repr

namespace Request

/-- A request for what is at an address. -/
def get (url : Url) : Request :=
  ⟨"GET", url, [], []⟩

/-- The first value of a header. -/
def header? (r : Request) (name : String) : Option String :=
  r.headers.first? name

/-- Whether the first `Accept` header of a request contains a text. -/
def accepts (r : Request) (kind : String) : Bool :=
  match r.header? "accept" with
  | some value => occursIn kind.toList value.toList
  | none => false

/-- Whether the client asks for a document. -/
def acceptsHtml (r : Request) : Bool :=
  r.accepts "text/html"

end Request

/-- The headers that are about one connection only. -/
def hopByHopNames : List String :=
  ["connection", "keep-alive", "proxy-authenticate", "proxy-authorization", "te", "trailer",
    "transfer-encoding", "upgrade", "proxy-connection"]

/-- Whether a header is about one connection only, so that it is not passed on. -/
def isHopByHop (name : String) : Bool :=
  hopByHopNames.any (equalsIgnoringCase · name)

end DropRoom.Http
