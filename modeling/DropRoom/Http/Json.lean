import DropRoom.Bytes.Json
import DropRoom.Http.Network
import DropRoom.Json.Reader
import DropRoom.Url.Reader

namespace DropRoom.Http

/-!
# Messages within documents

* `Headers.toJson`, `Headers.ofJson` — pairs of a name and a value;
* `Headers.sorted` — the pairs in order;
* `Request.ofJson`, `Response.ofJson`;
* `Response.toJson`, `Arriving.toJson`;
* `FetchError.name`, `FetchError.ofName?`.
-/

/-- Headers as a JSON value. -/
def Headers.toJson (headers : Headers) : Json :=
  .array (headers.map fun header => .strings [header.1, header.2])

/-- The headers of a JSON value; items of other forms are left out. -/
def Headers.ofJson (j : Json) : Headers :=
  j.elements.filterMap fun
    | .array [.string name, .string value] => some (name, value)
    | _ => none

/-- Headers in the order of their names, then of their values. -/
def Headers.sorted (headers : Headers) : Headers :=
  headers.mergeSort fun a b => decide (a.1 < b.1 ∨ a.1 = b.1 ∧ a.2 ≤ b.2)

/-- The request of a JSON value; without a method it is one for what is at the address. -/
def Request.ofJson [Url.DomainNames] (j : Json) : Except Url.UrlError Request := do
  let url ← Url.parse (((j.field "url").text?).getD "")
  return {
    method := ((j.field "method").text?).getD "GET"
    url := url
    headers := Headers.ofJson (j.field "headers")
    body := Bytes.ofJson (j.field "body") }

/-- The response of a JSON value. -/
def Response.ofJson (j : Json) : Response where
  status := ((j.field "status").natural?).getD 200
  headers := Headers.ofJson (j.field "headers")
  body := Bytes.ofJson (j.field "body")

/-- A response as a JSON value. -/
def Response.toJson (r : Response) : Json :=
  .object [("status", .nat r.status), ("headers", r.headers.toJson),
    ("body", Bytes.toJson r.body)]

/-- A body as a JSON value: an object in JSON as it is, and any other body as bytes. -/
def bodyToJson (bytes : Bytes) : Json :=
  match (Utf8.decode? bytes).map Json.parse with
  | some (.ok (.object members)) => .object [("json", .object members)]
  | _ => Bytes.toJson bytes

/-- A response that was passed on as a JSON value, its headers in order. -/
def Arriving.toJson (r : Arriving) : Json :=
  let headers := r.headers.filter fun header => header.1 ≠ "content-length"
  .object [("status", .nat r.status), ("headers", (Headers.sorted headers).toJson),
    ("body", bodyToJson r.body.bytes), ("body_error", .optional .string r.body.failure)]

/-- The name of a kind of failure. -/
def FetchError.name : FetchError → String
  | .connect _ => "Connect"
  | .timeout => "Timeout"
  | .body _ => "Body"
  | .requestBody _ => "RequestBody"
  | .invalidUrl _ => "InvalidUrl"

/-- The failure of a kind with a text. -/
def FetchError.ofName? (name text : String) : Option FetchError :=
  match name with
  | "connect" => some (.connect text)
  | "timeout" => some .timeout
  | "body" => some (.body text)
  | "request_body" => some (.requestBody text)
  | "invalid_url" => some (.invalidUrl text)
  | _ => none

end DropRoom.Http
