import DropRoom.Http.Message

namespace DropRoom.Http

/-!
# Fetching

* `FetchError` — why one fetch failed;
* `isToken`, `isHeaderValue` — what methods and headers may be made of;
* `Request.outgoing` — a request as it goes over the wire, if it may;
* `noAnswerText` — what is said of a request that got no answer.
-/

open DropRoom.Text

/-- Why a fetch failed. -/
inductive FetchError where
  | connect (cause : String)
  | timeout
  /-- The body of the answer could not be read. -/
  | body (cause : String)
  /-- The body of the request could not be read. -/
  | requestBody (cause : String)
  | invalidUrl (url : String)
  deriving DecidableEq, Repr

/-- The text of an error. -/
def FetchError.message : FetchError → String
  | .connect cause => "connection failed: " ++ cause
  | .timeout => "request timed out"
  | .body cause => "failed to read response body: " ++ cause
  | .requestBody cause => "failed to read request body: " ++ cause
  | .invalidUrl url => "invalid upstream URL '" ++ url ++ "'"

/-- A character of a method or of the name of a header. -/
def isTokenChar (c : Char) : Bool :=
  isLetter c || isDigit c || "!#$%&'*+-.^_\x60|~".toList.contains c

/-- Whether a text may be a method or the name of a header. -/
def isToken (text : String) : Bool :=
  text ≠ "" && text.toList.all isTokenChar

/-- Whether a character may stand in the value of a header. -/
def isValueChar (c : Char) : Bool :=
  c == '\t' || (32 ≤ c.toNat && c.toNat != 127)

/-- Whether a text may be the value of a header. -/
def isHeaderValue (text : String) : Bool :=
  text.toList.all isValueChar

/-- Whether a header of a request is passed on. -/
def isPassedOn (name : String) : Bool :=
  !(isHopByHop name || equalsIgnoringCase name "host" || equalsIgnoringCase name "content-length")

/-- A request as it goes over the wire: it must be for an address of the web, have a proper
method, and its headers, of which those about one connection are left out, must be proper. -/
def Request.outgoing (r : Request) : Except FetchError Request :=
  if ¬ r.url.isHttp then .error (.invalidUrl r.url.render)
  else if ¬ isToken r.method then .error (.invalidUrl (r.method ++ " " ++ r.url.render))
  else
    let headers := r.headers.filter fun header => isPassedOn header.1
    if headers.all fun header => isToken header.1 && isHeaderValue header.2 then
      .ok { r with headers := headers }
    else .error (.connect "builder error")

/-- An address as it is told in messages, without user name and password. -/
def publicText (url : Url) : String :=
  { url with username := "", password := "" }.render

/-- What is said of a request that got no answer. -/
def noAnswerText (url : Url) : String :=
  "error sending request for url (" ++ publicText url ++ ")"

end DropRoom.Http
