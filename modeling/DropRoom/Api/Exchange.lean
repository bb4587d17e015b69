import DropRoom.Api.Failure
import DropRoom.Http.Message
import DropRoom.Json.Octets
import DropRoom.Api.Documents

namespace DropRoom.Api

/-!
# One exchange with the room server

Every operation sends at most one request and makes its result of the answer.

* `Call` — a request, and `Server`, what becomes of requests;
* `Call.send` — the answer, or the failure of a request without one;
* `ensureSuccess` — the failure of an answer that is not a success;
* `Reply.read` — the document in the body of an answer.
-/

/-- A part of a form. -/
structure Part where
  name : String
  fileName : String
  contentType : String
  content : Bytes
  deriving DecidableEq, Repr

/-- What a request carries. -/
inductive Payload where
  | nothing
  | document (value : Json)
  | form (parts : List Part)

/-- A request to the room server. -/
structure Call where
  method : String
  url : Url
  payload : Payload

/-- An answer.  The body is missing where the connection broke before its end. -/
structure Reply where
  status : Nat
  body : Option Bytes
  deriving DecidableEq, Repr

/-- What becomes of a request. -/
inductive Exchange where
  | unanswered (cause : String)
  | answered (reply : Reply)
  deriving DecidableEq, Repr

/-- What becomes of every request. -/
abbrev Server := Call → Exchange

/-- Send a request. -/
def Call.send (call : Call) (server : Server) (default : String) : Except RequestError Reply :=
  match server call with
  | .unanswered cause => .error (.transport default cause)
  | .answered reply => .ok reply

/-- The document in a body. -/
def Reply.document? {α : Type} (reply : Reply) (decoder : Json.Decoder α) : Option α :=
  reply.body.bind (Json.decodeOctets? decoder)

/-- The cause of a failure to read a body. -/
def unreadableBody : String := "error decoding response body"

/-- The document in the body of an answer. -/
def Reply.read {α : Type} (reply : Reply) (decoder : Json.Decoder α) (default : String) :
    Except RequestError α :=
  match reply.document? decoder with
  | some a => .ok a
  | none => .error (.decode default unreadableBody)

/-- The failure of an answer that is not a success: its body may say more. -/
def Reply.failure (reply : Reply) (default : String) : RequestError :=
  let said := (reply.document? Problem.decoder).bind Problem.message
  let text := userText reply.status said default
  if reply.status = 410 then .roomExpired text else .rejected reply.status text

/-- An answer that is a success. -/
def ensureSuccess (reply : Reply) (default : String) : Except RequestError Reply :=
  if Http.isSuccess reply.status then .ok reply else .error (reply.failure default)

end DropRoom.Api
