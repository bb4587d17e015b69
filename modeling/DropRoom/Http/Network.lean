import DropRoom.Http.Fetch

namespace DropRoom.Http

/-!
# Networks

A network answers requests and changes its own state while it does.  A body may
still be arriving when it is passed on, and it may break off.

* `Body` — a body in the parts in which it arrives, and `Arriving`, a response with
  such a body;
* `Network` — what becomes of requests, in a state of type `ν`;
* `Network.ofFetch` — the network of one that answers whole requests with whole
  responses.
-/

/-- A body in the parts in which it arrives. -/
structure Body where
  parts : List Bytes
  /-- What is said where the body breaks off after its parts. -/
  failure : Option String
  deriving DecidableEq, Repr

namespace Body

/-- A body that has arrived. -/
def ofBytes (bytes : Bytes) : Body :=
  ⟨[bytes], none⟩

/-- No body. -/
def empty : Body := ⟨[], none⟩

/-- Whether it is known that nothing will arrive. -/
def isOver (body : Body) : Bool :=
  body.parts.isEmpty && body.failure.isNone

/-- What arrives. -/
def bytes (body : Body) : Bytes :=
  body.parts.flatten

/-- The whole body, unless it breaks off. -/
def collect (body : Body) : Except String Bytes :=
  match body.failure with
  | some cause => .error cause
  | none => .ok body.bytes

/-- What is said of a body that is too long. -/
def tooLongText : String := "length limit exceeded"

/-- The whole body, unless it breaks off.  One of more octets than are allowed is given up as soon
as they have arrived, whether or not it would break off later. -/
def collectUpTo (limit : Nat) (body : Body) : Except String Bytes :=
  if limit < body.bytes.length then .error tooLongText else body.collect

end Body

/-- A response whose body may still be arriving. -/
structure Arriving where
  status : Nat
  headers : Headers
  body : Body
  deriving DecidableEq, Repr

/-- A response that has arrived. -/
def Arriving.ofResponse (r : Response) : Arriving :=
  ⟨r.status, r.headers, .ofBytes r.body⟩

/-- What becomes of requests, in a state of the network. -/
structure Network (ν : Type) where
  /-- Send a request, and wait for the whole response. -/
  fetch : Request → ν → Except FetchError Response × ν
  /-- Send a request, and pass the response on while it arrives. -/
  forward : Request → ν → Except FetchError Arriving × ν
  /-- Send a request while its body arrives, and pass the response on while it arrives. -/
  forwardBody : Request → Body → ν → Except FetchError Arriving × ν

namespace Network

variable {ν : Type}

/-- Send a request once its body has arrived; a body that breaks off is not sent. -/
def afterBody (forward : Request → ν → Except FetchError Arriving × ν) (request : Request)
    (body : Body) (s : ν) : Except FetchError Arriving × ν :=
  match body.collect with
  | .error cause => (.error (.requestBody cause), s)
  | .ok bytes => forward { request with body := bytes } s

/-- The network that passes responses on and waits for the bodies of requests. -/
def ofForward (fetch : Request → ν → Except FetchError Response × ν)
    (forward : Request → ν → Except FetchError Arriving × ν) : Network ν where
  fetch := fetch
  forward := forward
  forwardBody := afterBody forward

/-- Pass a response on after it has arrived. -/
def whole (fetch : Request → ν → Except FetchError Response × ν) (request : Request) (s : ν) :
    Except FetchError Arriving × ν :=
  match fetch request s with
  | (.ok response, s) => (.ok (.ofResponse response), s)
  | (.error e, s) => (.error e, s)

/-- The network of one that answers whole requests with whole responses. -/
def ofFetch (fetch : Request → ν → Except FetchError Response × ν) : Network ν :=
  ofForward fetch (whole fetch)

end Network

end DropRoom.Http
