import DropRoom.Http.Network

namespace DropRoom.Http

/-!
# Networks over the wire

On the wire the values of headers are byte sequences.  What is about one
connection only is not passed on, in either direction.

* `Wire` — what becomes of requests on the wire;
* `headerText?` — the value of a header as a text;
* `Network.overWire` — the network of a wire.
-/

/-- A response as it comes over the wire. -/
structure WireResponse where
  status : Nat
  headers : List (String × Bytes)
  body : Body
  deriving DecidableEq, Repr

/-- Why no response came. -/
inductive WireFailure where
  | timedOut
  | broken (text : String)
  deriving DecidableEq, Repr

/-- The failure of a fetch. -/
def WireFailure.fetchError : WireFailure → FetchError
  | .timedOut => .timeout
  | .broken text => .connect text

/-- What becomes of a request, of which the body may still be arriving, on the wire. -/
abbrev Wire (ν : Type) := Request → Body → ν → Except WireFailure WireResponse × ν

/-- An octet of a header that is a text. -/
def isHeaderOctet (b : UInt8) : Bool :=
  b == 9 || (32 ≤ b && b ≤ 126)

/-- The value of a header as a text, if it is one. -/
def headerText? (value : Bytes) : Option String :=
  if value.all isHeaderOctet then some (String.ofList (value.map fun b => Char.ofNat b.toNat))
  else none

/-- The headers whose values are texts. -/
def textHeaders (headers : List (String × Bytes)) : Headers :=
  headers.filterMap fun header => (headerText? header.2).map (header.1, ·)

/-- A response as it is passed on. -/
def WireResponse.arriving (r : WireResponse) : Arriving where
  status := r.status
  headers := (textHeaders r.headers).filter fun header => !isHopByHop header.1
  body := { r.body with failure := r.body.failure.map fun cause => (FetchError.body cause).message }

/-- A response as it is once it has arrived. -/
def WireResponse.whole (r : WireResponse) : Except FetchError Response :=
  match r.body.collect with
  | .error cause => .error (.body cause)
  | .ok bytes => .ok ⟨r.status, r.arriving.headers, bytes⟩

namespace Wire

variable {ν : Type}

/-- Send a request with a body. -/
def send (wire : Wire ν) (request : Request) (body : Body) (s : ν) :
    Except FetchError WireResponse × ν :=
  match request.outgoing with
  | .error e => (.error e, s)
  | .ok request =>
    let (result, s) := wire request body s
    (result.mapError WireFailure.fetchError, s)

/-- Send a request with its own body. -/
def sendWhole (wire : Wire ν) (request : Request) (s : ν) :
    Except FetchError WireResponse × ν :=
  wire.send request (if request.body = [] then .empty else .ofBytes request.body) s

end Wire

/-- The network of a wire. -/
def Network.overWire {ν : Type} (wire : Wire ν) : Network ν where
  fetch request s :=
    let (result, s) := wire.sendWhole request s
    (result.bind WireResponse.whole, s)
  forward request s :=
    let (result, s) := wire.sendWhole request s
    (result.map WireResponse.arriving, s)
  forwardBody request body s :=
    let (result, s) := wire.send request body s
    (result.map WireResponse.arriving, s)

end DropRoom.Http
