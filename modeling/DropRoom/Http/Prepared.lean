import DropRoom.Http.Network

namespace DropRoom.Http

/-!
# Networks with prepared answers

To try out what uses a network, answers are prepared for single paths.  The
requests that are sent are numbered from one.

* `PreparedAnswer` — the answer for a path;
* `Prepared` — what is prepared, with the requests that were sent;
* `Prepared.network` — the network.
-/

/-- The answer to the requests for a path. -/
structure PreparedAnswer where
  path : String
  answer : Except FetchError Response
  /-- Whether the body breaks off when it is passed on. -/
  breaks : Bool

/-- What is prepared, with the requests that were sent. -/
structure Prepared where
  /-- The failure of all requests, where there is no connection. -/
  down : Option FetchError
  /-- The prepared answers, of which the first for a path counts. -/
  answers : List PreparedAnswer
  /-- The answer to the other requests, by their number. -/
  ordinary : Nat → Request → Response
  calls : List Request

namespace Prepared

/-- Nothing is prepared. -/
def initial (ordinary : Nat → Request → Response) : Prepared :=
  ⟨none, [], ordinary, []⟩

/-- Send a request. -/
def call (p : Prepared) (request : Request) : Prepared :=
  { p with calls := p.calls ++ [request] }

/-- The number of the last request. -/
def lastNumber (p : Prepared) : Nat :=
  p.calls.length

/-- The prepared answer to a request. -/
def prepared? (p : Prepared) (request : Request) : Option PreparedAnswer :=
  p.answers.find? fun answer => answer.path = request.url.pathText

/-- The answer to the request of a number.  Prepared failures come first, and then the failure of
the connection. -/
def answer (p : Prepared) (number : Nat) (request : Request) : Except FetchError Response :=
  match (p.prepared? request).map PreparedAnswer.answer, p.down with
  | some (.error e), _ => .error e
  | _, some e => .error e
  | some (.ok response), none => .ok response
  | none, none => .ok (p.ordinary number request)

/-- Send a request, and wait for the whole response. -/
def fetch (request : Request) (p : Prepared) : Except FetchError Response × Prepared :=
  let p := p.call request
  (p.answer p.lastNumber request, p)

/-- A response that is passed on. -/
def passOn (breaks : Bool) (response : Response) : Arriving :=
  let arriving := Arriving.ofResponse response
  if breaks then
    { arriving with
      body := { arriving.body with failure := some (FetchError.body "reset").message } }
  else arriving

/-- Send a request, and pass the response on. -/
def forward (request : Request) (p : Prepared) : Except FetchError Arriving × Prepared :=
  let (result, p) := fetch request p
  let breaks := ((p.prepared? request).map PreparedAnswer.breaks).getD false
  (result.map (passOn breaks), p)

/-- The network; a plain one passes on what it has fetched. -/
def network (plain : Bool) : Network Prepared :=
  if plain then .ofFetch fetch else .ofForward fetch forward

end Prepared

end DropRoom.Http
