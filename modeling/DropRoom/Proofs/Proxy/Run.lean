import DropRoom.Proxy

namespace DropRoom.Proxy

/-!
# Runs of a proxy

Static assets are fetched, other versions deleted, and requests of the browser come in, in any
order.  All background work is done after each of these, and all that the network says is written
down.

* `Exchange` — what the network said to a request, and on what `Occasion`;
* `recorded` — a network whose answers are written down;
* `Course`, `Course.step`, `Course.run` — a proxy with its network, one thing that happens, and many
  in order;
* `heard`, `install_recorded` — what the network says where assets are fetched, and that it makes no
  difference to write it down;
* `newest?` — the newest response of success for a key.
-/

open Cache (Engine Key)
open Http (Arriving FetchError Network Request Response)

/-- On what occasion the network is asked. -/
inductive Occasion where
  /-- A static asset is fetched. -/
  | installation
  /-- The engine serves a request, or refreshes what it keeps. -/
  | service
  /-- A request is passed on as it is. -/
  | passage
  deriving DecidableEq

/-- What the network said to a request. -/
structure Exchange where
  occasion : Occasion
  request : Request
  answer : Except FetchError Arriving

/-- The state of a network, with all that it has said. -/
structure World (ν : Type) where
  state : ν
  said : List Exchange

variable {ν : Type}

/-- A network whose answers are written down; what is fetched is so on the given occasion. -/
def recorded (network : Network ν) (occasion : Occasion) : Network (World ν) where
  fetch request world :=
    let (answer, state) := network.fetch request world.state
    (answer, ⟨state, world.said ++ [⟨occasion, request, answer.map .ofResponse⟩]⟩)
  forward request world :=
    let (answer, state) := network.forward request world.state
    (answer, ⟨state, world.said ++ [⟨.passage, request, answer⟩]⟩)
  forwardBody request body world :=
    let (answer, state) := network.forwardBody request body world.state
    (answer, ⟨state, world.said ++ [⟨.passage, request, answer⟩]⟩)

/-! ### Courses -/

/-- A proxy with the network that it asks. -/
structure Course (ν : Type) where
  proxy : Proxy
  world : World ν

/-- One thing that happens to a proxy. -/
inductive Course.Step where
  | install
  | activate
  | request (incoming : Incoming)

namespace Course

/-- A proxy to which nothing has happened. -/
def start (proxy : Proxy) (state : ν) : Course ν :=
  ⟨proxy, ⟨state, []⟩⟩

/-- All background work is done. -/
def settle (network : Network ν) (course : Course ν) : Course ν :=
  let (proxy, world) := course.proxy.settle (recorded network .service) course.world
  ⟨proxy, world⟩

/-- A course after one thing has happened and all background work is done. -/
def step [Url.DomainNames] (network : Network ν) (course : Course ν) : Step → Course ν
  | .install =>
    let (_, proxy, world) := course.proxy.install (recorded network .installation) course.world
    settle network ⟨proxy, world⟩
  | .activate => settle network { course with proxy := course.proxy.activate.2 }
  | .request incoming =>
    let (_, proxy, world) := course.proxy.handle (recorded network .service) incoming course.world
    settle network ⟨proxy, world⟩

/-- A course after many things have happened in order. -/
def run [Url.DomainNames] (network : Network ν) (course : Course ν) (steps : List Step)
    : Course ν :=
  steps.foldl (step network) course

/-- What every step keeps, a run keeps. -/
theorem run_induction [Url.DomainNames] {network : Network ν} {motive : Course ν → Prop}
    (step : ∀ course s, motive course → motive (course.step network s)) (steps : List Step)
    {course : Course ν} (h : motive course) : motive (course.run network steps) := by
  induction steps generalizing course with
  | nil => exact h
  | cons s steps ih => exact ih (step course s h)

end Course

/-! ### Installations -/

/-- The exchange in which an asset is fetched. -/
def Exchange.ofAsset (url : Url) (answer : Except FetchError Response) : Exchange :=
  ⟨.installation, .get url, answer.map .ofResponse⟩

/-- What the network says where assets are fetched in order. -/
def heard (network : Network ν) : List Url → ν → List Exchange
  | [], _ => []
  | url :: urls, s =>
    let (answer, s) := network.fetch (.get url) s
    .ofAsset url answer :: heard network urls s

/-- The requests are those for the assets, in order. -/
theorem map_request_heard (network : Network ν) (urls : List Url) (s : ν) :
    (heard network urls s).map Exchange.request = urls.map .get := by
  induction urls generalizing s with
  | nil => rfl
  | cons url urls ih => exact congrArg (Request.get url :: ·) (ih _)

/-- To write down what the network says makes no difference to an installation. -/
theorem install_recorded (network : Network ν) (urls : List Url) (e : Engine) (s : ν)
    (said : List Exchange) :
    let result := Engine.install network urls e s
    Engine.install (recorded network .installation) urls e ⟨s, said⟩ =
      (result.1, result.2.1, ⟨result.2.2, said ++ heard network urls s⟩) := by
  induction urls generalizing e s said with
  | nil => simp [Engine.install, heard]
  | cons url urls ih =>
    simp only [Engine.install, heard, recorded] at ih ⊢
    simp only [ih, Exchange.ofAsset, List.append_assoc, List.singleton_append]

/-! ### The newest response -/

/-- The response of an exchange, if it is one of success and the request was of the key. -/
def Exchange.success? (key : Key) (exchange : Exchange) : Option Arriving :=
  match exchange.answer with
  | .error _ => none
  | .ok response =>
    if Http.isSuccess response.status ∧ Key.ofRequest exchange.request = key then some response
    else none

/-- The newest response of success to the requests of a key. -/
def newest? (key : Key) (said : List Exchange) : Option Arriving :=
  said.reverse.findSome? (Exchange.success? key)

/-- What is said last is the newest. -/
theorem newest?_append (key : Key) (said more : List Exchange) :
    newest? key (said ++ more) = (newest? key more).or (newest? key said) := by
  rw [newest?, List.reverse_append, List.findSome?_append]
  rfl

/-- Of one exchange, the newest response is its own. -/
theorem newest?_singleton (key : Key) (exchange : Exchange) :
    newest? key [exchange] = exchange.success? key := by
  cases hsuccess : exchange.success? key <;> simp [newest?, hsuccess]

/-- What was said on an occasion. -/
def during (occasion : Occasion) (said : List Exchange) : List Exchange :=
  said.filter fun exchange => exchange.occasion = occasion

/-- What is said last is the newest, if it counts on the occasion. -/
theorem newest?_during_append (key : Key) (occasion : Occasion) (said : List Exchange)
    (exchange : Exchange) :
    newest? key (during occasion (said ++ [exchange])) =
      if exchange.occasion = occasion then
        (exchange.success? key).or (newest? key (during occasion said))
      else newest? key (during occasion said) := by
  rw [during, during, List.filter_append, newest?_append]
  by_cases hoccasion : exchange.occasion = occasion
  · rw [if_pos hoccasion, List.filter_cons_of_pos (by simpa using hoccasion), List.filter_nil,
      newest?_singleton]
  · rw [if_neg hoccasion, List.filter_cons_of_neg (by simpa using hoccasion), List.filter_nil]
    rfl

end DropRoom.Proxy
