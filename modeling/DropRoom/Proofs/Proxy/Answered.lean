import DropRoom.Proofs.Cache.NetworkFirst
import DropRoom.Proofs.Cache.Provenance
import DropRoom.Proofs.Proxy.Interception

namespace DropRoom.Proxy

/-!
# Answers to requests to the interface

A request that is answered from the network first never ends in a failed gateway of the proxy's
own.  Where there is neither a network nor a kept response, the notice about being offline is the
answer.

* `noticeAnswer` — the notice about being offline, as it goes to the browser;
* `networkFirst_is_answered` — the answers to requests to the interface;
* `broken_request_gets_no_notice` — requests that are answered otherwise.
-/

open Cache (Classifier Engine Key Kind)
open Http (Body FetchError Network Request Response)

/-! ### Relayed responses -/

/-- The status of a relayed response is its own, unless it cannot be relayed. -/
theorem status_relay (response : Http.Arriving) (source : String) :
    (relay response source).status = answerStatus response.status ∨
      (relay response source).status = 500 := by
  rw [relay]
  split
  · exact .inl rfl
  · exact .inr rfl

/-- The notice about being offline for a path, as it goes to the browser: a document that says so,
and which path was asked for. -/
def noticeAnswer (path : String) : Http.Arriving where
  status := 503
  headers := [("content-type", "application/json"), ("x-eventdrop-offline", "1"),
    ("x-eventdrop-cache", "offline")]
  body := .ofBytes (Utf8.encode (Json.object [
    ("message", .string
      "You're offline. EventDrop needs an internet connection for real-time file sharing."),
    ("offline", .bool true),
    ("path", .string path)]).render)

/-- The notice is relayed with its source. -/
theorem relay_notice (path : String) :
    relay (.ofResponse (Cache.Offline.notice path)) "offline" = noticeAnswer path := by
  have hnotice : Cache.Offline.notice path =
      ⟨503, [("content-type", "application/json"), ("x-eventdrop-offline", "1")],
        Utf8.encode (Cache.Offline.noticeDocument path).render⟩ := by
    simp only [Cache.Offline.notice, Response.ofBody, Response.withHeader, List.nil_append,
      List.cons_append, Cache.Offline.markHeader]
  have hdocument : Cache.Offline.noticeDocument path = Json.object [
      ("message", .string
        "You're offline. EventDrop needs an internet connection for real-time file sharing."),
      ("offline", .bool true), ("path", .string path)] := rfl
  rw [hnotice, hdocument, noticeAnswer]
  -- whatever the octets of the document are, the headers are proper
  generalize Utf8.encode (Json.object _).render = bytes
  rfl

/-! ### Bodies -/

section

variable {body : Body} {limit : Nat}

/-- A body that arrives and is not too long is there as a whole. -/
theorem collectUpTo_of_le (harrives : body.failure = none) (hlength : body.bytes.length ≤ limit) :
    body.collectUpTo limit = .ok body.bytes := by
  rw [Body.collectUpTo, if_neg (Nat.not_lt.mpr hlength), Body.collect, harrives]

/-- A body that is too long is refused, whether or not it breaks off later. -/
theorem collectUpTo_of_lt (hlength : limit < body.bytes.length) :
    body.collectUpTo limit = .error Body.tooLongText :=
  if_pos hlength

/-- A body that breaks off is refused with what is said where it does. -/
theorem collectUpTo_of_failure {cause : String} (hfailure : body.failure = some cause)
    (hlength : body.bytes.length ≤ limit) : body.collectUpTo limit = .error cause := by
  rw [Body.collectUpTo, if_neg (Nat.not_lt.mpr hlength), Body.collect, hfailure]

end

/-! ### Requests to the interface -/

section

variable {settings : CacheSettings} {p : Proxy} {request : Request} {kind : Kind} {body : Body}
  {ν : Type}

/-- A request to the interface whose body has arrived is answered with what the engine makes of
what the network says. -/
theorem SetUpBy.respond_networkFirst [Url.DomainNames] (hp : p.SetUpBy settings)
    (hroute : p.classifier.route request = .intercept kind .networkFirst) {bytes : Bytes}
    (hbody : body.collectUpTo maxRequestBody = .ok bytes) (network : Network ν) (s : ν) :
    let sent := { request with body := bytes }
    (p.respond network request body s).1 =
      relay (.ofResponse (p.engine.firstOfNetwork sent (network.fetch sent s).1).response)
        (p.engine.firstOfNetwork sent (network.fetch sent s).1).source.name := by
  intro sent
  -- the body does not count for the way
  have hsent : p.classifier.route sent = .intercept kind .networkFirst := hroute
  have hserve := hp.engine.serve_networkFirst (hp.classifier ▸ hsent) network s
  simp only [respond, hroute, intercept, hbody]
  show served sent.url (p.engine.serve network .networkFirst sent s).1 = _
  rw [hserve]
  rfl

/-- A request to the interface whose body is refused is answered with the reason, and nothing else
happens. -/
theorem respond_of_refused (hroute : p.classifier.route request = .intercept kind .networkFirst)
    {cause : String} (hbody : body.collectUpTo maxRequestBody = .error cause)
    (network : Network ν) (s : ν) :
    p.respond network request body s = (plain 400 cause, p, s) := by
  simp only [respond, hroute, intercept, hbody]

/-- What is served from the network first comes from the network, from the store, or is the
notice. -/
theorem firstOfNetwork_cases (e : Engine) (request : Request)
    (answer : Except FetchError Response) :
    answer = .ok (e.firstOfNetwork request answer).response ∨
      (∃ partition, e.store.get? partition (.ofRequest request) =
        some (e.firstOfNetwork request answer).response) ∨
      e.firstOfNetwork request answer = ⟨Cache.Offline.notice request.url.pathText, .offline⟩ := by
  cases answer with
  | ok response => exact .inl rfl
  | error cause =>
    rw [Engine.firstOfNetwork]
    cases hlookup : e.lookup (.ofRequest request) with
    | some response => exact .inr (.inl (Engine.get?_of_lookup hlookup))
    | none => exact .inr (.inr rfl)

/-- **Requests to the interface.** Whatever the network says and whatever is kept, a request that
is answered from the network first has an answer of the engine.  Where its body arrives and holds no
more than 64 MiB, that answer is relayed.  Its status is that of a bad gateway only where the
network or a kept response brings one that reads so.  Without a network and a kept response the
answer is the notice for the path.  A request whose body is longer, or breaks off, is refused before
the engine and the network are asked, and not as a bad gateway. -/
theorem networkFirst_is_answered [Url.DomainNames] (hp : p.SetUpBy settings)
    (hroute : p.classifier.route request = .intercept kind .networkFirst) (network : Network ν)
    (s : ν) :
    (∃ served, (p.engine.serve network .networkFirst request s).1 = .ok served) ∧
    ∀ body : Body,
      let sent := { request with body := body.bytes }
      let answer := (p.respond network request body s).1
      (body.failure = none → body.bytes.length ≤ 67108864 →
        ∃ served, (p.engine.serve network .networkFirst sent s).1 = .ok served ∧
          answer = relay (.ofResponse served.response) served.source.name ∧
          (answer.status = 502 →
            answerStatus served.response.status = 502 ∧
              ((network.fetch sent s).1 = .ok served.response ∨
                ∃ partition, p.engine.store.get? partition (.ofRequest sent) =
                  some served.response)) ∧
          (∀ cause, (network.fetch sent s).1 = .error cause →
            (∀ partition, p.engine.store.get? partition (.ofRequest sent) = none) →
            answer = noticeAnswer request.url.pathText)) ∧
      (67108864 < body.bytes.length →
        p.respond network request body s = (plain 400 "length limit exceeded", p, s)) ∧
      (∀ cause, body.failure = some cause → body.bytes.length ≤ 67108864 →
        p.respond network request body s = (plain 400 cause, p, s)) := by
  refine ⟨⟨_, hp.engine.serve_networkFirst (hp.classifier ▸ hroute) network s⟩, fun body => ?_⟩
  intro sent answer
  have hsent : p.classifier.route sent = .intercept kind .networkFirst := hroute
  refine ⟨fun harrives hlength => ?_, fun hlength => ?_, fun cause hfailure hlength => ?_⟩
  · have hserve := hp.engine.serve_networkFirst (hp.classifier ▸ hsent) network s
    have hanswer : answer = _ :=
      hp.respond_networkFirst hroute (collectUpTo_of_le harrives hlength) network s
    refine ⟨_, hserve, hanswer, fun hstatus => ?_, fun cause hcause hnone => ?_⟩
    · rw [hanswer] at hstatus
      have hown := (status_relay _ _).resolve_right fun hplain => by
        rw [hstatus] at hplain
        cases hplain
      refine ⟨hown.symm.trans hstatus, ?_⟩
      rcases firstOfNetwork_cases p.engine sent (network.fetch sent s).1 with
        hnetwork | hkept | hnotice
      · exact .inl hnetwork
      · exact .inr hkept
      · -- the notice has a status of its own
        rw [hnotice] at hstatus
        have hrelay := relay_notice sent.url.pathText
        have hown : (noticeAnswer sent.url.pathText).status = 502 := hrelay ▸ hstatus
        cases hown
    · have hnotice : p.engine.firstOfNetwork sent (network.fetch sent s).1 =
          ⟨Cache.Offline.notice sent.url.pathText, .offline⟩ := by
        rw [hcause, Engine.firstOfNetwork, Engine.lookup_eq_none hnone]
      rw [hanswer, hnotice]
      exact relay_notice sent.url.pathText
  · exact respond_of_refused hroute (collectUpTo_of_lt hlength) network s
  · exact respond_of_refused hroute (collectUpTo_of_failure hfailure hlength) network s

end

/-- The address of a room on a server. -/
def roomUrl : Url :=
  ⟨"http", "", "", some (.domain "origin.test"), none, .segments ["rooms", "x"], none, none⟩

/-- A proxy for the server that has kept nothing. -/
def roomProxy : Proxy :=
  ⟨{ roomUrl with path := .segments [""] }, .ofSettings .initial, .ofSettings .initial .empty, []⟩

/-- The proxy is set up by the defaults. -/
theorem roomProxy_setUpBy : roomProxy.SetUpBy .initial :=
  ⟨rfl, Engine.ofSettings_setUpBy .initial .empty⟩

/-- A request for the room is one to the interface. -/
theorem route_room :
    roomProxy.classifier.route (.get roomUrl) = .intercept .api .networkFirst := by
  decide

/-- A room that was never kept, asked for without a network, is answered with the notice. -/
theorem networkFirst_is_answered_of_lost_network :
    let lost : Network Unit := .ofFetch fun _ s => (.error .timeout, s)
    roomProxy.SetUpBy .initial ∧
      roomProxy.classifier.route (.get roomUrl) = .intercept .api .networkFirst ∧
      Body.empty.failure = none ∧ Body.empty.bytes.length ≤ 67108864 ∧
      (lost.fetch (.get roomUrl) ()).1 = .error .timeout ∧
      (∀ partition, roomProxy.engine.store.get? partition (.ofRequest (.get roomUrl)) = none) ∧
      (roomProxy.respond lost (.get roomUrl) .empty ()).1 = noticeAnswer "/rooms/x" := by
  intro lost
  have hlength : Body.empty.bytes.length ≤ 67108864 := by decide
  have hnone :
      ∀ partition, roomProxy.engine.store.get? partition (.ofRequest (.get roomUrl)) = none :=
    fun _ => rfl
  obtain ⟨_, _, _, _, hlost⟩ :=
    ((networkFirst_is_answered roomProxy_setUpBy route_room lost ()).2 .empty).1 rfl hlength
  exact ⟨roomProxy_setUpBy, route_room, rfl, hlength, rfl, hnone, hlost .timeout rfl hnone⟩

/-- **Not every request.** Without a network and a kept response, a request whose body breaks off is
answered with the reason and not with the notice; and a bad gateway that the network brings is
relayed. -/
theorem broken_request_gets_no_notice :
    let lost : Network Unit := .ofFetch fun _ s => (.error .timeout, s)
    let faulty : Network Unit := .ofFetch fun _ s => (.ok (.ofBody 502 []), s)
    let broken : Body := ⟨[[97]], some "client went away"⟩
    roomProxy.SetUpBy .initial ∧
      roomProxy.classifier.route (.get roomUrl) = .intercept .api .networkFirst ∧
      (∀ partition, roomProxy.engine.store.get? partition (.ofRequest (.get roomUrl)) = none) ∧
      (roomProxy.respond lost (.get roomUrl) broken ()).1 = plain 400 "client went away" ∧
      (roomProxy.respond lost (.get roomUrl) broken ()).1 ≠ noticeAnswer "/rooms/x" ∧
      (roomProxy.respond faulty (.get roomUrl) .empty ()).1.status = 502 := by
  intro lost faulty broken
  have hrefused : (roomProxy.respond lost (.get roomUrl) broken ()).1 =
      plain 400 "client went away" :=
    congrArg Prod.fst
      (respond_of_refused route_room (collectUpTo_of_failure rfl (by decide)) lost ())
  refine ⟨roomProxy_setUpBy, route_room, fun _ => rfl, hrefused, fun hnotice => ?_, ?_⟩
  · -- the two answers differ in their status
    rw [hrefused] at hnotice
    exact absurd (congrArg Http.Arriving.status hnotice) (by decide)
  · rw [roomProxy_setUpBy.respond_networkFirst route_room
      (collectUpTo_of_le rfl (by decide)) faulty ()]
    show (relay (.ofResponse (.ofBody 502 [])) "network").status = 502
    decide

end DropRoom.Proxy
