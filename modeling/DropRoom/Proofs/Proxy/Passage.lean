import DropRoom.Proofs.Proxy.Freshness
import DropRoom.Proofs.Text.Digits

namespace DropRoom

/-!
# Requests that are passed on

A request that is passed on may reach the network whole or while its body is still arriving.  Over a
network that only answers whole requests there is no difference: the request is sent once when all
of its body is there, and not at all if that breaks off.

* `Http.noting` — one that answers whole requests, with all requests that it was asked written down;
* `Http.Response.IsProper`, `Proxy.relay_of_proper` — a response that can be relayed as it is;
* `Proxy.Passable`, `Proxy.answerHeaders_of_passable` — headers that can be passed on;
* `Proxy.encode_textHeaders` — headers with values that are texts are passed on as they came;
* `Proxy.passage` — the answer to a request that is passed on, and `Proxy.handle_of_pass`;
* `Proxy.passes_on_once` — what reaches the network, and what reaches the browser.
-/

namespace Http

/-- One that answers whole requests, with all requests that it was asked written down. -/
def noting {ν : Type} (fetch : Request → ν → Except FetchError Response × ν) (request : Request)
    (s : ν × List Request) : Except FetchError Response × (ν × List Request) :=
  ((fetch request s.1).1, (fetch request s.1).2, s.2 ++ [request])

/-- A response may go over the wire as it is. -/
structure Response.IsProper (response : Response) : Prop where
  status : 100 ≤ response.status ∧ response.status ≤ 999
  headers : ∀ header ∈ response.headers,
    isToken header.1 = true ∧ isHeaderValue header.2 = true

/-! ### Values of headers -/

/-- A character of a header is one octet. -/
theorem encodeChar_of_isHeaderOctet {b : UInt8} (h : isHeaderOctet b = true) :
    Utf8.encodeChar (Char.ofNat b.toNat) = [b] := by
  have hmost : b.toNat < 0x80 := by
    rw [isHeaderOctet, Bool.or_eq_true, Bool.and_eq_true] at h
    rcases h with hnine | ⟨_, hmost⟩
    · rw [beq_iff_eq.mp hnine]
      decide
    · exact Nat.lt_of_le_of_lt (UInt8.le_iff_toNat_le.mp (of_decide_eq_true hmost)) (by decide)
  have hchar : (Char.ofNat b.toNat).toNat = b.toNat := Text.toNat_ofNat (by omega)
  rw [Utf8.encodeChar]
  simp only [hchar, if_pos hmost, UInt8.ofNat_toNat]

/-- The octets of a value that is a text are those of the text. -/
theorem encode_headerText? {value : Bytes} {text : String} (h : headerText? value = some text) :
    Utf8.encode text = value := by
  rw [headerText?] at h
  split at h
  · rename_i hall
    cases h
    rw [Utf8.encode, String.toList_ofList, Utf8.encodeChars, List.flatMap_map]
    induction value with
    | nil => rfl
    | cons b value ih =>
      rw [List.all_cons, Bool.and_eq_true] at hall
      rw [List.flatMap_cons, encodeChar_of_isHeaderOctet hall.1, ih hall.2]
      rfl
  · cases h

end Http

namespace Proxy

open Http (Body FetchError Network Request Response)

/-! ### Headers -/

/-- Headers with values that are texts are passed on in order, with their names in lower case. -/
theorem encode_textHeaders {headers : List (String × Bytes)}
    (h : ∀ header ∈ headers, ∃ text, Http.headerText? header.2 = some text) :
    ((Http.textHeaders headers).map fun header => (Text.asciiLower header.1, header.2)).map
        (fun header => (header.1, Utf8.encode header.2)) =
      headers.map fun header => (Text.asciiLower header.1, header.2) := by
  induction headers with
  | nil => rfl
  | cons header headers ih =>
    obtain ⟨text, htext⟩ := h header List.mem_cons_self
    have hrest := ih fun other hmem => h other (List.mem_cons_of_mem _ hmem)
    rw [Http.textHeaders, List.filterMap_cons_some (by rw [htext]; rfl)]
    rw [Http.textHeaders] at hrest
    rw [List.map_cons, List.map_cons, List.map_cons, hrest, Http.encode_headerText? htext]

/-- Headers that are all proper are written with their names in lower case. -/
theorem mapM_checkedHeader {headers : Http.Headers}
    (h : ∀ header ∈ headers, Http.isToken header.1 = true ∧ Http.isHeaderValue header.2 = true) :
    headers.mapM checkedHeader =
      .ok (headers.map fun header => (Text.asciiLower header.1, header.2)) := by
  induction headers with
  | nil => rfl
  | cons header headers ih =>
    obtain ⟨hname, hvalue⟩ := h header List.mem_cons_self
    have hheader : checkedHeader header = .ok (Text.asciiLower header.1, header.2) := by
      rw [checkedHeader, if_neg (not_not_intro hname), if_neg (not_not_intro hvalue)]
    rw [List.mapM_cons, hheader, ih fun other hmem => h other (List.mem_cons_of_mem _ hmem)]
    rfl

/-- The headers of a response can be passed on. -/
def Passable (headers : Http.Headers) : Prop :=
  ∀ header ∈ headers, isPassedOn header.1 = true →
    Http.isToken header.1 = true ∧ Http.isHeaderValue header.2 = true

/-- The headers of an answer are those that are passed on and the one for the source, with their
names in lower case. -/
theorem answerHeaders_of_passable {headers : Http.Headers} (h : Passable headers) {source : String}
    (hsource : Http.isHeaderValue source = true) :
    answerHeaders headers source =
      .ok (((headers.filter fun header => isPassedOn header.1) ++ [(sourceHeader, source)]).map
        fun header => (Text.asciiLower header.1, header.2)) := by
  refine mapM_checkedHeader fun header hmem => ?_
  rcases List.mem_append.mp hmem with hown | hmark
  · obtain ⟨hmem, hpassed⟩ := List.mem_filter.mp hown
    exact h header hmem hpassed
  · rw [List.mem_singleton.mp hmark]
    have hname : Http.isToken sourceHeader = true := by decide
    exact ⟨hname, hsource⟩

/-- A proper response is relayed with its own status and body. -/
theorem relay_of_proper {response : Response} (h : response.IsProper) {source : String}
    (hsource : Http.isHeaderValue source = true) :
    relay (.ofResponse response) source =
      ⟨response.status,
        ((response.headers.filter fun header => isPassedOn header.1) ++
            [(sourceHeader, source)]).map fun header => (Text.asciiLower header.1, header.2),
        .ofBytes response.body⟩ := by
  have hheaders := answerHeaders_of_passable (fun header hmem _ => h.headers header hmem) hsource
  have hstatus : answerStatus response.status = response.status := if_pos h.status
  simp only [relay, Http.Arriving.ofResponse, hheaders, hstatus]

/-! ### Passing on -/

section

variable {ν : Type} {p : Proxy} {incoming : Incoming} {url : Url} {reason : Cache.PassReason}

/-- What becomes of a request that is passed on, over a network that only answers whole requests: it
is sent when its body is there. -/
def passage (fetch : Request → ν → Except FetchError Response × ν) (request : Request) (body : Body)
    (s : ν) : Http.Arriving × ν :=
  match body.collect with
  | .error cause => (badGateway request.url (FetchError.requestBody cause).message, s)
  | .ok bytes =>
    let sent := { request with body := bytes }
    (passedOn request.url ((fetch sent s).1.map .ofResponse), (fetch sent s).2)

/-- Whether the body is known to be over makes no difference. -/
theorem passOn_ofFetch (fetch : Request → ν → Except FetchError Response × ν) {request : Request}
    (hrequest : request.body = []) (body : Body) (s : ν) :
    passOn (.ofFetch fetch) request body s = passage fetch request body s := by
  have hwhole (sent : Request) : Network.whole fetch sent s =
      ((fetch sent s).1.map .ofResponse, (fetch sent s).2) := by
    rw [Network.whole]
    split
    · rename_i heq
      rw [heq]
      rfl
    · rename_i heq
      rw [heq]
      rfl
  rw [passOn, passage]
  by_cases hover : body.isOver = true
  · -- nothing will arrive, and the request has no body of its own
    obtain ⟨parts, failure⟩ := body
    rw [Body.isOver, Bool.and_eq_true, List.isEmpty_iff, Option.isNone_iff_eq_none] at hover
    obtain ⟨rfl, rfl⟩ := hover
    have hsent : { request with body := [] } = request := by rw [← hrequest]
    show (passedOn request.url (Network.whole fetch request s).1,
        (Network.whole fetch request s).2) =
      (passedOn request.url ((fetch { request with body := [] } s).1.map .ofResponse),
        (fetch { request with body := [] } s).2)
    rw [hsent, hwhole]
  · simp only [if_neg hover]
    show (passedOn request.url (Network.afterBody (Network.whole fetch) request body s).1,
      (Network.afterBody (Network.whole fetch) request body s).2) = _
    rw [Network.afterBody]
    cases body.collect with
    | error cause => rfl
    | ok bytes => simp only [hwhole]

/-- A request that is passed on leaves the proxy as it is. -/
theorem handle_of_pass [Url.DomainNames] (hurl : incoming.target.resolve p.origin = .ok url)
    (hroute : p.classifier.route (incoming.request url) = .pass reason)
    (fetch : Request → ν → Except FetchError Response × ν) (s : ν) :
    p.handle (.ofFetch fetch) incoming s =
      (forMethod incoming.method (passage fetch (incoming.request url) incoming.body s).1, p,
        (passage fetch (incoming.request url) incoming.body s).2) := by
  have hpass := @passOn_ofFetch ν fetch (incoming.request url) rfl incoming.body s
  simp only [handle, hurl, respond, hroute, hpass]

/-- The method of a request does not change the status of its answer. -/
theorem status_forMethod (method : String) (answer : Http.Arriving) :
    (forMethod method answer).status = answer.status := by
  rw [forMethod]
  split
  · rfl
  · rfl

/-- Nor does it change the headers. -/
theorem headers_forMethod (method : String) (answer : Http.Arriving) :
    (forMethod method answer).headers = answer.headers := by
  rw [forMethod]
  split
  · rfl
  · rfl

/-- **Passed on once.** A request that is passed on, with headers whose values are texts, over a
network that only answers whole requests, and properly: if its body arrives, in whatever parts, the
network is asked once, with the method, the address and the headers of the request and with the
whole body.  The browser gets the status of the response, and its body (but for `HEAD` and
`CONNECT`), or is told of a bad gateway where there is none.  So the parts make no difference.  If
the body breaks off, the network is not asked, and the browser is told of a bad gateway.  In all
cases the proxy is left as it is, with all that it keeps. -/
theorem passes_on_once [Url.DomainNames] (hurl : incoming.target.resolve p.origin = .ok url)
    (hroute : p.classifier.route (incoming.request url) = .pass reason)
    (htexts : ∀ header ∈ incoming.headers, ∃ text, Http.headerText? header.2 = some text)
    (fetch : Request → ν → Except FetchError Response × ν) (s : ν)
    (hproper : ∀ request response, (fetch request s).1 = .ok response → response.IsProper)
    (asked : List Request) :
    let network := Network.ofFetch (Http.noting fetch)
    (∀ body : Body, body.failure = none → ∃ request answer,
      p.handle network { incoming with body := body } (s, asked) =
        (answer, p, (fetch request s).2, asked ++ [request]) ∧
      request.method = incoming.method ∧ request.url = url ∧
      request.headers.map (fun header => (header.1, Utf8.encode header.2)) =
        incoming.headers.map (fun header => (Text.asciiLower header.1, header.2)) ∧
      request.body = body.parts.flatten ∧
      (∀ response, (fetch request s).1 = .ok response →
        answer.status = response.status ∧
          (incoming.method ≠ "HEAD" → incoming.method ≠ "CONNECT" →
            answer.body.collect = .ok response.body)) ∧
      (∀ cause, (fetch request s).1 = .error cause → answer.status = 502)) ∧
    (∀ body other : Body, body.failure = none → other.failure = none →
      body.parts.flatten = other.parts.flatten →
      p.handle network { incoming with body := body } (s, asked) =
        p.handle network { incoming with body := other } (s, asked)) ∧
    ∀ body : Body, body.failure ≠ none → ∃ answer,
      p.handle network { incoming with body := body } (s, asked) = (answer, p, s, asked) ∧
        answer.status = 502 := by
  intro network
  -- the way of a request does not depend on its body
  have hhandle (body : Body) : p.handle network { incoming with body := body } (s, asked) =
      (forMethod incoming.method
          (passage (Http.noting fetch) (incoming.request url) body (s, asked)).1, p,
        (passage (Http.noting fetch) (incoming.request url) body (s, asked)).2) :=
    @handle_of_pass _ p { incoming with body := body } url reason _ hurl hroute (Http.noting fetch)
      (s, asked)
  have hcollect {body : Body} (hbody : body.failure = none) :
      body.collect = .ok body.parts.flatten := by
    rw [Body.collect, hbody]
    rfl
  refine ⟨fun body hbody => ?_, fun body other hbody hother hsame => ?_, fun body hbody => ?_⟩
  · let request : Request := { incoming.request url with body := body.parts.flatten }
    refine ⟨request,
      forMethod incoming.method (passedOn url ((fetch request s).1.map .ofResponse)), ?_, rfl, rfl,
      encode_textHeaders htexts, rfl, fun response hresponse => ?_, fun cause hcause => ?_⟩
    · rw [hhandle, passage, hcollect hbody]
      rfl
    · have hrelay := relay_of_proper (hproper _ response hresponse)
        (by decide : Http.isHeaderValue "bypass" = true)
      rw [hresponse, status_forMethod]
      show (relay (.ofResponse response) "bypass").status = _ ∧ _
      refine ⟨by rw [hrelay], fun hhead _ => ?_⟩
      rw [forMethod, if_neg hhead]
      show (relay (.ofResponse response) "bypass").body.collect = _
      rw [hrelay]
      simp [Body.collect, Body.bytes, Body.ofBytes]
    · rw [hcause, status_forMethod]
      rfl
  · rw [hhandle, hhandle, passage, passage, hcollect hbody, hcollect hother, hsame]
  · obtain ⟨cause, hcause⟩ := Option.ne_none_iff_exists'.mp hbody
    have hcollect : body.collect = .error cause := by rw [Body.collect, hcause]
    refine ⟨forMethod incoming.method (badGateway url (FetchError.requestBody cause).message),
      ?_, status_forMethod _ _⟩
    rw [hhandle, passage, hcollect]
    rfl

end

/-! ### An upload -/

/-- A file on its way to a room. -/
def upload (body : Body) : Incoming where
  method := "POST"
  target := .path "/rooms/x/files"
  headers := [("X-Name", Utf8.encode "a b")]
  body := body

/-- One that sends back what it gets. -/
def echo (request : Request) (count : Nat) : Except FetchError Response × Nat :=
  (.ok (.ofBody 201 request.body), count + 1)

/-- An upload that arrives in three parts, of which one is empty, is sent once, and what is sent
back reaches the browser.  One that breaks off is not sent. -/
theorem passes_on_once_of_upload :
    let url := sheetUrl ["rooms", "x", "files"]
    let network := Network.ofFetch (Http.noting echo)
    let arriving : Body := ⟨[[1], [], [2, 3]], none⟩
    (upload arriving).target.resolve sheetProxy.origin = .ok url ∧
      sheetProxy.classifier.route ((upload arriving).request url) = .pass .nonGet ∧
      (∀ header ∈ (upload arriving).headers, ∃ text, Http.headerText? header.2 = some text) ∧
      (∀ request response, (echo request 0).1 = .ok response → response.IsProper) ∧
      (∃ request answer,
        sheetProxy.handle network (upload arriving) (0, []) = (answer, sheetProxy, 1, [request]) ∧
          request.body = [1, 2, 3] ∧ answer.status = 201 ∧
          answer.body.collect = .ok [1, 2, 3]) ∧
      ∃ answer, sheetProxy.handle network (upload ⟨[[1]], some "reset"⟩) (0, []) =
        (answer, sheetProxy, 0, []) ∧ answer.status = 502 := by
  intro url network arriving
  have hurl : (upload arriving).target.resolve sheetProxy.origin = .ok url := by rfl
  have hroute :
      sheetProxy.classifier.route ((upload arriving).request url) = .pass .nonGet := by rfl
  have htexts : ∀ header ∈ (upload arriving).headers,
      ∃ text, Http.headerText? header.2 = some text :=
    fun header hmem => ⟨"a b", by rw [List.mem_singleton.mp hmem]; rfl⟩
  have hproper : ∀ request response, (echo request 0).1 = .ok response → response.IsProper := by
    intro request response hresponse
    cases hresponse
    have hstatus : 100 ≤ 201 ∧ 201 ≤ 999 := by decide
    exact ⟨hstatus, fun header hmem => absurd hmem List.not_mem_nil⟩
  obtain ⟨hwhole, _, hbroken⟩ := passes_on_once hurl hroute htexts echo 0 hproper []
  refine ⟨hurl, hroute, htexts, hproper, ?_, hbroken ⟨[[1]], some "reset"⟩ (by decide)⟩
  obtain ⟨request, answer, hhandle, _, _, _, hbody, hanswer, _⟩ := hwhole arriving rfl
  obtain ⟨hstatus, hback⟩ := hanswer (.ofBody 201 request.body) rfl
  have hbytes : request.body = [1, 2, 3] := hbody
  refine ⟨request, answer, hhandle, hbytes, hstatus, ?_⟩
  rw [hback (by decide) (by decide)]
  exact congrArg Except.ok hbytes

end Proxy

end DropRoom
