import DropRoom.Proofs.Proxy.Freshness

namespace DropRoom

/-!
# Requests for push streams

A push stream does not end, so a request for one is passed on as it is and does not come to the engine
of the cache, which waits for whole responses.  The request is told by its first `Accept` header alone:
where a client names the type of a push stream in a later one, the request is taken for any other of
its class.

* `Http.Request.Asks`, `Http.Request.LeadsWithout` — some `Accept` header contains a text, and the
  first one does not;
* `Proxy.streams_pass_unless_led_without` — when a request for a push stream is passed on.
-/

open Http (Body Network Request)

/-! ### What a client accepts -/

namespace Http.Request

/-- Some `Accept` header of a request, in whatever case its name is written and wherever it stands,
contains a text. -/
def Asks (request : Request) (kind : String) : Prop :=
  ∃ header ∈ request.headers, Text.equalsIgnoringCase header.1 "accept" = true ∧
    kind.toList <:+: header.2.toList

/-- The first `Accept` header of a request does not contain a text. -/
def LeadsWithout (request : Request) (kind : String) : Prop :=
  ∃ before header after, request.headers = before ++ header :: after ∧
    Text.equalsIgnoringCase header.1 "accept" = true ∧
    (∀ other ∈ before, Text.equalsIgnoringCase other.1 "accept" = false) ∧
    ¬ kind.toList <:+: header.2.toList

variable {request : Request} {kind : String}

/-- A request leads without a kind exactly if its first header for it says something else. -/
theorem leadsWithout_iff :
    request.LeadsWithout kind ↔
      ∃ value, request.header? "accept" = some value ∧ ¬ kind.toList <:+: value.toList := by
  constructor
  · rintro ⟨before, header, after, hheaders, hname, hbefore, hkind⟩
    exact ⟨header.2, Headers.first?_eq_some_iff.mpr
      ⟨before, header, after, hheaders, hname, hbefore, rfl⟩, hkind⟩
  · rintro ⟨value, hfirst, hkind⟩
    obtain ⟨before, header, after, hheaders, hname, hbefore, rfl⟩ :=
      Headers.first?_eq_some_iff.mp hfirst
    exact ⟨before, header, after, hheaders, hname, hbefore, hkind⟩

/-- Where some `Accept` header contains a text, it is found unless the first one does not. -/
theorem Asks.accepts_iff (h : request.Asks kind) :
    request.accepts kind = true ↔ ¬ request.LeadsWithout kind := by
  obtain ⟨header, hmem, hname, hkind⟩ := h
  rw [Request.accepts_iff, leadsWithout_iff]
  cases hfirst : request.header? "accept" with
  | none =>
    -- there is a first one, as there is one at all
    rw [header?, Headers.first?, Option.map_eq_none_iff, List.find?_eq_none] at hfirst
    exact absurd hname (hfirst header hmem)
  | some value => simp

end Http.Request

/-! ### Requests for streams -/

namespace Proxy

open Cache (Kind PassReason Strategy)

variable {ν : Type} {p : Proxy} {request : Request}

/-- A request that is passed on leaves the proxy as it is. -/
theorem respond_of_pass {reason : PassReason} (hroute : p.classifier.route request = .pass reason)
    (network : Network ν) (body : Body) (s : ν) :
    p.respond network request body s =
      ((passOn network request body s).1, p, (passOn network request body s).2) := by
  rw [respond, hroute]

/-- A class with a way of its own is answered in that way. -/
theorem respond_of_decision {kind : Kind} {strategy : Strategy}
    (hroute : p.classifier.route request = kind.decision) (hstrategy : kind.strategy? = some strategy)
    (network : Network ν) (body : Body) (s : ν) :
    p.respond network request body s = p.intercept network strategy request body s := by
  rw [respond, hroute, Kind.decision, hstrategy]

/-- **Requests for push streams.** A request for what is at an address of the web, of which some
`Accept` header contains the type of a push stream, is passed on for that reason exactly if its first
`Accept` header does.  It then leaves the proxy as it is, and nobody waits for the whole response.
Otherwise it is treated as any other of its class: unless it is for a file of a room, it comes to the
engine, which waits. -/
theorem streams_pass_unless_led_without (p : Proxy) {request : Request}
    (hmethod : request.method = "GET") (hhttp : request.url.isHttp = true)
    (hstream : request.Asks "text/event-stream") (network : Network ν) (body : Body) (s : ν) :
    (p.classifier.route request = .pass .eventStream ↔
      ¬ request.LeadsWithout "text/event-stream") ∧
    (¬ request.LeadsWithout "text/event-stream" →
      p.respond network request body s =
        ((passOn network request body s).1, p, (passOn network request body s).2)) ∧
    (request.LeadsWithout "text/event-stream" →
      p.classifier.route request = (p.classifier.classify request.url).decision ∧
      ∀ strategy, (p.classifier.classify request.url).strategy? = some strategy →
        p.respond network request body s = p.intercept network strategy request body s) := by
  have hroute := @Cache.Classifier.route_of_get p.classifier request hmethod hhttp
  have haccepts := hstream.accepts_iff
  by_cases hled : request.LeadsWithout "text/event-stream"
  · rw [if_neg fun h => haccepts.mp h hled] at hroute
    -- no class is passed on for that reason
    have hreason : (p.classifier.classify request.url).decision ≠ .pass .eventStream := by
      cases p.classifier.classify request.url <;> nofun
    exact ⟨iff_of_false (hroute ▸ hreason) (not_not_intro hled), fun hnot => absurd hled hnot,
      fun _ => ⟨hroute, fun _ hstrategy => respond_of_decision hroute hstrategy network body s⟩⟩
  · rw [if_pos (haccepts.mpr hled)] at hroute
    exact ⟨iff_of_true hroute hled, fun _ => respond_of_pass hroute network body s,
      fun h => absurd h hled⟩

/-- A request for a push stream or a document, with a header for either: it is passed on where that
for the stream is first, and comes to the engine where it is second. -/
theorem streams_pass_unless_led_without_of_two :
    let stream := ("Accept", "text/event-stream")
    let document := ("accept", "application/json")
    let led : Request := ⟨"GET", sheetUrl ["rooms"], [stream, document], []⟩
    let missed : Request := ⟨"GET", sheetUrl ["rooms"], [document, stream], []⟩
    led.Asks "text/event-stream" ∧ ¬ led.LeadsWithout "text/event-stream" ∧
      sheetProxy.classifier.route led = .pass .eventStream ∧
      missed.Asks "text/event-stream" ∧ missed.LeadsWithout "text/event-stream" ∧
      sheetProxy.classifier.route missed = .intercept .residual .networkFirstWithFallback ∧
      sheetProxy.respond scripted missed .empty [.ok (sheet 1)] =
        sheetProxy.intercept scripted .networkFirstWithFallback missed .empty [.ok (sheet 1)] := by
  intro stream document led missed
  have hled : led.Asks "text/event-stream" :=
    ⟨stream, List.mem_cons_self, by decide, List.infix_refl _⟩
  have hmissed : missed.Asks "text/event-stream" :=
    ⟨stream, List.mem_cons_of_mem _ List.mem_cons_self, by decide, List.infix_refl _⟩
  have hstream : ¬ led.LeadsWithout "text/event-stream" :=
    hled.accepts_iff.mp (by decide)
  have hdocument : missed.LeadsWithout "text/event-stream" :=
    ⟨[], document, [stream], rfl, by decide, List.forall_mem_nil _,
      mt Text.occursIn_iff.mpr (by decide)⟩
  have hclass : sheetProxy.classifier.classify missed.url = .residual := by decide
  obtain ⟨hpass, _, _⟩ := streams_pass_unless_led_without sheetProxy rfl (by decide) hled scripted
    .empty [.ok (sheet 1)]
  obtain ⟨_, _, hintercept⟩ := streams_pass_unless_led_without sheetProxy rfl (by decide) hmissed
    scripted .empty [.ok (sheet 1)]
  obtain ⟨hroute, hrespond⟩ := hintercept hdocument
  rw [hclass] at hroute hrespond
  exact ⟨hled, hstream, hpass.mpr hstream, hmissed, hdocument, hroute, hrespond _ rfl⟩

end Proxy

end DropRoom
