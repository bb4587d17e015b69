import DropRoom.Proofs.Settings.Check
import DropRoom.Proofs.Url.ServerPath
import DropRoom.Proxy
import DropRoom.Room.Command
import Mathlib.Control.Monad.Basic

namespace DropRoom

/-!
# Settings that pass their check

The address of the server is read again wherever it is used: for the stream, for the proxy, and for
the requests of the user.  The one check of the settings is enough for all of them.

* `Url.IsWeb.join_streamPath` — the address of the stream on a server of the web;
* `Settings.checked_settings_start` — whatever is made of settings that pass their check is made.
-/

open Room (FeedError Machine Visit)

/-- The path of the stream takes the place of whatever follows the server in an address. -/
theorem Url.IsWeb.join_streamPath [Url.DomainNames] {base : Url} (h : base.IsWeb) :
    base.join Room.streamPath =
      .ok { base with path := .segments ["rooms"], query := none, fragment := none } := by
  have hserver : IsServerPath Room.streamPath := ⟨_, rfl, by decide, by decide⟩
  exact hserver.join h

namespace Settings

variable {settings : Settings}

/-- The stream has an address wherever the server has one of the web. -/
theorem streamUrl_eq [Url.DomainNames] {base : Url} (hbase : settings.base = .ok base)
    (hweb : base.IsWeb) :
    Room.streamUrl settings =
      .ok { base with path := .segments ["rooms"], query := none, fragment := none } := by
  simp only [Room.streamUrl, hbase, hweb.join_streamPath]

/-- **One check is enough, but for the bus.** Settings that pass their check have an address of the
server.  The stream has one on that server, with the path of the stream and nothing after it; the
proxy of the settings is made over any store; and so is a visit, unless the client of the network
cannot be made, which is then the only error that the caller is told.  The check does not look at the
capacity of the bus: the program breaks off exactly if it is beyond half of the greatest number of 64
bits, or beyond the memory that there is. -/
theorem checked_settings_start [Url.DomainNames] (hcheck : settings.check = .ok ()) :
    ∃ base stream visit, settings.base = .ok base ∧
      Room.streamUrl settings = .ok stream ∧
      (stream.origin = base.origin ∧ stream.pathText = "/rooms" ∧
        stream.query = none ∧ stream.fragment = none) ∧
      (∀ store, ∃ proxy, Proxy.ofSettings settings store = .ok proxy ∧ proxy.origin = base) ∧
      Visit.ofSettings settings = .ok visit ∧ visit.feed.url = stream ∧
      ∀ machine : Machine, Visit.startOn machine settings =
        match machine.client with
        | .error cause =>
          .error (.refused (.request (.transport "Failed to initialise HTTP client" cause)))
        | .ok () =>
          if 9223372036854775808 ≤ settings.eventCapacity.toNat then .error (.brokeOff .tooLarge)
          else if machine.hasRoomFor (Bus.powerOfTwoAbove settings.eventCapacity.toNat) then
            .ok (visit, base)
          else .error (.brokeOff .outOfMemory) := by
  obtain ⟨base, hbase, hweb⟩ := base_isWeb hcheck
  have hstream := streamUrl_eq hbase hweb
  have hvisit : Visit.ofSettings settings = .ok (.initial (Room.pageSetup settings)
      { base with path := .segments ["rooms"], query := none, fragment := none } settings.username
      settings.redirectDelay settings.actionRedirectDelay) := by
    simp only [Visit.ofSettings, hstream]
  refine ⟨base, _, _, hbase, hstream, ⟨rfl, rfl, rfl, rfl⟩, fun store => ?_, hvisit, rfl,
    fun machine => ?_⟩
  · refine ⟨⟨base, .ofSettings settings.cache, .ofSettings settings.cache store,
      settings.cache.staticAssets⟩, ?_, rfl⟩
    rw [Proxy.ofSettings, hcheck, hbase]
    rfl
  · simp only [Visit.startOn, hcheck, hbase, hvisit]
    -- what can still go wrong: the client of the network, and then the bus
    cases machine.client with
    | error cause => rfl
    | ok _ =>
      have hlarge : Bus.greatestCapacity < settings.eventCapacity.toNat ↔
          9223372036854775808 ≤ settings.eventCapacity.toNat := by
        rw [Bus.greatestCapacity]
        omega
      by_cases hlimit : 9223372036854775808 ≤ settings.eventCapacity.toNat
      · simp only [Bus.create, hlarge, if_pos hlimit]
      · by_cases hroom :
            machine.hasRoomFor (Bus.powerOfTwoAbove settings.eventCapacity.toNat) = true
        · simp only [Bus.create, hlarge, if_neg hlimit, if_pos hroom]
          rfl
        · simp only [Bus.create, hlarge, if_neg hlimit, if_neg hroom]

/-- Names in ASCII, and an international one. -/
@[reducible]
def namesWithBookshop : Url.DomainNames where
  toAscii? name :=
    if name = "bücher.example".toList then some "xn--bcher-kva.example".toList
    else Url.asciiName? name
  allowed {name ascii} h := by
    by_cases hshop : name = "bücher.example".toList
    · rw [if_pos hshop] at h
      obtain rfl := Option.some.inj h
      have hall : ("xn--bcher-kva.example".toList.all fun c => !Url.isForbiddenInDomain c) = true :=
        by decide
      exact fun c hc => (Bool.not_eq_true' _).mp (List.all_eq_true.mp hall c hc)
    · rw [if_neg hshop] at h
      exact Url.asciiNames.allowed h

/-- A server with a name, a password, an international host, a port and a path of its own: only the
server is left in the address of the stream.  With the greatest capacity that settings may have, the
program breaks off although they pass their check. -/
theorem checked_settings_start_of_busy_address :
    letI := namesWithBookshop
    let settings : Settings :=
      { ofBaseUrl "https://ana:pw@bücher.example:8443/app/..;x?room=1#top" with
        eventCapacity := 18446744073709551615 }
    settings.check = .ok () ∧
      (∃ stream, Room.streamUrl settings = .ok stream ∧ stream.pathText = "/rooms" ∧
        stream.render = "https://ana:pw@xn--bcher-kva.example:8443/rooms") ∧
      Visit.startOn .able settings = .error (.brokeOff .tooLarge) := by
  let _ := namesWithBookshop
  intro settings
  have hcheck : settings.check = .ok () := by decide +kernel
  obtain ⟨base, stream, _, hbase, hstream, ⟨_, hpath, _⟩, _, _, _, hstart⟩ :=
    checked_settings_start hcheck
  refine ⟨hcheck, ⟨stream, hstream, hpath, ?_⟩, ?_⟩
  · have hshown : (Room.streamUrl settings).map Url.render =
        .ok "https://ana:pw@xn--bcher-kva.example:8443/rooms" := by decide +kernel
    rw [hstream] at hshown
    exact Except.ok.inj hshown
  · rw [hstart .able]
    exact if_pos (by decide)

end Settings

end DropRoom
