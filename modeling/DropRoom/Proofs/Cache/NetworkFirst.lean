import DropRoom.Proofs.Cache.Routing
import DropRoom.Proofs.Cache.SetUp
import DropRoom.Proofs.Cache.Store

namespace DropRoom.Cache

/-!
# Requests to the interface of the server

Requests to the server's interface are answered from the network first.  The rules that tell them
and the notices about being offline are made of the same patterns, so there is an answer to every
such request.

* `Engine.firstOfNetwork` — what the network said, else what is kept, else the notice;
* `Engine.serve_networkFirst` — a request to the interface is answered with that;
* `Engine.lookup_eq_none`, `Engine.lookup_of_current` — what is kept under a key.
-/

open Http (Request Response FetchError Network)

namespace Engine

variable {settings : CacheSettings} {e : Engine}

/-! ### Kept responses -/

/-- Where only the current partitions have a key, the static one comes first. -/
theorem lookup_of_current (hreadable : e.readable = true) {key : Key}
    (h : ∀ partition, partition ≠ e.staticPartition → partition ≠ e.runtimePartition →
      e.store.get? partition key = none) :
    e.lookup key =
      (e.store.get? e.staticPartition key).or (e.store.get? e.runtimePartition key) := by
  have hpreferred := @Store.matchAny?_of_preferred e.store
    [e.staticPartition, e.runtimePartition] key fun partition hmem => by
      rw [List.mem_cons, List.mem_singleton, not_or] at hmem
      exact h partition hmem.1 hmem.2
  rw [lookup, if_pos hreadable, hpreferred]
  cases hstatic : e.store.get? e.staticPartition key with
  | some response => simp [hstatic]
  | none => cases hruntime : e.store.get? e.runtimePartition key <;> simp [hstatic, hruntime]

/-- What no partition has is not found. -/
theorem lookup_eq_none {key : Key} (h : ∀ partition, e.store.get? partition key = none) :
    e.lookup key = none := by
  rw [lookup]
  split
  · rw [Store.matchAny?_of_preferred fun partition _ => h partition,
      List.findSome?_eq_none_iff]
    exact fun partition _ => h partition
  · rfl

/-! ### Answers -/

/-- The answer to a request from the network first: what the network said, else what is kept, else
the notice about being offline. -/
def firstOfNetwork (e : Engine) (request : Request) : Except FetchError Response → Served
  | .ok response => ⟨response, .network⟩
  | .error _ =>
    match e.lookup (.ofRequest request) with
    | some response => ⟨response, .cache⟩
    | none => ⟨Offline.notice request.url.pathText, .offline⟩

/-- The addresses of the server's interface are promised a notice. -/
theorem SetUpBy.promises_notice [Url.DomainNames] (h : e.SetUpBy settings) {url : Url}
    (hclass : (Classifier.ofSettings settings).classify url = .api) :
    e.noticePaths.any (Matcher.hits url) = true := by
  rw [h.noticePaths, List.map_append, List.any_append,
    Classifier.hits_of_classify_api hclass, Bool.or_true]

/-- **Always an answer.** Whatever the network says and whatever is kept, a request that is
answered from the network first has an answer. -/
theorem SetUpBy.serve_networkFirst [Url.DomainNames] (h : e.SetUpBy settings) {request : Request}
    {kind : Kind}
    (hroute : (Classifier.ofSettings settings).route request = .intercept kind .networkFirst)
    {ν : Type} (network : Network ν) (s : ν) :
    (e.serve network .networkFirst request s).1 =
      .ok (e.firstOfNetwork request (network.fetch request s).1) := by
  obtain ⟨_, _, hclass, hstrategy⟩ := Classifier.route_cases hroute
  have hnotice : e.noticePaths.any (Matcher.hits request.url) = true :=
    h.promises_notice (hclass.trans (Kind.strategy?_eq_networkFirst.mp hstrategy))
  -- no answer is given before the network has said something
  have hserve : (e.serve network .networkFirst request s).1 =
      (e.complete .networkFirst request (network.fetch request s).1).1 := rfl
  rw [hserve]
  cases (network.fetch request s).1 with
  | ok response => rfl
  | error cause =>
    show e.fallback .networkFirst request cause = _
    rw [fallback, stored?, offline?, if_pos hnotice, firstOfNetwork]
    cases e.lookup (.ofRequest request) with
    | some response => rfl
    | none => rfl

end Engine

end DropRoom.Cache
