import DropRoom.Proofs.Cache.SetUp
import DropRoom.Proofs.Cache.Store

namespace DropRoom.Cache

/-!
# Where responses are kept

Each partition is for some keys.  Between the time when a request comes in and the time when a
response is kept many other things may happen.  If requests are only served in ways whose partitions
are for their keys, nothing is ever kept where it does not belong.

* `Engine.Placed` — all that is kept, and all that is still to be, belongs where it is;
* `Engine.Fits` — the partition of a way to serve a request is for its key;
* `Session.Step.Suits` — a step brings in nothing that belongs nowhere;
* `Session.Placed`, `Session.Placed.step`, `Session.Placed.run` — so it is in every run of such
  steps.
-/

open Http (Request Response FetchError)

variable {belongs : String → Key → Prop}

namespace Engine

variable {e e' : Engine}

/-- All that an engine keeps, and all that it is still to keep, belongs where it is. -/
structure Placed (belongs : String → Key → Prop) (e : Engine) : Prop where
  /-- There is no partition that is for nothing. -/
  partitions : ∀ name ∈ e.store.partitions, ∃ key, belongs name key
  kept : ∀ name key response, e.store.get? name key = some response → belongs name key
  writes : ∀ write ∈ e.writes, belongs write.partition write.key
  refreshes : ∀ request ∈ e.refreshes, belongs e.staticPartition (.ofRequest request)

/-- Nothing is kept at the start. -/
theorem ofSettings_placed (belongs : String → Key → Prop) (settings : CacheSettings) :
    (ofSettings settings .empty).Placed belongs :=
  ⟨fun _ hmem => absurd hmem List.not_mem_nil,
    fun _ _ _ hget => absurd hget.symm (Option.some_ne_none _),
    fun _ hmem => absurd hmem List.not_mem_nil, fun _ hmem => absurd hmem List.not_mem_nil⟩

/-- The responses of a way to serve a request are kept, if at all, where they belong. -/
def Fits (belongs : String → Key → Prop) (e : Engine) (strategy : Strategy) (request : Request) :
    Prop :=
  ∀ partition, e.partitionOf? strategy = some partition → belongs partition (.ofRequest request)

/-- Where a request fits does not depend on what is kept. -/
theorem Fits.of_setUp_eq {strategy : Strategy} {request : Request}
    (h : e.Fits belongs strategy request) (heq : e'.setUp = e.setUp) :
    e'.Fits belongs strategy request := by
  obtain ⟨hstatic, hruntime, _, _, _⟩ := SetUp.mk.inj heq
  have hpartition : e'.partitionOf? strategy = e.partitionOf? strategy := by
    cases strategy with
    | networkFirst => exact congrArg some hruntime
    | cacheFirst => exact congrArg some hstatic
    | networkFirstWithFallback => rfl
  intro partition hsome
  exact h partition (hpartition ▸ hsome)

/-! ### Operations of the engine -/

/-- A response may be kept where it belongs. -/
theorem Placed.persist (h : e.Placed belongs) {partition : String} {key : Key}
    (hbelongs : belongs partition key) (response : Response) :
    (e.persist partition key response).Placed belongs := by
  rw [Engine.persist]
  split
  · refine ⟨fun name hmem => ?_, fun name other found hget => ?_, h.writes, h.refreshes⟩
    · rw [Store.partitions_put] at hmem
      split at hmem
      · exact h.partitions name hmem
      · rcases List.mem_append.mp hmem with hold | hnew
        · exact h.partitions name hold
        · exact ⟨key, List.mem_singleton.mp hnew ▸ hbelongs⟩
    · rw [Store.get?_put] at hget
      split at hget
      · rename_i hsame
        exact hsame.1 ▸ hsame.2 ▸ hbelongs
      · exact h.kept name other found hget
  · exact h

/-- A write may be begun where the key belongs. -/
theorem Placed.persistLater (h : e.Placed belongs) {partition : String} {key : Key}
    (hbelongs : belongs partition key) (response : Response) :
    (e.persistLater partition key response).Placed belongs := by
  rw [Engine.persistLater]
  split
  · refine ⟨h.partitions, h.kept, fun write hmem => ?_, h.refreshes⟩
    rcases List.mem_append.mp hmem with hold | hnew
    · exact h.writes write hold
    · rw [List.mem_singleton.mp hnew]
      exact hbelongs
  · exact h

/-- Kept responses are refreshed where they belong. -/
theorem Placed.refreshLater (h : e.Placed belongs) {request : Request}
    (hbelongs : belongs e.staticPartition (.ofRequest request)) :
    (e.refreshLater request).Placed belongs := by
  rw [Engine.refreshLater]
  split
  · exact h
  · refine ⟨h.partitions, h.kept, h.writes, fun other hmem => ?_⟩
    rcases List.mem_append.mp hmem with hold | hnew
    · exact h.refreshes other hold
    · rw [List.mem_singleton.mp hnew]
      exact hbelongs

/-- A write that is done was listed before. -/
theorem Placed.finishWrite (h : e.Placed belongs) (index : Nat) :
    (e.finishWrite index).Placed belongs := by
  rw [Engine.finishWrite]
  cases hwrite : e.writes[index]? with
  | none => exact h
  | some write =>
    have hleft : { e with writes := e.writes.eraseIdx index }.Placed belongs :=
      ⟨h.partitions, h.kept, fun other hmem => h.writes other (List.mem_of_mem_eraseIdx hmem),
        h.refreshes⟩
    exact hleft.persist (h.writes write (List.mem_of_getElem? hwrite)) write.response

/-- A refresh writes where its key belongs. -/
theorem Placed.finishRefresh (h : e.Placed belongs) (index : Nat)
    (answer : Except FetchError Response) : (e.finishRefresh index answer).Placed belongs := by
  rw [Engine.finishRefresh]
  cases hrequest : e.refreshes[index]? with
  | none => exact h
  | some request =>
    -- the refresh leaves the list when its response has been kept
    have hend {now : Engine} (hnow : now.Placed belongs) (marked : List Key) :
        { now with
          refreshes := now.refreshes.eraseIdx index
          refreshing := marked }.Placed belongs :=
      ⟨hnow.partitions, hnow.kept, hnow.writes,
        fun other hmem => hnow.refreshes other (List.mem_of_mem_eraseIdx hmem)⟩
    cases answer with
    | error cause => exact hend h _
    | ok response =>
      by_cases hsuccess : response.isSuccess
      · simp only [if_pos hsuccess]
        exact hend (h.persist (h.refreshes request (List.mem_of_getElem? hrequest)) response) _
      · simp only [if_neg hsuccess]
        exact hend h _

/-- A static asset that there is belongs where static assets are kept. -/
theorem Placed.keepAsset (h : e.Placed belongs) {url : Url} {answer : Except FetchError Response}
    (hbelongs : ∀ response, answer = .ok response → response.isSuccess →
      belongs e.staticPartition (.ofRequest (.get url))) :
    (e.keepAsset url answer).2.Placed belongs := by
  rcases e.keepAsset_cases url answer with ⟨response, hanswer, hsuccess, hkept⟩ | ⟨_, hkept⟩
  · rw [hkept]
    exact h.persist (hbelongs response hanswer hsuccess) response
  · rwa [hkept]

/-- A partition may be deleted. -/
theorem Placed.delete (h : e.Placed belongs) (partition : String) :
    { e with store := (e.store.deletePartition partition).2 }.Placed belongs := by
  refine ⟨fun name hmem => ?_, fun name key response hget => ?_, h.writes, h.refreshes⟩
  · rw [Store.partitions_deletePartition] at hmem
    exact h.partitions name (List.mem_filter.mp hmem).1
  · rw [Store.get?_deletePartition] at hget
    split at hget
    · cases hget
    · exact h.kept name key response hget

/-- So may those of other versions. -/
theorem Placed.activate (h : e.Placed belongs) : e.activate.2.Placed belongs := by
  refine ⟨fun name hmem => ?_, fun name key response hget => ?_, h.writes, h.refreshes⟩
  · exact h.partitions name (mem_partitions_activate.mp hmem).1
  · rw [get?_activate] at hget
    split at hget
    · exact h.kept name key response hget
    · cases hget

/-- A request may be begun that fits. -/
theorem Placed.begin (h : e.Placed belongs) {strategy : Strategy} {request : Request}
    (hfits : e.Fits belongs strategy request) : (e.begin strategy request).2.Placed belongs := by
  cases strategy with
  | cacheFirst =>
    rw [Engine.begin]
    split
    · exact h.refreshLater (hfits e.staticPartition rfl)
    · exact h
  | networkFirst => exact h
  | networkFirstWithFallback => exact h

/-- It may be completed, whatever the network says. -/
theorem Placed.complete (h : e.Placed belongs) {strategy : Strategy} {request : Request}
    (hfits : e.Fits belongs strategy request) (answer : Except FetchError Response) :
    (e.complete strategy request answer).2.Placed belongs := by
  cases answer with
  | error cause => exact h
  | ok response =>
    rw [Engine.complete]
    cases hpartition : e.partitionOf? strategy with
    | none => exact h
    | some partition => exact h.persistLater (hfits partition hpartition) response

end Engine

namespace Session

variable {serves : Strategy → Request → Prop} {session : Session}

/-! ### Sessions -/

/-- The requests that wait are such as are served, these only in ways that fit, and all that is kept
is placed where it belongs. -/
structure Placed (serves : Strategy → Request → Prop) (belongs : String → Key → Prop)
    (session : Session) : Prop where
  engine : session.engine.Placed belongs
  waiting : ∀ strategy request, (strategy, request) ∈ session.waiting → serves strategy request
  fits : ∀ strategy request, serves strategy request →
    session.engine.Fits belongs strategy request

/-- A step brings in only requests that are served and static assets that are kept where they
belong. -/
def Step.Suits (serves : Strategy → Request → Prop) (belongs : String → Key → Prop) (e : Engine) :
    Step → Prop
  | .serve strategy request => serves strategy request
  | .find strategy request _ => serves strategy request
  | .miss strategy request => serves strategy request
  | .asset url said => ∀ response, said = .ok response → response.isSuccess →
      belongs e.staticPartition (.ofRequest (.get url))
  | .answer _ _ => True
  | .write _ => True
  | .refresh _ _ => True
  | .activate => True
  | .delete _ => True

/-- What suits an engine does not depend on what is kept. -/
theorem Step.Suits.of_setUp_eq {e e' : Engine} {step : Step} (h : step.Suits serves belongs e)
    (heq : e'.setUp = e.setUp) : step.Suits serves belongs e' := by
  cases step with
  | asset url answer =>
    have hstatic : e'.staticPartition = e.staticPartition :=
      congrArg Engine.SetUp.staticPartition heq
    intro response hanswer hsuccess
    rw [hstatic]
    exact h response hanswer hsuccess
  | _ => exact h

/-- Only requests that come in now wait from now on. -/
theorem mem_waiting_step {step : Step} {entry : Strategy × Request}
    (h : entry ∈ (session.step step).waiting) :
    entry ∈ session.waiting ∨ step = .serve entry.1 entry.2 ∨ step = .miss entry.1 entry.2 := by
  have hawait {strategy : Strategy} {request : Request}
      (hmem : entry ∈ session.waiting ++ [(strategy, request)]) :
      entry ∈ session.waiting ∨ entry = (strategy, request) :=
    (List.mem_append.mp hmem).imp_right List.mem_singleton.mp
  cases step with
  -- the two steps that may let a request wait
  | serve strategy request =>
    rw [Session.step] at h
    split at h
    · exact .inl h
    · rcases hawait h with hold | rfl
      · exact .inl hold
      · exact .inr (.inl rfl)
  | miss strategy request =>
    rcases hawait h with hold | rfl
    · exact .inl hold
    · exact .inr (.inr rfl)
  -- an answer takes its request off the list, and the other steps keep the list
  | answer index answer =>
    rw [Session.step] at h
    split at h
    · exact .inl h
    · exact .inl (List.mem_of_mem_eraseIdx h)
  | refresh index answer =>
    rw [Session.step] at h
    split at h
    · exact .inl h
    · exact .inl h
  | find strategy request partition =>
    rw [Session.step] at h
    split at h
    · exact .inl h
    · exact .inl h
  | delete partition =>
    rw [Session.step] at h
    split at h
    · exact .inl h
    · exact .inl h
  | write index => exact .inl h
  | asset url answer => exact .inl h
  | activate => exact .inl h

/-- What the engine is after a step that suits. -/
theorem Placed.engine_step (h : session.Placed serves belongs) {step : Step}
    (hsuits : step.Suits serves belongs session.engine) :
    (session.step step).engine.Placed belongs := by
  cases step with
  | serve strategy request =>
    have hbegin := h.engine.begin (h.fits strategy request hsuits)
    rw [Session.step]
    split
    · rename_i heq
      rwa [heq] at hbegin
    · rename_i heq
      rwa [heq] at hbegin
  | answer index answer =>
    rw [Session.step]
    split
    · exact h.engine
    · rename_i strategy request hwaiting
      -- the request suited when it came in, and what suits does not change while it waits
      have hserves := h.waiting strategy request (List.mem_of_getElem? hwaiting)
      exact h.engine.complete (h.fits strategy request hserves) answer
  | write index => exact h.engine.finishWrite index
  | refresh index answer =>
    rw [engine_step_refresh]
    exact h.engine.finishRefresh index answer
  | asset url answer => exact h.engine.keepAsset hsuits
  | activate => exact h.engine.activate
  | find strategy request partition =>
    rw [Session.step]
    split
    · exact h.engine
    · cases strategy with
      | cacheFirst =>
        exact h.engine.refreshLater (h.fits .cacheFirst request hsuits _ rfl)
      | networkFirst => exact h.engine
      | networkFirstWithFallback => exact h.engine
  | miss strategy request => exact h.engine
  | delete partition =>
    rw [Session.step]
    split
    · exact h.engine
    · exact h.engine.delete partition

/-- **What a step keeps.** After a step that suits, all that is kept is placed where it belongs. -/
theorem Placed.step (h : session.Placed serves belongs) {step : Step}
    (hsuits : step.Suits serves belongs session.engine) :
    (session.step step).Placed serves belongs := by
  refine ⟨h.engine_step hsuits, fun strategy request hmem => ?_, fun strategy request hserves => ?_⟩
  · rcases mem_waiting_step hmem with hold | rfl | rfl
    · exact h.waiting strategy request hold
    · exact hsuits
    · exact hsuits
  · exact (h.fits strategy request hserves).of_setUp_eq (session.setUp_step step)

/-- In every run of steps that suit, all that is kept is placed where it belongs. -/
theorem Placed.run (h : session.Placed serves belongs) {steps : List Step}
    (hsuits : ∀ step ∈ steps, step.Suits serves belongs session.engine) :
    (session.run steps).Placed serves belongs := by
  induction steps generalizing session with
  | nil => exact h
  | cons step steps ih =>
    refine ih (h.step (hsuits step List.mem_cons_self)) fun other hmem => ?_
    exact (hsuits other (List.mem_cons_of_mem _ hmem)).of_setUp_eq (session.setUp_step step)

/-! ### Requests whose responses are not kept -/

/-- A request that is served in a way that keeps nothing leaves the engine as it is, also where it
finds a kept response. -/
theorem engine_step_find_fallback (session : Session) (request : Request) (partition : String) :
    (session.step (.find .networkFirstWithFallback request partition)).engine = session.engine := by
  rw [step]
  split
  · rfl
  · rfl

/-- So it does when the network has answered. -/
theorem engine_step_answer_fallback {index : Nat} {request : Request}
    (h : session.waiting[index]? = some (.networkFirstWithFallback, request))
    (answer : Except FetchError Response) :
    (session.step (.answer index answer)).engine = session.engine := by
  rw [step, h]
  cases answer with
  | error cause => rfl
  | ok response => rfl

/-- A request of which nothing is kept leaves the engine as it was. -/
theorem engine_serve_fallback {ν : Type} (e : Engine) (network : Http.Network ν) (request : Request)
    (s : ν) : (e.serve network .networkFirstWithFallback request s).2.1 = e := by
  show (e.complete .networkFirstWithFallback request (network.fetch request s).1).2 = e
  cases (network.fetch request s).1 with
  | error cause => rfl
  | ok response => rfl

end Session

end DropRoom.Cache
