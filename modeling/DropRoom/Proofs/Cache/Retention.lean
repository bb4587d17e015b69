import DropRoom.Proofs.Cache.Provenance
import DropRoom.Proofs.Cache.SetUp

namespace DropRoom.Cache

/-!
# What stays in the current partitions

Only responses of success are written to the store, and only partitions of other versions are
deleted.  So what a current partition keeps under a key stays there until a response of success
takes its place.

* `Session.Step.Writes`, `Session.Step.Deletes` — the responses that a step writes to the store, and
  the partitions that it deletes;
* `Session.StoreAfter`, `Session.storeAfter_step` — a step does nothing else to the store;
* `Store.Keeps`, `Session.keeps_run` — what a current partition keeps, it keeps in every run;
* `Engine.Holds`, `Session.holds_run` — a key with a response of success that is found first;
* `Session.AlwaysAnswers` — a request has an answer whatever the network says, and when;
* `InstallReport.exists_of_mem_cached` — what an installation reports as kept.
-/

open Http (Request Response FetchError Network)

/-- A response is kept under a key of a partition, or a response of success has taken its place. -/
def Store.Keeps (store : Store) (partition : String) (key : Key) (response : Response) : Prop :=
  ∃ kept, store.get? partition key = some kept ∧ (kept = response ∨ kept.isSuccess)

namespace Engine

variable {e e' : Engine} {partition : String} {key : Key} {response : Response}

/-! ### Operations that leave the store alone -/

@[simp] theorem store_refreshLater (e : Engine) (request : Request) :
    (e.refreshLater request).store = e.store := by
  rw [refreshLater]
  split
  · rfl
  · rfl

/-- A request that is begun leaves the store as it is. -/
@[simp] theorem store_begin (e : Engine) (strategy : Strategy) (request : Request) :
    (e.begin strategy request).2.store = e.store := by
  cases strategy with
  | cacheFirst =>
    rw [begin]
    split
    · exact e.store_refreshLater request
    · rfl
  | networkFirst => rfl
  | networkFirstWithFallback => rfl

/-- What it is answered with is written later. -/
@[simp] theorem store_complete (e : Engine) (strategy : Strategy) (request : Request)
    (answer : Except FetchError Response) :
    (e.complete strategy request answer).2.store = e.store := by
  cases answer with
  | error cause => rfl
  | ok response =>
    rw [complete]
    cases e.partitionOf? strategy with
    | none => rfl
    | some partition =>
      show (e.persistLater partition (.ofRequest request) response).store = e.store
      rw [persistLater]
      split
      · rfl
      · rfl

/-- Which partitions are current depends on how the engine is set up alone. -/
theorem isCurrent_of_setUp_eq (h : e'.setUp = e.setUp) : e'.isCurrent = e.isCurrent := by
  obtain ⟨hstatic, hruntime, _, _, _⟩ := SetUp.mk.inj h
  funext partition
  rw [isCurrent, isCurrent, hstatic, hruntime]

/-! ### Keys that are found -/

/-- A response of success is kept where it is found first. -/
structure Holds (e : Engine) (key : Key) : Prop where
  readable : e.readable = true
  kept : ∃ response, e.store.get? e.staticPartition key = some response ∧ response.isSuccess

/-- A key that is held is found, with a response of success. -/
theorem Holds.lookup (h : e.Holds key) :
    ∃ response, e.lookup key = some response ∧ response.isSuccess := by
  obtain ⟨response, hget, hsuccess⟩ := h.kept
  refine ⟨response, ?_, hsuccess⟩
  rw [Engine.lookup, if_pos h.readable, Store.matchAny?]
  show List.findSome? _ (e.staticPartition :: _) = _
  rw [List.findSome?_cons, hget]

/-- A request that is answered from the store first needs no network. -/
theorem Holds.begin_cacheFirst {request : Request} (h : e.Holds (.ofRequest request)) :
    ∃ served, (e.begin .cacheFirst request).1 = some served := by
  obtain ⟨response, hlookup, _⟩ := h.lookup
  exact ⟨⟨response, .cache⟩, by rw [begin, hlookup]⟩

/-- The others have an answer when the network has said something. -/
theorem Holds.complete {strategy : Strategy} {request : Request} (h : e.Holds (.ofRequest request))
    (hstrategy : strategy ≠ .cacheFirst) (answer : Except FetchError Response) :
    ∃ served, (e.complete strategy request answer).1 = .ok served := by
  cases answer with
  | ok response => exact ⟨⟨response, .network⟩, rfl⟩
  | error cause =>
    obtain ⟨response, hlookup, _⟩ := h.lookup
    refine ⟨⟨response, .cache⟩, ?_⟩
    rw [Engine.complete, fallback]
    cases strategy with
    | cacheFirst => exact absurd rfl hstrategy
    | networkFirst => rw [stored?, hlookup]
    | networkFirstWithFallback => rw [stored?, hlookup]

/-- A static asset that is there is held from now on. -/
theorem holds_keepAsset (hreadable : e.readable = true) (hwritable : e.writable = true) (url : Url)
    (hsuccess : response.isSuccess) : (e.keepAsset url (.ok response)).2.Holds (.get url.render) := by
  have hkeep : (e.keepAsset url (.ok response)).2 =
      e.persist e.staticPartition (.get url.render) response := by
    rw [keepAsset, if_pos hsuccess]
    rfl
  have hsetUp := e.setUp_persist e.staticPartition (.get url.render) response
  have hread : (e.persist e.staticPartition (.get url.render) response).readable = e.readable :=
    congrArg SetUp.readable hsetUp
  have hstatic : (e.persist e.staticPartition (.get url.render) response).staticPartition =
      e.staticPartition := congrArg SetUp.staticPartition hsetUp
  rw [hkeep]
  refine ⟨hread.trans hreadable, response, ?_, hsuccess⟩
  rw [hstatic, get?_persist hwritable, if_pos ⟨rfl, rfl⟩]

end Engine

namespace Session

/-! ### What a step does to the store -/

/-- A step puts a response under a key: a write is done, or the network has what a refresh or a static
asset is about. -/
def Step.Writes (session : Session) (key : Key) (response : Response) : Step → Prop
  | .write index => ∃ write, session.engine.writes[index]? = some write ∧ write.key = key ∧
    write.response = response
  | .refresh index said => said = .ok response ∧ response.isSuccess ∧
    ∃ request, session.engine.refreshes[index]? = some request ∧ Key.ofRequest request = key
  | .asset url said => said = .ok response ∧ response.isSuccess ∧ Key.ofRequest (.get url) = key
  | _ => False

/-- A step deletes a partition of another version. -/
def Step.Deletes (session : Session) (name : String) : Step → Prop
  | .activate => session.engine.isCurrent name = false
  | .delete other => other = name ∧ session.engine.isCurrent name = false
  | _ => False

/-- What a step can make of the store: it leaves it alone, puts a response there that it writes, or
takes partitions away that it deletes. -/
inductive StoreAfter (session : Session) (step : Step) : Store → Prop where
  | same : session.StoreAfter step session.engine.store
  | put (partition : String) (key : Key) (response : Response)
    (h : step.Writes session key response) :
    session.StoreAfter step (session.engine.store.put partition key response)
  | delete (names : List String) (h : ∀ name ∈ names, step.Deletes session name) :
    session.StoreAfter step (Engine.deletePartitions names session.engine.store).2

variable {start : Store} {session : Session} {step : Step} {partition : String} {key : Key}
  {response : Response}

/-- A step may leave the store as it is. -/
theorem StoreAfter.of_store_eq {e : Engine} (h : e.store = session.engine.store) :
    session.StoreAfter step e.store :=
  h ▸ .same

/-- A response that is written, if the store can be written to. -/
theorem StoreAfter.persist {e : Engine} (hstore : e.store = session.engine.store)
    (partition : String) (h : step.Writes session key response) :
    session.StoreAfter step (e.persist partition key response).store := by
  rw [Engine.persist]
  split
  · show session.StoreAfter step (e.store.put partition key response)
    rw [hstore]
    exact .put partition key response h
  · exact .of_store_eq hstore

/-- **What a step does to the store.** It writes its responses, deletes its partitions, or leaves the
store alone. -/
theorem storeAfter_step (session : Session) (step : Step) :
    session.StoreAfter step (session.step step).engine.store := by
  cases step with
  -- one case for each step; only a write, a refresh, an asset and the two deletions reach the store
  | serve strategy request =>
    have hbegin := session.engine.store_begin strategy request
    rw [Session.step]
    split
    · rename_i heq
      rw [heq] at hbegin
      exact .of_store_eq hbegin
    · rename_i heq
      rw [heq] at hbegin
      exact .of_store_eq hbegin
  | answer index answer =>
    rw [Session.step]
    split
    · exact .same
    · exact .of_store_eq (session.engine.store_complete _ _ answer)
  | write index =>
    show session.StoreAfter _ (session.engine.finishWrite index).store
    rw [Engine.finishWrite]
    cases hwrite : session.engine.writes[index]? with
    | none => exact .same
    | some write =>
      exact .persist (e := { session.engine with writes := session.engine.writes.eraseIdx index }) rfl
        write.partition ⟨write, hwrite, rfl, rfl⟩
  | refresh index answer =>
    rw [engine_step_refresh, Engine.finishRefresh]
    cases hrequest : session.engine.refreshes[index]? with
    | none => exact .same
    | some request =>
      cases answer with
      | error cause => exact .same
      | ok response =>
        -- a refresh replaces the copy only by a response that succeeded
        by_cases hsuccess : response.isSuccess
        · simp only [if_pos hsuccess]
          exact .persist rfl _ ⟨rfl, hsuccess, request, hrequest, rfl⟩
        · simp only [if_neg hsuccess]
          exact .same
  | asset url answer =>
    show session.StoreAfter _ (session.engine.keepAsset url answer).2.store
    rcases session.engine.keepAsset_cases url answer with
      ⟨response, hanswer, hsuccess, hkept⟩ | ⟨_, hkept⟩
    · rw [hkept]
      exact .persist rfl _ ⟨hanswer, hsuccess, rfl⟩
    · rw [hkept]
      exact .same
  | activate =>
    -- the partitions that are deleted are those that the filter of the names leaves
    refine .delete _ fun name hmem => ?_
    simpa [Step.Deletes] using (List.mem_filter.mp hmem).2
  | find strategy request partition =>
    rw [Session.step]
    split
    · exact .same
    · cases strategy with
      | cacheFirst => exact .of_store_eq (session.engine.store_refreshLater request)
      | networkFirst => exact .same
      | networkFirstWithFallback => exact .same
  | miss strategy request => exact .same
  | delete partition =>
    rw [Session.step]
    split
    · exact .same
    · rename_i hstale
      refine .delete [partition] fun name hmem => ?_
      rw [List.mem_singleton.mp hmem]
      exact ⟨rfl, by simpa using hstale⟩

/-- What is written is a response of success: no other was listed to be written. -/
theorem Step.Writes.isSuccess (hwrites : step.Writes session key response)
    (h : session.Traced start) : response.isSuccess := by
  cases step with
  | write index =>
    obtain ⟨write, hwrite, _, rfl⟩ := hwrites
    exact (h.writes write (List.mem_of_getElem? hwrite)).1
  | refresh index said => exact hwrites.2.1
  | asset url said => exact hwrites.2.1
  | _ => exact hwrites.elim

/-- What is deleted is no current partition. -/
theorem Step.Deletes.not_isCurrent (h : step.Deletes session partition) :
    session.engine.isCurrent partition = false := by
  cases step with
  | activate => exact h
  | delete other => exact h.2
  | _ => exact h.elim

/-- No step takes a key from a current partition. -/
theorem StoreAfter.keeps {store : Store} (hafter : session.StoreAfter step store)
    (h : session.Traced start) (hcurrent : session.engine.isCurrent partition = true)
    (hkeeps : session.engine.store.Keeps partition key response) :
    store.Keeps partition key response := by
  obtain ⟨kept, hget, hkept⟩ := hkeeps
  cases hafter with
  | same => exact ⟨kept, hget, hkept⟩
  | put other otherKey written hwrites =>
    by_cases hsame : other = partition ∧ otherKey = key
    · exact ⟨written, by rw [Store.get?_put, if_pos hsame], .inr (hwrites.isSuccess h)⟩
    · exact ⟨kept, by rwa [Store.get?_put, if_neg hsame], hkept⟩
  | delete names hdeletes =>
    have hmem : partition ∉ names := fun hmem => by
      rw [(hdeletes partition hmem).not_isCurrent] at hcurrent
      cases hcurrent
    exact ⟨kept, by rwa [Engine.get?_deletePartitions, if_neg hmem], hkept⟩

/-! ### Runs -/

/-- **Nothing is lost.** Whatever happens, a current partition keeps what it has, or something newer
that is a response of success. -/
theorem keeps_run (h : session.Traced start) (hcurrent : session.engine.isCurrent partition = true)
    (hkeeps : session.engine.store.Keeps partition key response) (steps : List Step) :
    (session.run steps).engine.store.Keeps partition key response := by
  induction steps generalizing session with
  | nil => exact hkeeps
  | cons step steps ih =>
    refine ih (h.step step) ?_ ((session.storeAfter_step step).keeps h hcurrent hkeeps)
    rwa [Engine.isCurrent_of_setUp_eq (session.setUp_step step)]

/-- A key that is held is held for good. -/
theorem holds_run (h : session.Traced start) (hholds : session.engine.Holds key)
    (steps : List Step) : (session.run steps).engine.Holds key := by
  obtain ⟨hreadable, response, hget, hsuccess⟩ := hholds
  have hsetUp := session.setUp_run steps
  have hcurrent : session.engine.isCurrent session.engine.staticPartition = true := by
    rw [Engine.isCurrent, beq_self_eq_true, Bool.true_or]
  obtain ⟨kept, hkept, hnewer⟩ :=
    keeps_run h hcurrent ⟨response, hget, .inl rfl⟩ steps
  have hstatic : (session.run steps).engine.staticPartition = session.engine.staticPartition :=
    congrArg Engine.SetUp.staticPartition hsetUp
  refine ⟨(congrArg Engine.SetUp.readable hsetUp).trans hreadable, kept, by rwa [hstatic], ?_⟩
  rcases hnewer with rfl | hnew
  · exact hsuccess
  · exact hnew

/-- A request that comes in now has an answer: at once, or it waits and has one whenever the network
says something to it, and whatever that is. -/
def AlwaysAnswers (session : Session) (strategy : Strategy) (request : Request) : Prop :=
  let asked := session.step (.serve strategy request)
  (∃ served, asked.served = session.served ++ [(request, .ok served)]) ∨
    asked.waiting = session.waiting ++ [(strategy, request)] ∧
    ∀ later index answer, (asked.run later).waiting[index]? = some (strategy, request) →
      ∃ served, ((asked.run later).step (.answer index answer)).served =
        (asked.run later).served ++ [(request, .ok served)]

/-- A request that needs no network is answered at once. -/
theorem served_step_serve {strategy : Strategy} {request : Request} {served : Served}
    (h : (session.engine.begin strategy request).1 = some served) :
    (session.step (.serve strategy request)).served =
      session.served ++ [(request, .ok served)] := by
  rw [step]
  split
  · rename_i heq
    rw [heq] at h
    cases h
    rfl
  · rename_i heq
    rw [heq] at h
    cases h

/-- A request that is not answered from the store first waits for the network. -/
theorem waiting_step_serve {strategy : Strategy} (h : strategy ≠ .cacheFirst) (request : Request) :
    (session.step (.serve strategy request)).waiting = session.waiting ++ [(strategy, request)] := by
  cases strategy with
  | cacheFirst => exact absurd rfl h
  | networkFirst => rfl
  | networkFirstWithFallback => rfl

/-- A request that waits is answered with what the engine makes of what the network says. -/
theorem served_step_answer {strategy : Strategy} {request : Request} {index : Nat}
    (h : session.waiting[index]? = some (strategy, request))
    (answer : Except FetchError Response) :
    (session.step (.answer index answer)).served =
      session.served ++ [(request, (session.engine.complete strategy request answer).1)] := by
  rw [step, h]
  rfl

/-- What is held answers all requests of its key. -/
theorem alwaysAnswers_of_holds (h : session.Traced start) {request : Request}
    (hholds : session.engine.Holds (.ofRequest request)) (strategy : Strategy) :
    session.AlwaysAnswers strategy request := by
  by_cases hfirst : strategy = .cacheFirst
  · left
    subst hfirst
    obtain ⟨served, hserved⟩ := hholds.begin_cacheFirst
    exact ⟨served, served_step_serve hserved⟩
  · right
    refine ⟨waiting_step_serve hfirst request, fun later index answer hwaiting => ?_⟩
    have hlater : ((session.step (.serve strategy request)).run later).engine.Holds
        (.ofRequest request) := holds_run h hholds (.serve strategy request :: later)
    obtain ⟨served, hserved⟩ := hlater.complete hfirst answer
    exact ⟨served, by rw [served_step_answer hwaiting, hserved]⟩

end Session

/-! ### Installations -/

/-- What a report tells as kept was so before, or is what is now kept. -/
theorem InstallReport.mem_cached_report {url : Url} {kept : Bool} {others : InstallReport}
    {text : String} :
    text ∈ (others.report url kept).cached ↔
      kept = true ∧ url.render = text ∨ text ∈ others.cached := by
  cases kept with
  | true => simp [report, eq_comm]
  | false => simp [report]

/-- The assets that are reported as kept are those that the network has. -/
theorem InstallReport.exists_of_mem_cached {answers : List (Url × Except FetchError Response)}
    {text : String} (h : text ∈ (ofAnswers answers).cached) :
    ∃ url response, (url, .ok response) ∈ answers ∧ response.isSuccess ∧ url.render = text := by
  induction answers with
  | nil => cases h
  | cons entry answers ih =>
    obtain ⟨url, answer⟩ := entry
    rcases mem_cached_report.mp h with ⟨hkept, htext⟩ | hmem
    · cases answer with
      | error cause => cases hkept
      | ok response => exact ⟨url, response, List.mem_cons_self, hkept, htext⟩
    · obtain ⟨other, response, hmem, hother⟩ := ih hmem
      exact ⟨other, response, List.mem_cons_of_mem _ hmem, hother⟩

end DropRoom.Cache
