import DropRoom.Proofs.Cache.Run
import DropRoom.Proofs.Cache.Store

namespace DropRoom.Cache

/-!
# Where kept responses come from

Responses come into the store in the background, after other requests were served and partitions
deleted.  Still nothing is kept under a key but what the network said to a request of that key.

* `Fetched` — the network has answered a request of a key with a response of success;
* `Engine.Follows` — what an operation of the engine may keep, and may list to be written;
* `Session.Traced` — all that is kept, listed to be written or served from the store was fetched, or
  was there at the start;
* `Session.Traced.step` — every step keeps it so;
* `Session.kept_was_fetched` — so it is in every run.
-/

open Http (Request Response FetchError)

/-- The network has answered a request of a key with a response of success. -/
def Fetched (answers : List (Request × Except FetchError Response)) (key : Key)
    (response : Response) : Prop :=
  response.isSuccess ∧ ∃ request, (request, .ok response) ∈ answers ∧
    key = ⟨Text.asciiUpper request.method, request.url.render⟩

/-- What was fetched stays fetched when more is. -/
theorem Fetched.append {answers : List (Request × Except FetchError Response)} {key : Key}
    {response : Response} (h : Fetched answers key response)
    (later : List (Request × Except FetchError Response)) :
    Fetched (answers ++ later) key response := by
  obtain ⟨hsuccess, request, hmem, hkey⟩ := h
  exact ⟨hsuccess, request, List.mem_append_left later hmem, hkey⟩

/-- What the network said to a request is known under its key, if it is a response of success. -/
def Told (known : Key → Response → Prop) (request : Request)
    (answer : Except FetchError Response) : Prop :=
  ∀ response, answer = .ok response → response.isSuccess → known (.ofRequest request) response

/-- What was said last has been fetched. -/
theorem told_last (answers : List (Request × Except FetchError Response)) (request : Request)
    (answer : Except FetchError Response) :
    Told (Fetched (answers ++ [(request, answer)])) request answer := by
  rintro response rfl hsuccess
  exact ⟨hsuccess, request, List.mem_append_right answers (List.mem_singleton_self _), rfl⟩

namespace Engine

variable {known : Key → Response → Prop} {e e' : Engine}

/-! ### Operations of the engine -/

/-- After an operation, nothing is kept or listed to be written but what was before and what is
known of the network. -/
structure Follows (known : Key → Response → Prop) (e e' : Engine) : Prop where
  kept : ∀ partition key response, e'.store.get? partition key = some response →
    e.store.get? partition key = some response ∨ known key response
  writes : ∀ write ∈ e'.writes, write ∈ e.writes ∨ known write.key write.response

theorem Follows.refl (known : Key → Response → Prop) (e : Engine) : Follows known e e :=
  ⟨fun _ _ _ hget => .inl hget, fun _ hmem => .inl hmem⟩

/-- What is known may be written to the store. -/
theorem follows_persist (e : Engine) (partition : String) {key : Key} {response : Response}
    (h : known key response) : Follows known e (e.persist partition key response) := by
  rw [persist]
  split
  · refine ⟨fun other otherKey found hget => ?_, fun _ hmem => .inl hmem⟩
    rw [Store.get?_put] at hget
    split at hget
    · rename_i hsame
      cases hget
      exact .inr (hsame.2 ▸ h)
    · exact .inl hget
  · exact .refl known e

/-- A write that is begun puts nothing into the store that is not known. -/
theorem follows_persistLater (e : Engine) (partition : String) {key : Key} {response : Response}
    (h : response.isSuccess → known key response) :
    Follows known e (e.persistLater partition key response) := by
  rw [persistLater]
  split
  · rename_i hsuccess
    refine ⟨fun _ _ _ hget => .inl hget, fun write hmem => ?_⟩
    rcases List.mem_append.mp hmem with hold | hnew
    · exact .inl hold
    · rw [List.mem_singleton.mp hnew]
      exact .inr (h hsuccess)
  · exact .refl known e

/-- Nor does a refresh that is begun. -/
theorem follows_refreshLater (known : Key → Response → Prop) (e : Engine) (request : Request) :
    Follows known e (e.refreshLater request) := by
  rw [refreshLater]
  split
  · exact .refl known e
  · exact ⟨fun _ _ _ hget => .inl hget, fun _ hmem => .inl hmem⟩

/-- A write that is done was listed before. -/
theorem follows_finishWrite (h : ∀ write ∈ e.writes, known write.key write.response)
    (index : Nat) : Follows known e (e.finishWrite index) := by
  rw [finishWrite]
  cases hwrite : e.writes[index]? with
  | none => exact .refl known e
  | some write =>
    -- the write leaves the list before its response is kept
    obtain ⟨hkept, hwrites⟩ := follows_persist { e with writes := e.writes.eraseIdx index }
      write.partition (h write (List.mem_of_getElem? hwrite))
    refine ⟨hkept, fun other hmem => ?_⟩
    exact (hwrites other hmem).imp_left List.mem_of_mem_eraseIdx

/-- A refresh writes what the network told of its request. -/
theorem follows_finishRefresh {index : Nat} {request : Request}
    {answer : Except FetchError Response} (hrequest : e.refreshes[index]? = some request)
    (h : Told known request answer) :
    Follows known e (e.finishRefresh index answer) := by
  rw [finishRefresh, hrequest]
  cases answer with
  | error cause => exact ⟨fun _ _ _ hget => .inl hget, fun _ hmem => .inl hmem⟩
  | ok response =>
    by_cases hsuccess : response.isSuccess
    · obtain ⟨hkept, hwrites⟩ :=
        follows_persist e e.staticPartition (h response rfl hsuccess)
      simp only [if_pos hsuccess]
      exact ⟨hkept, hwrites⟩
    · simp only [if_neg hsuccess]
      exact ⟨fun _ _ _ hget => .inl hget, fun _ hmem => .inl hmem⟩

/-- An installation writes what the network told of its asset. -/
theorem follows_keepAsset {url : Url} {answer : Except FetchError Response}
    (h : Told known (.get url) answer) :
    Follows known e (e.keepAsset url answer).2 := by
  rcases e.keepAsset_cases url answer with ⟨response, hanswer, hsuccess, hkept⟩ | ⟨_, hkept⟩
  · rw [hkept]
    exact follows_persist e e.staticPartition (h response hanswer hsuccess)
  · rw [hkept]
    exact .refl known e

/-- To delete other versions puts nothing into the store. -/
theorem follows_activate (known : Key → Response → Prop) (e : Engine) :
    Follows known e e.activate.2 := by
  refine ⟨fun partition key response hget => ?_, fun _ hmem => .inl hmem⟩
  rw [get?_activate] at hget
  split at hget
  · exact .inl hget
  · cases hget

/-- Nor does deleting a partition. -/
theorem follows_delete (known : Key → Response → Prop) (e : Engine) (partition : String) :
    Follows known e { e with store := (e.store.deletePartition partition).2 } := by
  refine ⟨fun other key response hget => ?_, fun _ hmem => .inl hmem⟩
  rw [Store.get?_deletePartition] at hget
  split at hget
  · cases hget
  · exact .inl hget

/-! ### Answers of the engine -/

/-- What a lookup finds is in some partition. -/
theorem get?_of_lookup {key : Key} {response : Response} (h : e.lookup key = some response) :
    ∃ partition, e.store.get? partition key = some response := by
  rw [lookup] at h
  split at h
  · exact Store.matchAny?_eq_some h
  · cases h

/-- To begin a request puts nothing into the store. -/
theorem follows_begin (known : Key → Response → Prop) (e : Engine) (strategy : Strategy)
    (request : Request) : Follows known e (e.begin strategy request).2 := by
  cases strategy with
  | cacheFirst =>
    rw [begin]
    split
    · exact follows_refreshLater known e request
    · exact .refl known e
  | networkFirst => exact .refl known e
  | networkFirstWithFallback => exact .refl known e

/-- An answer that needs no network is a kept response. -/
theorem get?_of_begin {strategy : Strategy} {request : Request} {served : Served}
    (h : (e.begin strategy request).1 = some served) :
    ∃ partition, e.store.get? partition (.ofRequest request) = some served.response := by
  cases strategy with
  | cacheFirst =>
    rw [begin] at h
    split at h
    · rename_i hlookup
      cases h
      exact get?_of_lookup hlookup
    · cases h
  | networkFirst => cases h
  | networkFirstWithFallback => cases h

/-- To complete it writes what the network told. -/
theorem follows_complete {strategy : Strategy} {request : Request}
    {answer : Except FetchError Response} (h : Told known request answer) :
    Follows known e (e.complete strategy request answer).2 := by
  cases answer with
  | error cause => exact .refl known e
  | ok response =>
    rw [complete]
    cases e.partitionOf? strategy with
    | none => exact .refl known e
    | some partition => exact follows_persistLater e partition (h response rfl)

/-- Where the network was asked, an answer from the store is a kept response. -/
theorem get?_of_complete {strategy : Strategy} {request : Request}
    {answer : Except FetchError Response} {served : Served}
    (h : (e.complete strategy request answer).1 = .ok served) (hsource : served.source = .cache) :
    ∃ partition, e.store.get? partition (.ofRequest request) = some served.response := by
  cases answer with
  | ok response =>
    cases h
    cases hsource
  | error cause =>
    rw [complete, fallback] at h
    split at h
    · rename_i hstored
      cases h
      cases strategy with
      | cacheFirst => cases hstored
      | networkFirst => exact get?_of_lookup hstored
      | networkFirstWithFallback => exact get?_of_lookup hstored
    · split at h
      · cases h
        cases hsource
      · cases h

end Engine

namespace Session

variable {start : Store} {session : Session}

/-! ### Sessions -/

/-- All that is kept or listed to be written was fetched or there at the start, and so was all that
requests were served from the store. -/
structure Traced (start : Store) (session : Session) : Prop where
  kept : ∀ partition key response, session.engine.store.get? partition key = some response →
    start.get? partition key = some response ∨ Fetched session.answers key response
  writes : ∀ write ∈ session.engine.writes, Fetched session.answers write.key write.response
  served : ∀ request served, (request, .ok served) ∈ session.served → served.source = .cache →
    (∃ partition, start.get? partition (.ofRequest request) = some served.response) ∨
      Fetched session.answers (.ofRequest request) served.response

/-- An engine that has nothing to write yet. -/
theorem ofEngine_traced (e : Engine) (h : e.writes = []) : (ofEngine e).Traced e.store := by
  refine ⟨fun _ _ _ hget => .inl hget, fun write hmem => ?_, fun _ _ hmem => ?_⟩
  · rw [ofEngine, h] at hmem
    cases hmem
  · cases hmem

/-- Responses stay traced when the network has said more and the engine has kept no more than it
may. -/
theorem Traced.follow (h : session.Traced start) {engine : Engine}
    (later : List (Request × Except FetchError Response))
    (hengine : Engine.Follows (Fetched (session.answers ++ later)) session.engine engine) :
    { session with engine := engine, answers := session.answers ++ later }.Traced start := by
  refine ⟨fun partition key response hget => ?_, fun write hmem => ?_, ?_⟩
  · -- what was fetched before is still among the answers
    rcases hengine.kept partition key response hget with hold | hnew
    · exact (h.kept partition key response hold).imp_right fun hfetched => hfetched.append later
    · exact .inr hnew
  · rcases hengine.writes write hmem with hold | hnew
    · exact (h.writes write hold).append later
    · exact hnew
  · intro request served hmem hsource
    exact (h.served request served hmem hsource).imp_right fun hfetched => hfetched.append later

/-- The same where the network has said nothing more. -/
theorem Traced.change (h : session.Traced start) {engine : Engine}
    (hengine : Engine.Follows (Fetched session.answers) session.engine engine) :
    { session with engine := engine }.Traced start := by
  have hfollow := h.follow [] (by rwa [List.append_nil])
  rwa [List.append_nil] at hfollow

/-- A request may be answered with what is kept for it, and with anything that does not come from
the store. -/
theorem Traced.respond (h : session.Traced start) {request : Request}
    {result : Except CacheError Served} {engine : Engine}
    (hengine : Engine.Follows (Fetched session.answers) session.engine engine)
    (hresult : ∀ served, result = .ok served → served.source = .cache →
      ∃ partition, session.engine.store.get? partition (.ofRequest request) =
        some served.response) :
    (session.respond request result engine).Traced start := by
  obtain ⟨hkept, hwrites, _⟩ := h.change hengine
  refine ⟨hkept, hwrites, fun other served hmem hsource => ?_⟩
  rcases List.mem_append.mp hmem with hold | hnew
  · exact h.served other served hold hsource
  · obtain ⟨rfl, hserved⟩ := Prod.mk.inj (List.mem_singleton.mp hnew)
    obtain ⟨partition, hget⟩ := hresult served hserved.symm hsource
    exact (h.kept partition _ _ hget).imp_left fun hstart => ⟨partition, hstart⟩

/-- The network may say anything, whatever requests wait. -/
theorem Traced.hear (h : session.Traced start) (request : Request)
    (answer : Except FetchError Response) (waiting : List (Strategy × Request)) :
    { session.hear request answer with waiting := waiting }.Traced start := by
  obtain ⟨hkept, hwrites, hserved⟩ := h.follow [(request, answer)] (.refl _ session.engine)
  exact ⟨hkept, hwrites, hserved⟩

/-- **What a step keeps.** Whatever happens, all that is kept stays traced. -/
theorem Traced.step (h : session.Traced start) (step : Step) :
    (session.step step).Traced start := by
  cases step with
  | serve strategy request =>
    have hbegin := Engine.follows_begin (Fetched session.answers) session.engine strategy request
    rw [Session.step]
    split
    · rename_i served engine heq
      rw [heq] at hbegin
      refine h.respond hbegin ?_
      rintro _ ⟨⟩ _
      exact Engine.get?_of_begin (congrArg Prod.fst heq)
    · rename_i engine heq
      rw [heq] at hbegin
      obtain ⟨hkept, hwrites, hserved⟩ := h.change hbegin
      exact ⟨hkept, hwrites, hserved⟩
  | answer index answer =>
    rw [Session.step]
    split
    · exact h
    · rename_i strategy request _
      -- the answer counts as said before the engine keeps anything of it
      refine (h.hear request answer _).respond ?_ ?_
      · exact Engine.follows_complete (told_last session.answers request answer)
      · intro served hresult hsource
        exact Engine.get?_of_complete hresult hsource
  | write index => exact h.change (Engine.follows_finishWrite h.writes index)
  | refresh index answer =>
    rw [Session.step]
    split
    · exact h
    · rename_i request hrequest
      exact h.follow _
        (Engine.follows_finishRefresh hrequest (told_last session.answers request answer))
  | asset url answer =>
    exact h.follow _ (Engine.follows_keepAsset (told_last session.answers (.get url) answer))
  | activate => exact h.change (Engine.follows_activate _ session.engine)
  | find strategy request partition =>
    rw [Session.step]
    split
    · exact h
    · rename_i response hget
      refine h.respond ?_ ?_
      · cases strategy with
        | cacheFirst => exact Engine.follows_refreshLater _ session.engine request
        | networkFirst => exact .refl _ session.engine
        | networkFirstWithFallback => exact .refl _ session.engine
      · rintro _ ⟨⟩ _
        exact ⟨partition, hget⟩
  | miss strategy request => exact ⟨h.kept, h.writes, h.served⟩
  | delete partition =>
    rw [Session.step]
    split
    · exact h
    · exact h.change (Engine.follows_delete _ session.engine partition)

/-- All that is kept after many steps was fetched, or was there at the start. -/
theorem Traced.run (h : session.Traced start) (steps : List Step) :
    (session.run steps).Traced start :=
  run_induction (motive := Traced start) (fun _ step h => h.step step) steps h

/-- **What is kept was fetched.** In every run of an engine over a store, whatever the network says
and in whatever order requests, background work, static assets and deletions come: a response under
a key of a partition was there at the start, or is one of success that the network gave to a request
with the method of the key, in upper case, and its address.  So over an empty store, whatever a
request is served from the store is a response of success that the network gave to a request of the
same method and address. -/
theorem kept_was_fetched (settings : CacheSettings) (store : Store) (steps : List Step) :
    let session := (ofEngine (.ofSettings settings store)).run steps
    (∀ partition key response, session.engine.store.get? partition key = some response →
      store.get? partition key = some response ∨ Fetched session.answers key response) ∧
    (store = .empty → ∀ request served, (request, .ok served) ∈ session.served →
      served.source = .cache →
      Fetched session.answers (.ofRequest request) served.response) := by
  intro session
  have hstart : (ofEngine (.ofSettings settings store)).Traced store :=
    ofEngine_traced (.ofSettings settings store) rfl
  have htraced : session.Traced store := hstart.run steps
  refine ⟨htraced.kept, ?_⟩
  rintro rfl request served hmem hsource
  rcases htraced.served request served hmem hsource with ⟨partition, hget⟩ | hfetched
  · cases hget
  · exact hfetched

/-- A request that the network answers once is served from the store when the network is lost, with
what the network said. -/
theorem kept_was_fetched_of_lost_network :
    let request : Request :=
      .get ⟨"http", "", "", some (.domain "a"), none, .segments ["metrics"], none, none⟩
    let response : Response := ⟨200, [("etag", "1")], [111, 107]⟩
    let session := (ofEngine (.ofSettings .initial .empty)).run [
      .serve .networkFirst request, .answer 0 (.ok response), .write 0,
      .serve .networkFirst request, .answer 0 (.error .timeout)]
    (request, .ok ⟨response, .cache⟩) ∈ session.served ∧
      Fetched session.answers (.ofRequest request) response := by
  intro request response session
  have hanswered : (request, some (⟨response, .cache⟩ : Served)) ∈
      session.served.map fun entry => (entry.1, entry.2.toOption) := by
    decide +kernel
  have hmem : (request, .ok ⟨response, .cache⟩) ∈ session.served := by
    obtain ⟨⟨asked, result⟩, hmem, heq⟩ := List.mem_map.mp hanswered
    obtain ⟨hasked, hresult⟩ := Prod.mk.inj heq
    cases result with
    | error cause => cases hresult
    | ok served =>
      have hserved : served = ⟨response, .cache⟩ := Option.some.inj hresult
      rw [← hasked, ← hserved]
      exact hmem
  exact ⟨hmem, (kept_was_fetched .initial .empty _).2 rfl request ⟨response, .cache⟩ hmem rfl⟩

end Session

end DropRoom.Cache
