import DropRoom.Cache.Serving

namespace DropRoom.Cache

/-!
# Runs of an engine

What can happen to an engine, in any order and whatever the network says: requests come in and are
answered, background work is done, static assets are fetched, and partitions of other versions are
deleted.

* `Session` — an engine with the requests that wait for the network, and all that was said so far;
* `Session.Step`, `Session.step`, `Session.run` — one thing that happens, and many in order;
* `Session.run_induction` — what every step keeps, a run keeps;
* `Session.assetSteps`, `InstallReport.ofAnswers` — the steps of an installation and its report,
  given what the network says;
* `Session.run_serve`, `Session.run_settle`, `Session.run_install` — to serve a request, to do all
  background work and to fetch static assets are runs.
-/

open Http (Request Response FetchError Network)

/-- An engine with what goes on around it. -/
structure Session where
  engine : Engine
  /-- The requests that wait for the network, with the way in which they are served. -/
  waiting : List (Strategy × Request)
  /-- All that the network has said, in order. -/
  answers : List (Request × Except FetchError Response)
  /-- All that requests were answered with, in order. -/
  served : List (Request × Except CacheError Served)

/-- One thing that can happen to an engine. -/
inductive Session.Step where
  /-- A request comes in. -/
  | serve (strategy : Strategy) (request : Request)
  /-- The network has answered a request that waits. -/
  | answer (index : Nat) (answer : Except FetchError Response)
  /-- A write is done. -/
  | write (index : Nat)
  /-- The network has answered a refresh. -/
  | refresh (index : Nat) (answer : Except FetchError Response)
  /-- The network has answered a request for a static asset. -/
  | asset (url : Url) (answer : Except FetchError Response)
  | activate
  /-- A lookup that is under way finds a response in the partition that it asks now. -/
  | find (strategy : Strategy) (request : Request) (partition : String)
  /-- A lookup that was under way has found nothing, and the request goes to the network. -/
  | miss (strategy : Strategy) (request : Request)
  /-- A deletion of other versions that is under way comes to a partition. -/
  | delete (partition : String)

namespace Session

/-- An engine to which nothing has happened. -/
def ofEngine (engine : Engine) : Session :=
  ⟨engine, [], [], []⟩

/-- A request is answered. -/
def respond (session : Session) (request : Request) (result : Except CacheError Served)
    (engine : Engine) : Session :=
  { session with engine := engine, served := session.served ++ [(request, result)] }

/-- A request goes to the network. -/
def await (session : Session) (strategy : Strategy) (request : Request) : Session :=
  { session with waiting := session.waiting ++ [(strategy, request)] }

/-- The network says something. -/
def hear (session : Session) (request : Request) (answer : Except FetchError Response) : Session :=
  { session with answers := session.answers ++ [(request, answer)] }

/-- The engine after a kept response was found: only what is looked up first is refreshed. -/
def afterHit (engine : Engine) (strategy : Strategy) (request : Request) : Engine :=
  match strategy with
  | .cacheFirst => engine.refreshLater request
  | .networkFirst => engine
  | .networkFirstWithFallback => engine

/-- What a session is after a step.  A step that names nothing that is there changes nothing. -/
def step (session : Session) : Step → Session
  | .serve strategy request =>
    match session.engine.begin strategy request with
    | (some served, engine) => session.respond request (.ok served) engine
    | (none, engine) => { session with engine := engine }.await strategy request
  | .answer index answer =>
    match session.waiting[index]? with
    | none => session
    | some (strategy, request) =>
      let (result, engine) := session.engine.complete strategy request answer
      { session.hear request answer with waiting := session.waiting.eraseIdx index }
        |>.respond request result engine
  | .write index => { session with engine := session.engine.finishWrite index }
  | .refresh index answer =>
    match session.engine.refreshes[index]? with
    | none => session
    | some request =>
      { session.hear request answer with engine := session.engine.finishRefresh index answer }
  | .asset url answer =>
    { session.hear (.get url) answer with engine := (session.engine.keepAsset url answer).2 }
  | .activate => { session with engine := session.engine.activate.2 }
  | .find strategy request partition =>
    match session.engine.store.get? partition (.ofRequest request) with
    | none => session
    | some response =>
      session.respond request (.ok ⟨response, .cache⟩) (afterHit session.engine strategy request)
  | .miss strategy request => session.await strategy request
  | .delete partition =>
    if session.engine.isCurrent partition then session
    else
      { session with engine :=
          { session.engine with store := (session.engine.store.deletePartition partition).2 } }

/-- What a session is after steps in order. -/
def run (session : Session) (steps : List Step) : Session :=
  steps.foldl step session

@[simp] theorem run_nil (session : Session) : session.run [] = session := rfl

@[simp] theorem run_cons (session : Session) (step : Step) (steps : List Step) :
    session.run (step :: steps) = (session.step step).run steps := rfl

/-- Steps are taken one after another. -/
theorem run_append (session : Session) (before after : List Step) :
    session.run (before ++ after) = (session.run before).run after :=
  List.foldl_append

/-- What every step keeps, a run keeps. -/
theorem run_induction {motive : Session → Prop}
    (step : ∀ session s, motive session → motive (session.step s)) (steps : List Step)
    {session : Session} (h : motive session) : motive (session.run steps) := by
  induction steps generalizing session with
  | nil => exact h
  | cons s steps ih => exact ih (step session s h)

end Session

/-! ### Installations -/

/-- Whether a static asset is kept, given what the network says of it. -/
def isKept : Except FetchError Response → Bool
  | .ok response => response.isSuccess
  | .error _ => false

/-- An asset is kept if the network answers with success, and otherwise nothing happens. -/
theorem Engine.keepAsset_cases (e : Engine) (url : Url) (answer : Except FetchError Response) :
    (∃ response, answer = .ok response ∧ response.isSuccess = true ∧
      e.keepAsset url answer =
        (true, e.persist e.staticPartition (.ofRequest (.get url)) response)) ∨
    (isKept answer = false ∧ e.keepAsset url answer = (false, e)) := by
  cases answer with
  | error cause => exact .inr ⟨rfl, rfl⟩
  | ok response =>
    cases hsuccess : response.isSuccess with
    | true => exact .inl ⟨response, rfl, hsuccess, by rw [keepAsset, if_pos hsuccess]⟩
    | false => exact .inr ⟨hsuccess, by rw [keepAsset, hsuccess]; rfl⟩

/-- An asset is reported as kept exactly if it is. -/
theorem Engine.keepAsset_fst (e : Engine) (url : Url) (answer : Except FetchError Response) :
    (e.keepAsset url answer).1 = isKept answer := by
  rcases e.keepAsset_cases url answer with ⟨response, rfl, hsuccess, hkept⟩ | ⟨hnot, hkept⟩
  · rw [hkept]
    exact hsuccess.symm
  · rw [hkept, hnot]

/-- What an installation reports, given what the network says of the assets. -/
def InstallReport.ofAnswers (answers : List (Url × Except FetchError Response)) : InstallReport :=
  answers.foldr (fun entry others => others.report entry.1 (isKept entry.2)) .empty

namespace Session

/-- The steps of an installation, given what the network says of the assets. -/
def assetSteps (answers : List (Url × Except FetchError Response)) : List Step :=
  answers.map fun entry => .asset entry.1 entry.2

/-! ### Serving over a network -/

variable {ν : Type}

/-- To serve a request is a run: it comes in, and the network answers it.  Afterwards the same
requests wait as before. -/
theorem run_serve (session : Session) (network : Network ν) (strategy : Strategy)
    (request : Request) (s : ν) :
    ∃ steps, (∀ step ∈ steps, step = .serve strategy request ∨
        ∃ index answer, step = .answer index answer) ∧
      (session.run steps).waiting = session.waiting ∧
      (session.run steps).engine = (session.engine.serve network strategy request s).2.1 ∧
      (session.run steps).served =
        session.served ++ [(request, (session.engine.serve network strategy request s).1)] := by
  rcases hbegin : session.engine.begin strategy request with ⟨_ | served, engine⟩
  · -- the request waits at the end of the list, and is answered there
    refine ⟨[.serve strategy request,
      .answer session.waiting.length (network.fetch request s).1], by simp, ?_⟩
    have hlast : (session.waiting ++ [(strategy, request)])[session.waiting.length]? =
        some (strategy, request) := by simp
    have herase : (session.waiting ++ [(strategy, request)]).eraseIdx session.waiting.length =
        session.waiting := by simp [List.eraseIdx_append_of_length_le]
    simp only [run_cons, run_nil, step, hbegin, await, hlast, respond, hear, herase]
    simp [Engine.serve, hbegin]
  · refine ⟨[.serve strategy request], by simp, ?_⟩
    simp [step, hbegin, Engine.serve, respond]

/-- A step that finishes a refresh is what the engine does then. -/
theorem engine_step_refresh (session : Session) (index : Nat)
    (answer : Except FetchError Response) :
    (session.step (.refresh index answer)).engine =
      session.engine.finishRefresh index answer := by
  rw [step]
  cases hrequest : session.engine.refreshes[index]? with
  | none => simp [Engine.finishRefresh, hrequest]
  | some request => rfl

/-- All writes are done as so many steps. -/
theorem run_writes (writes : List Write) (session : Session) :
    (session.run (writes.map fun _ => .write 0)).engine =
      writes.foldl (fun e _ => e.finishWrite 0) session.engine := by
  induction writes generalizing session with
  | nil => rfl
  | cons write writes ih => exact ih (session.step (.write 0))

/-- So are all refreshes, each with what the network answers. -/
theorem run_refreshes (network : Network ν) (requests : List Request) (session : Session)
    (s : ν) :
    ∃ answers : List (Except FetchError Response),
      (session.run (answers.map (.refresh 0))).engine =
        (Engine.settleRefreshes network requests session.engine s).1 := by
  induction requests generalizing session s with
  | nil => exact ⟨[], rfl⟩
  | cons request requests ih =>
    obtain ⟨answers, hanswers⟩ :=
      ih (session.step (.refresh 0 (network.fetch request s).1)) (network.fetch request s).2
    refine ⟨(network.fetch request s).1 :: answers, ?_⟩
    rw [List.map_cons, run_cons, hanswers, engine_step_refresh]
    rfl

/-- To do all background work is a run: the writes are done, and the network answers the
refreshes. -/
theorem run_settle (session : Session) (network : Network ν) (s : ν) :
    ∃ answers : List (Except FetchError Response),
      (session.run (session.engine.writes.map (fun _ => .write 0) ++
        answers.map (.refresh 0))).engine = (session.engine.settle network s).1 := by
  have hwrites := run_writes session.engine.writes session
  obtain ⟨answers, hanswers⟩ := run_refreshes network session.engine.settleWrites.refreshes
    (session.run (session.engine.writes.map fun _ => .write 0)) s
  refine ⟨answers, ?_⟩
  rw [run_append, hanswers, hwrites]
  rfl

/-- To fetch static assets is a run, and what is reported is what the network says of them. -/
theorem run_install (network : Network ν) (urls : List Url) (session : Session) (s : ν) :
    ∃ answers, answers.map Prod.fst = urls ∧
      (session.run (assetSteps answers)).engine =
        (Engine.install network urls session.engine s).2.1 ∧
      (Engine.install network urls session.engine s).1 = .ofAnswers answers := by
  induction urls generalizing session s with
  | nil => exact ⟨[], rfl, rfl, rfl⟩
  | cons url urls ih =>
    obtain ⟨answers, hurls, hengine, hreport⟩ :=
      ih (session.step (.asset url (network.fetch (.get url) s).1)) (network.fetch (.get url) s).2
    refine ⟨(url, (network.fetch (.get url) s).1) :: answers, by rw [List.map_cons, hurls], hengine,
      ?_⟩
    show InstallReport.report url (session.engine.keepAsset url _).1
      (Engine.install network urls _ _).1 = (InstallReport.ofAnswers answers).report url (isKept _)
    rw [Engine.keepAsset_fst, ← hreport]
    rfl

end Session

end DropRoom.Cache
