import DropRoom.Proofs.Cache.Run

namespace DropRoom.Cache

/-!
# What an engine is set up with

The names of the current partitions, the addresses that get a notice, and whether the store works
are given once.  Nothing that happens to an engine changes them.

* `Engine.setUp` — what an engine was set up with;
* `Session.setUp_step`, `Session.setUp_run` — it stays as it is;
* `Engine.SetUpBy` — that it was set up with the names and tables of settings.
-/

open Http (Request Response FetchError Network)

/-- What an engine is set up with. -/
structure Engine.SetUp where
  staticPartition : String
  runtimePartition : String
  noticePaths : List Matcher
  readable : Bool
  writable : Bool

namespace Engine

/-- What an engine was set up with. -/
def setUp (e : Engine) : SetUp :=
  ⟨e.staticPartition, e.runtimePartition, e.noticePaths, e.readable, e.writable⟩

/-! ### Operations of the engine -/

variable (e : Engine)

/-- To keep a response leaves the engine set up as it was; so do all other operations on it. -/
@[simp] theorem setUp_persist (partition : String) (key : Key) (response : Response) :
    (e.persist partition key response).setUp = e.setUp := by
  rw [persist]
  split
  · rfl
  · rfl

@[simp] theorem setUp_persistLater (partition : String) (key : Key) (response : Response) :
    (e.persistLater partition key response).setUp = e.setUp := by
  rw [persistLater]
  split
  · rfl
  · rfl

@[simp] theorem setUp_refreshLater (request : Request) :
    (e.refreshLater request).setUp = e.setUp := by
  rw [refreshLater]
  split
  · rfl
  · rfl

@[simp] theorem setUp_finishWrite (index : Nat) : (e.finishWrite index).setUp = e.setUp := by
  rw [finishWrite]
  split
  · rfl
  · rw [setUp_persist]
    rfl

@[simp] theorem setUp_finishRefresh (index : Nat) (answer : Except FetchError Response) :
    (e.finishRefresh index answer).setUp = e.setUp := by
  rw [finishRefresh]
  split
  · rfl
  · rename_i request _
    cases answer with
    | error cause => rfl
    | ok response =>
      show (if response.isSuccess then
          e.persist e.staticPartition (.ofRequest request) response else e).setUp = e.setUp
      split
      · exact setUp_persist e _ _ _
      · rfl

@[simp] theorem setUp_begin (strategy : Strategy) (request : Request) :
    (e.begin strategy request).2.setUp = e.setUp := by
  cases strategy with
  | cacheFirst =>
    rw [begin]
    split
    · exact setUp_refreshLater e request
    · rfl
  | networkFirst => rfl
  | networkFirstWithFallback => rfl

@[simp] theorem setUp_complete (strategy : Strategy) (request : Request)
    (answer : Except FetchError Response) :
    (e.complete strategy request answer).2.setUp = e.setUp := by
  cases answer with
  | error cause => rfl
  | ok response =>
    rw [complete]
    cases e.partitionOf? strategy with
    | none => rfl
    | some partition => exact setUp_persistLater e partition _ response

@[simp] theorem setUp_keepAsset (url : Url) (answer : Except FetchError Response) :
    (e.keepAsset url answer).2.setUp = e.setUp := by
  rcases e.keepAsset_cases url answer with ⟨response, _, _, hkept⟩ | ⟨_, hkept⟩
  · rw [hkept]
    exact setUp_persist e _ _ response
  · rw [hkept]

end Engine

namespace Session

/-! ### Sessions -/

/-- What happens to an engine leaves it set up as it was. -/
theorem setUp_step (session : Session) (step : Step) :
    (session.step step).engine.setUp = session.engine.setUp := by
  cases step with
  | serve strategy request =>
    have hbegin := session.engine.setUp_begin strategy request
    rw [Session.step]
    split
    · rename_i heq
      rwa [heq] at hbegin
    · rename_i heq
      rwa [heq] at hbegin
  | answer index answer =>
    rw [Session.step]
    split
    · rfl
    · exact Engine.setUp_complete session.engine _ _ answer
  | write index => exact session.engine.setUp_finishWrite index
  | refresh index answer =>
    rw [engine_step_refresh]
    exact session.engine.setUp_finishRefresh index answer
  | asset url answer => exact session.engine.setUp_keepAsset url answer
  | activate => rfl
  | find strategy request partition =>
    rw [Session.step]
    split
    · rfl
    · cases strategy with
      | cacheFirst => exact session.engine.setUp_refreshLater request
      | networkFirst => rfl
      | networkFirstWithFallback => rfl
  | miss strategy request => rfl
  | delete partition =>
    rw [Session.step]
    split
    · rfl
    · rfl

/-- **Set up for good.** Whatever happens to an engine, it stays set up as it was. -/
theorem setUp_run (session : Session) (steps : List Step) :
    (session.run steps).engine.setUp = session.engine.setUp :=
  run_induction (motive := fun now => now.engine.setUp = session.engine.setUp)
    (fun now step h => (now.setUp_step step).trans h) steps rfl

end Session

namespace Engine

variable {ν : Type}

/-! ### Installation -/

/-- To fetch static assets is a run, so it leaves an engine set up as it was. -/
theorem setUp_install (network : Network ν) (urls : List Url) (e : Engine) (s : ν) :
    (install network urls e s).2.1.setUp = e.setUp := by
  obtain ⟨answers, _, hengine, _⟩ := (Session.ofEngine e).run_install network urls s
  have hrun := (Session.ofEngine e).setUp_run (Session.assetSteps answers)
  rwa [hengine] at hrun

/-! ### Settings -/

/-- An engine has the partitions and the notices of settings. -/
structure SetUpBy (settings : CacheSettings) (e : Engine) : Prop where
  staticPartition : e.staticPartition = settings.staticPartition
  runtimePartition : e.runtimePartition = settings.runtimePartition
  noticePaths : e.noticePaths = (settings.offlinePaths ++ settings.apiPatterns).map .pathContains

/-- An engine of settings is set up by them. -/
theorem ofSettings_setUpBy (settings : CacheSettings) (store : Store) :
    (ofSettings settings store).SetUpBy settings :=
  ⟨rfl, rfl, rfl⟩

/-- It stays so as long as it stays set up as it was. -/
theorem SetUpBy.of_setUp_eq {settings : CacheSettings} {e e' : Engine} (h : e.SetUpBy settings)
    (heq : e'.setUp = e.setUp) : e'.SetUpBy settings := by
  obtain ⟨hstatic, hruntime, hnotices, _, _⟩ := SetUp.mk.inj heq
  exact ⟨hstatic.trans h.staticPartition, hruntime.trans h.runtimePartition,
    hnotices.trans h.noticePaths⟩

/-- The two current partitions have different names. -/
theorem SetUpBy.partitions_ne {settings : CacheSettings} {e : Engine} (h : e.SetUpBy settings) :
    e.staticPartition ≠ e.runtimePartition := by
  rw [h.staticPartition, h.runtimePartition]
  intro heq
  have hstatic : settings.staticPartition.length = 17 + settings.version.length :=
    String.length_append "eventdrop-static-" settings.version
  have hruntime : settings.runtimePartition.length = 10 + settings.version.length :=
    String.length_append "eventdrop-" settings.version
  rw [heq] at hstatic
  omega

end Engine

end DropRoom.Cache
