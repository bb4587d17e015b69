import DropRoom.Proofs.Cache.Lookup
import DropRoom.Proofs.Cache.Retention
import DropRoom.Proofs.Cache.Revalidation
import DropRoom.Proofs.Cache.Versions

namespace DropRoom.Cache

/-!
# Kept responses that are renewed

A refresh writes to the static partition, wherever the response that it renews was found.  It takes
effect because the static partition is asked first.

* `Session.Step.WritesTo` — the keys that a step writes to;
* `Session.searchOrder_step` — what a step does to the order in which partitions are asked;
* `Engine.FoundIn.step` — a response is found where it was as long as neither concerns it;
* `Session.Throughout` — what holds of each step of a run at its moment;
* `Session.Offers` — a response is what requests of a key are answered with;
* `Session.renewed_by_refresh` — what is found after a refresh has ended.
-/

open Http (FetchError Request Response)

namespace Session

/-! ### What a step does to the store -/

variable {session : Session} {step : Step} {name : String} {key : Key} {response : Response}
  {request : Request}

/-- A step writes some response under a key. -/
def Step.WritesTo (session : Session) (key : Key) (step : Step) : Prop :=
  ∃ response, step.Writes session key response

/-- What a step neither writes to nor deletes stays as it is. -/
theorem StoreAfter.get?_eq {store : Store} (h : session.StoreAfter step store)
    (hwrites : ¬ step.WritesTo session key) (hdeletes : ¬ step.Deletes session name) :
    store.get? name key = session.engine.store.get? name key := by
  cases h with
  | same => rfl
  | put partition other response hother =>
    have hkey : other ≠ key := fun hsame => hwrites ⟨response, hsame ▸ hother⟩
    rw [Store.get?_put, if_neg fun h => hkey h.2]
  | delete names hnames =>
    rw [Engine.get?_deletePartitions, if_neg fun hmem => hdeletes (hnames name hmem)]

/-- A partition without a response under a key that a step does not write to gets none. -/
theorem StoreAfter.get?_eq_none {store : Store} (h : session.StoreAfter step store)
    (hwrites : ¬ step.WritesTo session key) (hnone : session.engine.store.get? name key = none) :
    store.get? name key = none := by
  cases h with
  | same => exact hnone
  | put partition other response hother =>
    have hkey : other ≠ key := fun hsame => hwrites ⟨response, hsame ▸ hother⟩
    rwa [Store.get?_put, if_neg fun h => hkey h.2]
  | delete names hnames => rw [Engine.get?_deletePartitions, hnone, ite_self]

/-- The names of partitions that are no longer there are left out of their order, and new ones come
last. -/
theorem StoreAfter.partitions_eq {store : Store} (h : session.StoreAfter step store) :
    ∃ names more : List String, (∀ name ∈ names, step.Deletes session name) ∧
      store.partitions = (session.engine.store.partitions.filter fun name => name ∉ names) ++ more := by
  cases h with
  | same => exact ⟨[], [], fun _ hmem => absurd hmem List.not_mem_nil, by simp⟩
  | put partition other response hother =>
    rw [Store.partitions_put]
    split
    · exact ⟨[], [], fun _ hmem => absurd hmem List.not_mem_nil, by simp⟩
    · exact ⟨[], [partition], fun _ hmem => absurd hmem List.not_mem_nil, by simp⟩
  | delete names hnames =>
    exact ⟨names, [], hnames, by rw [Engine.partitions_deletePartitions, List.append_nil]⟩

/-- So the order of a lookup has the same partitions in the same order, but for those that are no
longer there, and new ones come last. -/
theorem searchOrder_step (session : Session) (step : Step) :
    ∃ names more : List String, (∀ name ∈ names, step.Deletes session name) ∧
      (session.step step).engine.searchOrder =
        (session.engine.searchOrder.filter fun name => name ∉ names) ++ more := by
  obtain ⟨names, more, hnames, hpartitions⟩ := (session.storeAfter_step step).partitions_eq
  obtain ⟨hstatic, hruntime, _, _, _⟩ := Engine.SetUp.mk.inj (session.setUp_step step)
  have hcurrent := Engine.isCurrent_of_setUp_eq (session.setUp_step step)
  have hkept {name : String} (hname : session.engine.isCurrent name = true) : name ∉ names := by
    intro hmem
    rw [(hnames name hmem).not_isCurrent] at hname
    cases hname
  refine ⟨names, more.filter fun name => !session.engine.isCurrent name, hnames, ?_⟩
  rw [Engine.searchOrder, hstatic, hruntime, hcurrent, hpartitions, Engine.searchOrder,
    List.filter_append, List.filter_cons_of_pos, List.filter_cons_of_pos, List.filter_filter,
    List.filter_filter]
  · simp only [Bool.and_comm, List.cons_append]
  · exact decide_eq_true (hkept (by simp [Engine.isCurrent]))
  · exact decide_eq_true (hkept (by simp [Engine.isCurrent]))

end Session

/-- A response is found where it was, unless a step writes to its key or deletes its partition. -/
theorem Engine.FoundIn.step {session : Session} {step : Session.Step} {name : String} {key : Key}
    {response : Response} (h : session.engine.FoundIn name key response)
    (hwrites : ¬ step.WritesTo session key) (hdeletes : ¬ step.Deletes session name) :
    (session.step step).engine.FoundIn name key response := by
  obtain ⟨hget, before, after, horder, hbefore⟩ := h
  have hafter := session.storeAfter_step step
  obtain ⟨names, more, hnames, horder'⟩ := session.searchOrder_step step
  have hname : name ∉ names := fun hmem => hdeletes (hnames name hmem)
  have hfilter : (name :: after).filter (fun name => name ∉ names) =
      name :: after.filter fun name => name ∉ names :=
    List.filter_cons_of_pos (decide_eq_true hname)
  refine ⟨(hafter.get?_eq hwrites hdeletes).trans hget,
    before.filter (fun name => name ∉ names), after.filter (fun name => name ∉ names) ++ more, ?_,
    fun other hother => hafter.get?_eq_none hwrites (hbefore other (List.mem_filter.mp hother).1)⟩
  rw [horder', horder, List.filter_append, hfilter, List.append_assoc, List.cons_append]

/-- A refresh that the network has a response to puts it where it is found first. -/
theorem Engine.get?_finishRefresh {e : Engine} (hwritable : e.writable = true) {index : Nat}
    {request : Request} (hrequest : e.refreshes[index]? = some request) {response : Response}
    (hsuccess : response.isSuccess) :
    (e.finishRefresh index (.ok response)).store.get? e.staticPartition (.ofRequest request) =
      some response := by
  have hstore : (e.finishRefresh index (.ok response)).store =
      (e.persist e.staticPartition (.ofRequest request) response).store := by
    rw [finishRefresh, hrequest]
    simp only [if_pos hsuccess]
  rw [hstore, get?_persist hwritable, if_pos ⟨rfl, rfl⟩]

/-- A refresh that the network has no response of success to leaves the store alone. -/
theorem Engine.store_finishRefresh (e : Engine) (index : Nat) {said : Except FetchError Response}
    (h : isKept said = false) : (e.finishRefresh index said).store = e.store := by
  rw [finishRefresh]
  split
  · rfl
  · cases said with
    | error cause => rfl
    | ok response =>
      have hsuccess : ¬ response.isSuccess = true := Bool.eq_false_iff.mp h
      simp only [if_neg hsuccess]

namespace Session

variable {session : Session} {steps : List Step} {name : String} {key : Key} {request : Request}
  {response : Response}

/-! ### Runs -/

/-- Each step of a run is one of a kind, at the moment at which it comes. -/
def Throughout (kind : Session → Step → Prop) (session : Session) (steps : List Step) : Prop :=
  ∀ before step after, steps = before ++ step :: after → kind (session.run before) step

/-- Of no steps, whatever is asked is true throughout. -/
theorem throughout_nil {kind : Session → Step → Prop} : session.Throughout kind [] := by
  intro before step after hsteps
  simp at hsteps

/-- It is so throughout a run if it is of the first step, and throughout the rest. -/
theorem throughout_cons {kind : Session → Step → Prop} {step : Step} :
    session.Throughout kind (step :: steps) ↔
      kind session step ∧ (session.step step).Throughout kind steps := by
  refine ⟨fun h => ⟨h [] step steps rfl, fun before next after hsteps => ?_⟩, fun h => ?_⟩
  · exact h (step :: before) next after (congrArg _ hsteps)
  · intro before next after hsteps
    cases before with
    | nil =>
      cases hsteps
      exact h.1
    | cons first before =>
      obtain ⟨rfl, rfl⟩ := List.cons.inj hsteps
      exact h.2 before next after rfl

/-- What steps of a kind keep, a run of such steps keeps. -/
theorem Throughout.induction {kind : Session → Step → Prop} {motive : Session → Prop}
    (step : ∀ session step, kind session step → motive session → motive (session.step step))
    (h : session.Throughout kind steps) (hstart : motive session) : motive (session.run steps) := by
  induction steps generalizing session with
  | nil => exact hstart
  | cons first steps ih =>
    obtain ⟨hfirst, hrest⟩ := throughout_cons.mp h
    exact ih hrest (step session first hfirst hstart)

/-- A response is found where it was as long as nothing writes to its key or deletes its partition. -/
theorem foundIn_run (hfound : session.engine.FoundIn name key response)
    (h : session.Throughout (fun now step => ¬ step.WritesTo now key ∧ ¬ step.Deletes now name) steps) :
    (session.run steps).engine.FoundIn name key response :=
  h.induction (motive := fun now => now.engine.FoundIn name key response)
    (fun _ _ hstep hnow => hnow.step hstep.1 hstep.2) hfound

/-- A response in the static partition is found as long as nothing writes to its key: this partition is
never deleted. -/
theorem foundIn_staticPartition_run
    (hfound : session.engine.FoundIn session.engine.staticPartition key response)
    (h : session.Throughout (fun now step => ¬ step.WritesTo now key) steps) :
    (session.run steps).engine.FoundIn (session.run steps).engine.staticPartition key response := by
  refine h.induction (motive := fun now =>
    now.engine.FoundIn now.engine.staticPartition key response) (fun now step hstep hnow => ?_) hfound
  have hdeletes : ¬ step.Deletes now now.engine.staticPartition := by
    intro hdeletes
    have hcurrent := hdeletes.not_isCurrent
    simp [Engine.isCurrent] at hcurrent
  have hstatic : (now.step step).engine.staticPartition = now.engine.staticPartition :=
    congrArg Engine.SetUp.staticPartition (now.setUp_step step)
  rw [hstatic]
  exact hnow.step hstep hdeletes

/-- A response is what a lookup of a key finds, and what the requests of the key are answered with that
take the store first. -/
def Offers (session : Session) (key : Key) (response : Response) : Prop :=
  session.engine.lookup key = some response ∧
    ∀ request, Key.ofRequest request = key →
      (session.step (.serve .cacheFirst request)).served =
        session.served ++ [(request, .ok ⟨response, .cache⟩)]

/-- What a lookup finds is what the requests of the key are offered. -/
theorem offers_of_lookup (h : session.engine.lookup key = some response) :
    session.Offers key response := by
  refine ⟨h, ?_⟩
  rintro request rfl
  exact served_step_serve (by rw [Engine.begin, h])

/-- So is what is found in a partition. -/
theorem offers_of_foundIn (hreadable : session.engine.readable = true)
    (h : session.engine.FoundIn name key response) : session.Offers key response :=
  offers_of_lookup ((Engine.lookup_eq_some_iff hreadable).mpr ⟨name, h⟩)

/-- A hit leaves a refresh of its key that has not ended. -/
theorem mem_unfinished_of_hit (h : session.engine.Marked)
    (hhit : session.engine.lookup (.ofRequest request) = some response) :
    Key.ofRequest request ∈ (session.step (.serve .cacheFirst request)).engine.unfinished := by
  have hhit' : session.hit? (.step (.serve .cacheFirst request)) = some request := by
    simp [hit?, hhit]
  have hledger := ledger_after_of_hit hhit'
  show _ ∈ (session.after (.step (.serve .cacheFirst request))).engine.unfinished
  rw [Engine.unfinished_eq_of_ledger_eq hledger, Engine.unfinished, h.refreshes_refreshLater]
  split
  · assumption
  · simp

/-- A refresh that the network has a response of success to: it is in the static partition, which is
asked first and never deleted. -/
theorem offers_of_success (hreadable : session.engine.readable = true)
    (hwritable : session.engine.writable = true) {index : Nat}
    (hasked : session.engine.refreshes[index]? = some request) (hsuccess : response.isSuccess)
    (h : (session.step (.refresh index (.ok response))).Throughout
      (fun now step => ¬ step.WritesTo now (.ofRequest request)) steps) :
    let last := (session.step (.refresh index (.ok response))).run steps
    last.engine.store.get? session.engine.staticPartition (.ofRequest request) = some response ∧
      last.Offers (.ofRequest request) response := by
  intro last
  have hstatic : last.engine.staticPartition = session.engine.staticPartition :=
    congrArg Engine.SetUp.staticPartition
      (session.setUp_run (.refresh index (.ok response) :: steps))
  have hread : last.engine.readable = session.engine.readable :=
    congrArg Engine.SetUp.readable (session.setUp_run (.refresh index (.ok response) :: steps))
  have hsame : (session.step (.refresh index (.ok response))).engine.staticPartition =
      session.engine.staticPartition := congrArg Engine.SetUp.staticPartition (session.setUp_step _)
  have hput := Engine.get?_finishRefresh hwritable hasked hsuccess
  rw [← engine_step_refresh, ← hsame] at hput
  have hfound := foundIn_staticPartition_run (Engine.foundIn_staticPartition hput) h
  refine ⟨?_, offers_of_foundIn (hread.trans hreadable) hfound⟩
  rw [← hstatic]
  exact hfound.1

/-- **Renewal.** In every state that an engine over any store can come to: a request that finds a kept
response is answered with it, and there is a refresh of its key then.  When the network has a response
of success for this refresh, it is what the static partition has, and what every lookup finds and every
request is answered with that takes the store first, from then on and as long as nothing else is written
under the key, whatever else happens.  When the network has none, the store is as it was, and the old
response is found as long as nothing is written under the key and the partition that it was found in is
not deleted with those of other versions. -/
theorem renewed_by_refresh (settings : CacheSettings) (store : Store) (earlier : List Step)
    {request : Request} {old : Response}
    (hhit : ((ofEngine (.ofSettings settings store)).run earlier).engine.lookup
      (.ofRequest request) = some old) :
    let session := (ofEngine (.ofSettings settings store)).run earlier
    let key := Key.ofRequest request
    let hit := session.step (.serve .cacheFirst request)
    hit.served = session.served ++ [(request, .ok ⟨old, .cache⟩)] ∧
    key ∈ hit.engine.unfinished ∧
    ∀ meanwhile index asked, (hit.run meanwhile).engine.refreshes[index]? = some asked →
      Key.ofRequest asked = key →
      let due := hit.run meanwhile
      (∀ response : Response, response.isSuccess →
        let ended := due.step (.refresh index (.ok response))
        ∀ later, ended.Throughout (fun now step => ¬ step.WritesTo now key) later →
          (ended.run later).engine.store.get? settings.staticPartition key = some response ∧
            (ended.run later).Offers key response) ∧
      (∀ said, isKept said = false →
        let ended := due.step (.refresh index said)
        ended.engine.store = due.engine.store ∧
        ∀ name later, session.engine.FoundIn name key old →
          hit.Throughout (fun now step => ¬ step.WritesTo now key ∧ ¬ step.Deletes now name)
            (meanwhile ++ .refresh index said :: later) →
          (ended.run later).Offers key old) := by
  intro session key hit
  -- whatever happens, the engine stays set up as it was
  have hsetUp (steps : List Step) : (hit.run steps).engine.setUp =
      (Engine.ofSettings settings store).setUp := by
    have hrun := (ofEngine (.ofSettings settings store)).setUp_run
      (earlier ++ .serve .cacheFirst request :: steps)
    rwa [run_append, run_cons] at hrun
  have hreadable (steps : List Step) : (hit.run steps).engine.readable = true :=
    congrArg Engine.SetUp.readable (hsetUp steps)
  have hmarked : session.engine.Marked :=
    run_induction (motive := fun now => now.engine.Marked) (fun _ step h => marked_after h (.step step))
      earlier ⟨rfl, List.nodup_nil⟩
  refine ⟨(offers_of_lookup hhit).2 request rfl, mem_unfinished_of_hit hmarked hhit, ?_⟩
  intro meanwhile index asked hasked hkey due
  refine ⟨?_, ?_⟩
  · intro response hsuccess ended later hlater
    have hstatic : due.engine.staticPartition = settings.staticPartition :=
      congrArg Engine.SetUp.staticPartition (hsetUp meanwhile)
    have hwritable : due.engine.writable = true := congrArg Engine.SetUp.writable (hsetUp meanwhile)
    rw [← hkey] at hlater ⊢
    rw [← hstatic]
    exact offers_of_success (hreadable meanwhile) hwritable hasked hsuccess hlater
  · intro said hsaid ended
    have hstore : ended.engine.store = due.engine.store := by
      show (due.step _).engine.store = _
      rw [engine_step_refresh]
      exact due.engine.store_finishRefresh index hsaid
    refine ⟨hstore, ?_⟩
    -- nothing that concerns the old response has happened since the hit
    intro name later hold hquiet
    have hfound : hit.engine.FoundIn name key old := hold.step (fun ⟨_, hwrites⟩ => hwrites) id
    have hrun : ended.run later = hit.run (meanwhile ++ .refresh index said :: later) := by
      rw [run_append, run_cons]
    rw [hrun]
    exact offers_of_foundIn (hreadable _) (foundIn_run hfound hquiet)

/-- A response of an older version is found, and is renewed: the new one is what is offered even when
the old partition has been deleted.  A refresh that fails leaves the old one. -/
theorem renewed_by_refresh_of_old_version :
    let request : Request :=
      .get ⟨"http", "", "", some (.domain "a"), none, .segments ["create.html"], none, none⟩
    let key := Key.ofRequest request
    let old : Response := ⟨200, [], [1]⟩
    let new : Response := ⟨200, [], [2]⟩
    let session := ofEngine (.ofSettings .initial (Store.empty.put "eventdrop-v0" key old))
    let hit := session.step (.serve .cacheFirst request)
    session.engine.lookup key = some old ∧ hit.served = [(request, .ok ⟨old, .cache⟩)] ∧
      ((hit.step (.refresh 0 (.ok new))).run [.activate]).Offers key new ∧
      (hit.step (.refresh 0 (.error .timeout))).Offers key old := by
  intro request key old new session hit
  have hhit : session.engine.lookup key = some old := by decide
  obtain ⟨hserved, -, hrefreshed⟩ := renewed_by_refresh .initial
    (Store.empty.put "eventdrop-v0" key old) [] hhit
  obtain ⟨hrenewed, hfailed⟩ := hrefreshed [] 0 request (by decide) rfl
  have hactivate : (hit.step (.refresh 0 (.ok new))).Throughout
      (fun now step => ¬ step.WritesTo now key) [.activate] :=
    throughout_cons.mpr ⟨fun ⟨_, hwrites⟩ => hwrites, throughout_nil⟩
  have hold : session.engine.FoundIn "eventdrop-v0" key old :=
    ⟨by decide, ["eventdrop-static-v1", "eventdrop-v1"], [], by decide, by decide⟩
  have hquiet : hit.Throughout
      (fun now step => ¬ step.WritesTo now key ∧ ¬ step.Deletes now "eventdrop-v0")
      [.refresh 0 (.error .timeout)] :=
    throughout_cons.mpr ⟨⟨(fun ⟨_, hwrites⟩ => nomatch hwrites.1), id⟩, throughout_nil⟩
  have hnew := (hrenewed new (by decide) [.activate] hactivate).2
  have hkept := (hfailed (.error .timeout) rfl).2 "eventdrop-v0" [] hold hquiet
  simp only [run_nil] at hserved hnew hkept
  exact ⟨hhit, hserved, hnew, hkept⟩

end Session

end DropRoom.Cache
