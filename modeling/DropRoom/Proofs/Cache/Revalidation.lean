import DropRoom.Proofs.Cache.Run
import Mathlib.Data.List.InsertIdx
import Mathlib.Data.List.Nodup

namespace DropRoom.Cache

/-!
# Refreshes of kept responses

A kept response that answers a request is refreshed in the background.  The engine marks the keys of
such refreshes, so that hits that come while one is under way do not begin another.

* `Engine.unfinished` — the keys whose refreshes have not ended, and `Engine.Marked`, that they are
  the marked ones and no key is among them twice;
* `Session.Moment`, `Session.after`, `Session.through` — what happens to an engine whose store may
  change or fail at any time;
* `Session.hit?` — the request that is answered from the store where the store is asked first;
* `Session.NoHit` — that no such request of a key comes;
* `Session.refreshed_once_at_a_time` — which hits begin a refresh, and how refreshes end.
-/

open Http (Request Response FetchError)

namespace Engine

/-- The keys whose refreshes have not ended. -/
def unfinished (e : Engine) : List Key :=
  e.refreshes.map Key.ofRequest

/-- The marked keys are those whose refreshes have not ended, and none is among them twice. -/
structure Marked (e : Engine) : Prop where
  marks : e.refreshing = e.unfinished
  nodup : e.unfinished.Nodup

/-- What an engine knows of refreshes: the marked keys, and the requests of the refreshes that have
not ended. -/
def ledger (e : Engine) : List Key × List Request :=
  (e.refreshing, e.refreshes)

variable {e e' : Engine}

/-- The ledger has all refreshes. -/
theorem refreshes_eq_of_ledger_eq (h : e'.ledger = e.ledger) : e'.refreshes = e.refreshes :=
  congrArg Prod.snd h

/-- It also has those that are not finished. -/
theorem unfinished_eq_of_ledger_eq (h : e'.ledger = e.ledger) : e'.unfinished = e.unfinished := by
  rw [unfinished, refreshes_eq_of_ledger_eq h, unfinished]

/-- Whether marks and refreshes agree depends on the ledger alone. -/
theorem Marked.of_ledger_eq (h : e.Marked) (heq : e'.ledger = e.ledger) : e'.Marked := by
  have hmarks : e'.refreshing = e.refreshing := congrArg Prod.fst heq
  have hunfinished := unfinished_eq_of_ledger_eq heq
  exact ⟨by rw [hmarks, hunfinished, h.marks], hunfinished ▸ h.nodup⟩

/-! ### Operations that leave the refreshes alone -/

@[simp] theorem ledger_persist (e : Engine) (partition : String) (key : Key)
    (response : Response) : (e.persist partition key response).ledger = e.ledger := by
  rw [persist]
  split
  · rfl
  · rfl

@[simp] theorem ledger_finishWrite (e : Engine) (index : Nat) :
    (e.finishWrite index).ledger = e.ledger := by
  rw [finishWrite]
  split
  · rfl
  · rw [ledger_persist]
    rfl

@[simp] theorem ledger_complete (e : Engine) (strategy : Strategy) (request : Request)
    (answer : Except FetchError Response) :
    (e.complete strategy request answer).2.ledger = e.ledger := by
  cases answer with
  | error cause => rfl
  | ok response =>
    rw [complete]
    cases e.partitionOf? strategy with
    | none => rfl
    | some partition =>
      show (e.persistLater partition (.ofRequest request) response).ledger = e.ledger
      rw [persistLater]
      split
      · rfl
      · rfl

@[simp] theorem ledger_keepAsset (e : Engine) (url : Url) (answer : Except FetchError Response) :
    (e.keepAsset url answer).2.ledger = e.ledger := by
  rcases e.keepAsset_cases url answer with ⟨response, _, _, hkept⟩ | ⟨_, hkept⟩
  · rw [hkept]
    exact ledger_persist e _ _ response
  · rw [hkept]

/-! ### Beginning and ending a refresh -/

/-- A refresh begins unless one of the same key has not ended. -/
theorem Marked.refreshes_refreshLater (h : e.Marked) (request : Request) :
    (e.refreshLater request).refreshes =
      if Key.ofRequest request ∈ e.unfinished then e.refreshes else e.refreshes ++ [request] := by
  rw [refreshLater, h.marks]
  split
  · rfl
  · rfl

/-- A refresh is begun only where its key has no mark, and sets it. -/
theorem Marked.refreshLater (h : e.Marked) (request : Request) :
    (e.refreshLater request).Marked := by
  rw [Engine.refreshLater, h.marks]
  by_cases hmem : Key.ofRequest request ∈ e.unfinished
  · rw [if_pos hmem]
    exact h
  · rw [if_neg hmem]
    have happend : (e.refreshes ++ [request]).map Key.ofRequest =
        e.unfinished ++ [.ofRequest request] := List.map_append
    refine ⟨happend.symm, ?_⟩
    show ((e.refreshes ++ [request]).map Key.ofRequest).Nodup
    rw [happend]
    exact h.nodup.append (List.nodup_singleton _) (by simpa using hmem)

/-- Whatever the network says to a refresh, it ends, and its key is no longer marked. -/
theorem ledger_finishRefresh {index : Nat} {request : Request}
    (hrequest : e.refreshes[index]? = some request) (answer : Except FetchError Response) :
    (e.finishRefresh index answer).ledger =
      (e.refreshing.erase (.ofRequest request), e.refreshes.eraseIdx index) := by
  rw [finishRefresh, hrequest]
  cases answer with
  | error cause => rfl
  | ok response =>
    have hledger : (if response.isSuccess then
        e.persist e.staticPartition (.ofRequest request) response else e).ledger = e.ledger := by
      split
      · exact ledger_persist e _ _ _
      · rfl
    obtain ⟨hmarks, hrefreshes⟩ := Prod.mk.inj hledger
    show (List.erase _ _, List.eraseIdx _ _) = _
    rw [hmarks, hrefreshes]

/-- The keys that are left when a refresh ends are the others: no two refreshes have the same. -/
theorem Marked.unfinished_eraseIdx (h : e.Marked) {index : Nat} {request : Request}
    (hrequest : e.refreshes[index]? = some request) :
    (e.refreshes.eraseIdx index).map Key.ofRequest =
      e.unfinished.erase (.ofRequest request) := by
  have hkey : e.unfinished[index]? = some (.ofRequest request) := by
    rw [unfinished, List.getElem?_map, hrequest]
    rfl
  obtain ⟨hlt, hget⟩ := List.getElem?_eq_some_iff.mp hkey
  rw [← hget, h.nodup.erase_getElem index hlt, unfinished, List.eraseIdx_map]

/-- A refresh that is finished takes its mark away. -/
theorem Marked.finishRefresh (h : e.Marked) (index : Nat) (answer : Except FetchError Response) :
    (e.finishRefresh index answer).Marked := by
  cases hrequest : e.refreshes[index]? with
  | none =>
    have hsame : e.finishRefresh index answer = e := by rw [Engine.finishRefresh, hrequest]
    rw [hsame]
    exact h
  | some request =>
    obtain ⟨hmarks, hrefreshes⟩ := Prod.mk.inj (ledger_finishRefresh hrequest answer)
    have hleft : (e.finishRefresh index answer).unfinished =
        e.unfinished.erase (.ofRequest request) := by
      rw [unfinished, hrefreshes, h.unfinished_eraseIdx hrequest]
    refine ⟨?_, ?_⟩
    · rw [hmarks, hleft, h.marks]
    · rw [hleft]
      exact h.nodup.erase _

end Engine

namespace Session

/-! ### Moments -/

/-- What can happen at a moment to an engine whose store is used by others, too.  A refresh may so
have put its response there before it ends. -/
inductive Moment where
  | step (step : Step)
  /-- The store holds something else now, and may fail from now on or work again. -/
  | store (store : Store) (readable writable : Bool)

/-- What a session is after a moment. -/
def after (session : Session) : Moment → Session
  | .step step => session.step step
  | .store store readable writable =>
    { session with engine :=
        { session.engine with store := store, readable := readable, writable := writable } }

/-- What a session is after moments in order. -/
def through (session : Session) (moments : List Moment) : Session :=
  moments.foldl after session

/-- The request that a moment answers with a kept response where the store is asked first. -/
def hit? (session : Session) : Moment → Option Request
  | .step (.serve .cacheFirst request) =>
    if (session.engine.lookup (.ofRequest request)).isSome then some request else none
  | .step (.find .cacheFirst request partition) =>
    if (session.engine.store.get? partition (.ofRequest request)).isSome then some request else none
  | _ => none

/-- None of the moments is a hit on a key. -/
def NoHit (session : Session) (key : Key) (moments : List Moment) : Prop :=
  ∀ before moment later request, moments = before ++ moment :: later →
    (session.through before).hit? moment = some request → Key.ofRequest request ≠ key

variable {session : Session} {moment : Moment} {request : Request} {key : Key}

/-- A hit begins a refresh if the engine lets it. -/
theorem ledger_after_of_hit (h : session.hit? moment = some request) :
    (session.after moment).engine.ledger = (session.engine.refreshLater request).ledger := by
  unfold hit? at h
  split at h
  · rename_i asked
    split at h
    · rename_i hfound
      cases h
      obtain ⟨response, hlookup⟩ := Option.isSome_iff_exists.mp hfound
      have hbegin : session.engine.begin .cacheFirst request =
          (some ⟨response, .cache⟩, session.engine.refreshLater request) := by
        rw [Engine.begin, hlookup]
      simp only [after, step, hbegin, respond]
    · cases h
  · rename_i asked partition
    split at h
    · rename_i hfound
      cases h
      obtain ⟨response, hget⟩ := Option.isSome_iff_exists.mp hfound
      simp only [after, step, hget, respond, afterHit]
    · cases h
  · cases h

/-- What is neither a hit nor the end of a refresh leaves the refreshes alone. -/
theorem ledger_after_of_neither (hhit : session.hit? moment = none)
    (hend : ∀ index answer, moment ≠ .step (.refresh index answer)) :
    (session.after moment).engine.ledger = session.engine.ledger := by
  cases moment with
  | store store readable writable => rfl
  | step step =>
    show (session.step step).engine.ledger = _
    cases step with
    | serve strategy request =>
      cases strategy with
      | networkFirst => rfl
      | networkFirstWithFallback => rfl
      | cacheFirst =>
        -- without a hit there is nothing to be found
        have hnone : session.engine.lookup (.ofRequest request) = none := by
          simpa [hit?] using hhit
        simp only [Session.step, Engine.begin, hnone, await]
    | answer index answer =>
      rw [Session.step]
      split
      · rfl
      · exact session.engine.ledger_complete _ _ answer
    | write index => exact session.engine.ledger_finishWrite index
    | refresh index answer => exact absurd rfl (hend index answer)
    | asset url answer => exact session.engine.ledger_keepAsset url answer
    | activate => rfl
    | find strategy request partition =>
      rw [Session.step]
      split
      · rfl
      · rename_i response hget
        cases strategy with
        | networkFirst => rfl
        | networkFirstWithFallback => rfl
        | cacheFirst => simp [hit?, hget] at hhit
    | miss strategy request => rfl
    | delete partition =>
      rw [Session.step]
      split
      · rfl
      · rfl

/-- **What a moment keeps.** The marks stay those of the refreshes that have not ended. -/
theorem marked_after (h : session.engine.Marked) (moment : Moment) :
    (session.after moment).engine.Marked := by
  cases hhit : session.hit? moment with
  | some request => exact (h.refreshLater request).of_ledger_eq (ledger_after_of_hit hhit)
  | none =>
    by_cases hend : ∃ index answer, moment = .step (.refresh index answer)
    · obtain ⟨index, answer, rfl⟩ := hend
      show (session.step _).engine.Marked
      rw [engine_step_refresh]
      exact h.finishRefresh index answer
    · refine h.of_ledger_eq (ledger_after_of_neither hhit ?_)
      intro index answer heq
      exact hend ⟨index, answer, heq⟩

/-- Marks and refreshes agree at every moment. -/
theorem marked_through (h : session.engine.Marked) (moments : List Moment) :
    (session.through moments).engine.Marked := by
  induction moments generalizing session with
  | nil => exact h
  | cons moment moments ih => exact ih (marked_after h moment)

/-! ### Free keys -/

/-- A key without a refresh gets one from a hit on it only. -/
theorem free_after (h : session.engine.Marked) (hfree : key ∉ session.engine.unfinished)
    (hmoment : ∀ request, session.hit? moment = some request → Key.ofRequest request ≠ key) :
    key ∉ (session.after moment).engine.unfinished := by
  cases hhit : session.hit? moment with
  | some request =>
    rw [Engine.unfinished_eq_of_ledger_eq (ledger_after_of_hit hhit), Engine.unfinished,
      h.refreshes_refreshLater]
    split
    · exact hfree
    · rw [List.map_append, List.mem_append, not_or]
      refine ⟨hfree, ?_⟩
      simpa using (hmoment request hhit).symm
  | none =>
    by_cases hend : ∃ index answer, moment = .step (.refresh index answer)
    · obtain ⟨index, answer, rfl⟩ := hend
      show key ∉ (session.step _).engine.unfinished
      rw [engine_step_refresh]
      cases hrequest : session.engine.refreshes[index]? with
      | none => rwa [Engine.finishRefresh, hrequest]
      | some request =>
        -- the refresh that ends is one of another key
        have hrefreshes : (session.engine.finishRefresh index answer).refreshes =
            session.engine.refreshes.eraseIdx index :=
          congrArg Prod.snd (Engine.ledger_finishRefresh hrequest answer)
        intro hmem
        obtain ⟨left, hleft, hkey⟩ := List.mem_map.mp hmem
        refine hfree (List.mem_map.mpr ⟨left, ?_, hkey⟩)
        exact List.mem_of_mem_eraseIdx (hrefreshes ▸ hleft)
    · rw [Engine.unfinished_eq_of_ledger_eq (ledger_after_of_neither hhit ?_)]
      · exact hfree
      · intro index answer heq
        exact hend ⟨index, answer, heq⟩

/-- A key without a refresh has none as long as no hit on it comes. -/
theorem free_through (h : session.engine.Marked) (hfree : key ∉ session.engine.unfinished)
    {moments : List Moment} (hquiet : session.NoHit key moments) :
    key ∉ (session.through moments).engine.unfinished := by
  induction moments generalizing session with
  | nil => exact hfree
  | cons moment moments ih =>
    refine ih (marked_after h moment) (free_after h hfree ?_) ?_
    · intro request hhit
      exact hquiet [] moment moments request rfl hhit
    · intro before next later request hmoments hhit
      exact hquiet (moment :: before) next later request (congrArg _ hmoments) hhit

/-! ### One refresh at a time -/

/-- **One refresh at a time.** However the requests, the answers of the network and the changes of
the store follow each other, no key has two refreshes that have not ended, and their number is the
one that the engine tells.  A hit begins a refresh exactly if its key has none, and nothing else
begins one.  A refresh ends whatever the network says to it; then the next hit on its key begins
another. -/
theorem refreshed_once_at_a_time (settings : CacheSettings) (store : Store)
    (moments : List Moment) :
    let session := (ofEngine (.ofSettings settings store)).through moments
    let e := session.engine
    (∀ key, e.unfinished.count key ≤ 1) ∧
    e.refreshesInFlight = e.refreshes.length ∧
    (∀ moment request, session.hit? moment = some request →
      (session.after moment).engine.refreshes =
        if Key.ofRequest request ∈ e.unfinished then e.refreshes else e.refreshes ++ [request]) ∧
    (∀ moment, session.hit? moment = none →
      (∀ index answer, moment ≠ .step (.refresh index answer)) →
      (session.after moment).engine.refreshes = e.refreshes) ∧
    (∀ index request answer, e.refreshes[index]? = some request →
      let ended := session.after (.step (.refresh index answer))
      ended.engine.refreshes = e.refreshes.eraseIdx index ∧
      Key.ofRequest request ∉ ended.engine.unfinished ∧
      ∀ later moment next, ended.NoHit (.ofRequest request) later →
        (ended.through later).hit? moment = some next →
        Key.ofRequest next = .ofRequest request →
        ((ended.through later).after moment).engine.refreshes =
          (ended.through later).engine.refreshes ++ [next]) := by
  intro session e
  have hstart : (ofEngine (.ofSettings settings store)).engine.Marked := ⟨rfl, List.nodup_nil⟩
  -- the invariant: the marks are the keys of the refreshes that have not ended, each of them once
  have hmarked : e.Marked := marked_through hstart moments
  refine ⟨List.nodup_iff_count_le_one.mp hmarked.nodup, ?_, ?_, ?_, ?_⟩
  · rw [Engine.refreshesInFlight, hmarked.marks, Engine.unfinished, List.length_map]
  · intro moment request hhit
    rw [Engine.refreshes_eq_of_ledger_eq (ledger_after_of_hit hhit)]
    exact hmarked.refreshes_refreshLater request
  · intro moment hhit hend
    exact Engine.refreshes_eq_of_ledger_eq (ledger_after_of_neither hhit hend)
  · intro index request answer hrequest ended
    have hended : ended.engine = e.finishRefresh index answer :=
      engine_step_refresh session index answer
    have hrefreshes : ended.engine.refreshes = e.refreshes.eraseIdx index := by
      rw [hended]
      exact congrArg Prod.snd (Engine.ledger_finishRefresh hrequest answer)
    -- the mark is gone with its refresh, since no other refresh had it
    have hfree : Key.ofRequest request ∉ ended.engine.unfinished := by
      rw [Engine.unfinished, hrefreshes, hmarked.unfinished_eraseIdx hrequest]
      exact hmarked.nodup.not_mem_erase
    refine ⟨hrefreshes, hfree, ?_⟩
    intro later moment next hquiet hhit hkey
    have hmarkedEnded : ended.engine.Marked := marked_after hmarked _
    have hfreeLater : Key.ofRequest next ∉ (ended.through later).engine.unfinished := by
      rw [hkey]
      exact free_through hmarkedEnded hfree hquiet
    rw [Engine.refreshes_eq_of_ledger_eq (ledger_after_of_hit hhit),
      (marked_through hmarkedEnded later).refreshes_refreshLater, if_neg hfreeLater]

/-- A second hit begins no refresh, and after the first refresh has failed for want of a network the
third one does. -/
theorem refreshed_once_at_a_time_of_failed_refresh :
    let request : Request :=
      .get ⟨"http", "", "", some (.domain "a"), none, .segments ["create.html"], none, none⟩
    let hit : Moment := .step (.serve .cacheFirst request)
    let store := Store.empty.put "eventdrop-static-v1" (.ofRequest request) ⟨200, [], [1]⟩
    let session := (ofEngine (.ofSettings .initial store)).through [hit, hit]
    let ended := session.after (.step (.refresh 0 (.error .timeout)))
    session.engine.refreshes = [request] ∧
      session.hit? hit = some request ∧ (session.after hit).engine.refreshes = [request] ∧
      ended.NoHit (.ofRequest request) [.step .activate] ∧
      (ended.through [.step .activate]).hit? hit = some request ∧
      ((ended.through [.step .activate]).after hit).engine.refreshes = [request] := by
  intro request hit store session ended
  obtain ⟨_, _, hhit, _, hend⟩ := refreshed_once_at_a_time .initial store [hit, hit]
  have hrefreshes : session.engine.refreshes = [request] := by decide
  have hsecond : session.hit? hit = some request := by decide
  have hquiet : ended.NoHit (.ofRequest request) [.step .activate] := by
    intro before moment later other hmoments hother
    cases before with
    | nil =>
      cases hmoments
      cases hother
    | cons first before => simp at hmoments
  have hthird : (ended.through [.step .activate]).hit? hit = some request := by decide
  refine ⟨hrefreshes, hsecond, ?_, hquiet, hthird, ?_⟩
  · rw [hhit hit request hsecond, if_pos (by decide), hrefreshes]
  · have hnext := (hend 0 request (.error .timeout) (by decide)).2.2 [.step .activate] hit request
      hquiet hthird rfl
    have hnone : (ended.through [.step .activate]).engine.refreshes = [] := by decide
    rw [hnext, hnone]
    rfl

end Session

end DropRoom.Cache
