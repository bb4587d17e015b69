import DropRoom.Proofs.Cache.NetworkFirst

namespace DropRoom.Cache.Engine

/-!
# Where a kept response is found

A lookup asks the static partition first, then the other current one, and then the others in the
order in which they were made.

* `searchOrder`, `FoundIn` — this order, and the first partition in it that has a response;
* `Lacks` — no partition has one;
* `lookup_eq_some_iff`, `lookup_eq_none_iff` — what a lookup finds.
-/

open Http (Response)

/-- The order in which a lookup asks the partitions. -/
def searchOrder (e : Engine) : List String :=
  e.staticPartition :: e.runtimePartition ::
    e.store.partitions.filter fun name => !e.isCurrent name

/-- A partition has a response under a key, and no partition that is asked before it has any. -/
def FoundIn (e : Engine) (name : String) (key : Key) (response : Response) : Prop :=
  e.store.get? name key = some response ∧
    ∃ before after, e.searchOrder = before ++ name :: after ∧
      ∀ other ∈ before, e.store.get? other key = none

/-- No partition has a response under a key. -/
def Lacks (e : Engine) (key : Key) : Prop :=
  ∀ name, e.store.get? name key = none

variable {e : Engine} {name : String} {key : Key} {response : Response}

/-- In a store that can be read, a lookup asks the partitions in their order. -/
theorem lookup_eq_findSome? (h : e.readable = true) (key : Key) :
    e.lookup key = e.searchOrder.findSome? fun name => e.store.get? name key := by
  have hothers : (fun name => !([e.staticPartition, e.runtimePartition].contains name)) =
      fun name => !e.isCurrent name := by
    funext name
    rw [Bool.eq_iff_iff]
    simp [isCurrent]
  rw [lookup, if_pos h, Store.matchAny?, hothers]
  rfl

/-- A lookup finds what is found in some partition. -/
theorem lookup_eq_some_iff (h : e.readable = true) :
    e.lookup key = some response ↔ ∃ name, e.FoundIn name key response := by
  rw [lookup_eq_findSome? h, List.findSome?_eq_some_iff]
  constructor
  · rintro ⟨before, name, after, horder, hget, hbefore⟩
    exact ⟨name, hget, before, after, horder, hbefore⟩
  · rintro ⟨name, hget, before, after, horder, hbefore⟩
    exact ⟨before, name, after, horder, hget, hbefore⟩

/-- Every partition that has something is asked. -/
theorem mem_searchOrder (h : e.store.get? name key = some response) : name ∈ e.searchOrder := by
  by_cases hstatic : name = e.staticPartition
  · exact hstatic ▸ List.mem_cons_self
  · by_cases hruntime : name = e.runtimePartition
    · exact hruntime ▸ List.mem_cons_of_mem _ List.mem_cons_self
    · have hcurrent : e.isCurrent name = false := by simp [isCurrent, hstatic, hruntime]
      refine List.mem_cons_of_mem _ (List.mem_cons_of_mem _ (List.mem_filter.mpr ⟨?_, ?_⟩))
      · exact Store.mem_partitions_of_get? h
      · rw [hcurrent]
        rfl

/-- It finds nothing exactly if the key is in none. -/
theorem lookup_eq_none_iff (h : e.readable = true) : e.lookup key = none ↔ e.Lacks key := by
  rw [lookup_eq_findSome? h, List.findSome?_eq_none_iff]
  constructor
  · intro hnone name
    cases hget : e.store.get? name key with
    | none => rfl
    | some response =>
      rw [← hget]
      exact hnone name (mem_searchOrder hget)
  · exact fun hlacks name _ => hlacks name

/-- A key is found in some partition, or in none. -/
theorem lacks_or_foundIn (h : e.readable = true) (key : Key) :
    e.Lacks key ∨ ∃ name response, e.FoundIn name key response := by
  cases hlookup : e.lookup key with
  | none => exact .inl ((lookup_eq_none_iff h).mp hlookup)
  | some response =>
    obtain ⟨name, hfound⟩ := (lookup_eq_some_iff h).mp hlookup
    exact .inr ⟨name, response, hfound⟩

/-- What the static partition has is found before all else. -/
theorem foundIn_staticPartition (h : e.store.get? e.staticPartition key = some response) :
    e.FoundIn e.staticPartition key response :=
  ⟨h, [], _, rfl, fun _ hmem => absurd hmem List.not_mem_nil⟩

end DropRoom.Cache.Engine
