import DropRoom.Cache.Engine

namespace DropRoom.Cache

/-!
# What a store keeps

A store is known by what it answers under the keys of its partitions.

* `Store.get?_put`, `Engine.get?_persist` — a response that is put is there, and nothing else has
  changed;
* `Store.entries_filter` — the entries of a partition, where only some partitions are left;
* `Store.get?_deletePartition`, `Engine.get?_deletePartitions` — nothing is left in a partition that
  was deleted, and the others have not changed;
* `Engine.store_activate`, `Engine.get?_activate` — the current partitions are left, and nothing else
  is;
* `Store.partitions_put`, `Store.partitions_open`, `Store.partitions_deletePartition` — the names of
  the partitions;
* `Store.mem_keys_iff`, `Store.mem_partitions_of_get?` — which keys and partitions there are;
* `Store.matchAny?_eq_findSome?` — the preferred partitions are asked in order, and then all in the
  order in which they were made;
* `Store.matchAny?_eq_some` — what is found in any partition is there in one;
* `Store.matchAny?_of_preferred` — where only the preferred partitions have a key, they are asked in
  order.
-/

open Http (Response)

namespace Entries

/-- A response that is set is there, and the other keys keep theirs. -/
theorem get?_insert (key other : Key) (response : Response) (entries : Entries) :
    (insert key response entries).get? other =
      if key = other then some response else entries.get? other := by
  induction entries with
  | nil => by_cases hkey : key = other <;> simp [insert, get?, hkey]
  | cons entry entries ih =>
    rw [insert]
    by_cases hentry : entry.1 = key
    · rw [if_pos hentry]
      by_cases hkey : key = other <;> simp [get?, hentry, hkey]
    · rw [if_neg hentry]
      by_cases hother : entry.1 = other
      · have hkey : key ≠ other := fun hkey => hentry (hother.trans hkey.symm)
        simp [get?, hother, hkey]
      · simpa [get?, hother] using ih

/-- A key that is set is the last one, if it is new. -/
theorem keys_insert (key : Key) (response : Response) (entries : Entries) :
    (insert key response entries).map (·.1) =
      if key ∈ entries.map (·.1) then entries.map (·.1) else entries.map (·.1) ++ [key] := by
  induction entries with
  | nil => simp [insert]
  | cons entry entries ih =>
    rw [insert]
    by_cases hentry : entry.1 = key
    · simp [hentry]
    · have hkey : key ≠ entry.1 := fun hkey => hentry hkey.symm
      rw [if_neg hentry, List.map_cons, ih]
      by_cases hmem : key ∈ entries.map (·.1) <;> simp [hmem, hkey]

/-- A key is there exactly if it has a response. -/
theorem mem_keys_iff {key : Key} {entries : Entries} :
    key ∈ entries.map (·.1) ↔ ∃ response, entries.get? key = some response := by
  simp only [get?, Option.map_eq_some_iff]
  constructor
  · intro hmem
    obtain ⟨entry, hentry, rfl⟩ := List.mem_map.mp hmem
    -- the first entry of the key is found
    cases hfind : entries.find? fun other => decide (other.1 = entry.1) with
    | none => simpa using List.find?_eq_none.mp hfind entry hentry
    | some found => exact ⟨found.2, found, rfl, rfl⟩
  · rintro ⟨response, entry, hfind, rfl⟩
    have hkey : entry.1 = key := by simpa using List.find?_some hfind
    exact hkey ▸ List.mem_map_of_mem (List.mem_of_find?_eq_some hfind)

end Entries

namespace Store

/-- The entries of a partition, in a list of partitions. -/
theorem entries_update (name other : String) (change : Entries → Entries)
    (parts : List (String × Entries)) :
    (Store.mk (update name change parts)).entries other =
      if name = other then change ((Store.mk parts).entries other)
      else (Store.mk parts).entries other := by
  induction parts with
  | nil => by_cases hname : name = other <;> simp [update, entries, hname]
  | cons part parts ih =>
    rw [update]
    -- the change is made in the first part of that name, and nowhere after it
    by_cases hpart : part.1 = name
    · rw [if_pos hpart]
      by_cases hname : name = other <;> simp [entries, hpart, hname]
    · rw [if_neg hpart]
      by_cases hother : part.1 = other
      · have hname : name ≠ other := fun hname => hpart (hother.trans hname.symm)
        simp [entries, hother, hname]
      · simpa [entries, hother] using ih

/-- **Put.** A response that is put is there, and nothing else has changed. -/
theorem get?_put (store : Store) (partition other : String) (key otherKey : Key)
    (response : Response) :
    (store.put partition key response).get? other otherKey =
      if partition = other ∧ key = otherKey then some response else store.get? other otherKey := by
  rw [get?, put, entries_update]
  by_cases hpartition : partition = other
  · simp [hpartition, Entries.get?_insert, get?]
  · simp [hpartition, get?]

/-- The entries of a partition, where only some partitions are left. -/
theorem entries_filter (keeps : String → Bool) (parts : List (String × Entries)) (name : String) :
    (Store.mk (parts.filter fun part => keeps part.1)).entries name =
      if keeps name then (Store.mk parts).entries name else [] := by
  simp only [entries, List.find?_filter]
  split
  · rename_i hname
    have hsame : (fun part : String × Entries =>
        decide (keeps part.1 = true ∧ decide (part.1 = name) = true)) =
        fun part => decide (part.1 = name) := by
      funext part
      by_cases hpart : part.1 = name <;> simp [hpart, hname]
    rw [hsame]
  · rename_i hname
    -- no part of the list can be of the partition and be left
    have hnone : (parts.find? fun part =>
        decide (keeps part.1 = true ∧ decide (part.1 = name) = true)) = none := by
      rw [List.find?_eq_none]
      rintro part _ hpart
      obtain ⟨hkept, hpart⟩ := of_decide_eq_true hpart
      exact hname (of_decide_eq_true hpart ▸ hkept)
    rw [hnone]
    rfl

/-- To delete a partition leaves the others. -/
theorem entries_deletePartition (store : Store) (partition other : String) :
    (store.deletePartition partition).2.entries other =
      if other = partition then [] else store.entries other := by
  have hentries := entries_filter (fun name => decide (name ≠ partition)) store.contents other
  rw [deletePartition, hentries]
  by_cases hother : other = partition <;> simp [hother]

/-- **Delete.** Nothing is left in a partition that was deleted, and the others have not changed. -/
theorem get?_deletePartition (store : Store) (partition other : String) (key : Key) :
    (store.deletePartition partition).2.get? other key =
      if other = partition then none else store.get? other key := by
  rw [get?, entries_deletePartition]
  split
  · rfl
  · rfl

/-! ### The names of the partitions -/

/-- A partition that is made is the last one. -/
theorem partitions_update (name : String) (change : Entries → Entries)
    (parts : List (String × Entries)) :
    (Store.mk (update name change parts)).partitions =
      if name ∈ (Store.mk parts).partitions then (Store.mk parts).partitions
      else (Store.mk parts).partitions ++ [name] := by
  induction parts with
  | nil => simp [update, partitions]
  | cons part parts ih =>
    simp only [partitions] at ih ⊢
    rw [update]
    by_cases hpart : part.1 = name
    · simp [hpart]
    · have hname : name ≠ part.1 := fun hname => hpart hname.symm
      rw [if_neg hpart, List.map_cons, ih]
      by_cases hmem : name ∈ parts.map (·.1) <;> simp [hmem, hname]

/-- To open a partition makes it if it is not there. -/
theorem partitions_open (store : Store) (name : String) :
    (store.open_ name).partitions =
      if name ∈ store.partitions then store.partitions else store.partitions ++ [name] :=
  partitions_update name id store.contents

/-- So does putting a response into it. -/
theorem partitions_put (store : Store) (name : String) (key : Key) (response : Response) :
    (store.put name key response).partitions =
      if name ∈ store.partitions then store.partitions else store.partitions ++ [name] :=
  partitions_update name (Entries.insert key response) store.contents

/-- To delete a partition takes it away. -/
theorem partitions_deletePartition (store : Store) (name : String) :
    (store.deletePartition name).2.partitions = store.partitions.filter (· ≠ name) := by
  rw [partitions, partitions, deletePartition, List.filter_map]
  rfl

/-- To make a partition changes nothing of what is kept. -/
theorem get?_open (store : Store) (partition other : String) (key : Key) :
    (store.open_ partition).get? other key = store.get? other key := by
  rw [get?, open_, entries_update]
  split
  · rfl
  · rfl

/-- A partition with entries is there. -/
theorem mem_partitions_of_entries {store : Store} {name : String} (h : store.entries name ≠ []) :
    name ∈ store.partitions := by
  rw [entries] at h
  cases hfind : store.contents.find? fun part => decide (part.1 = name) with
  | none => simp [hfind] at h
  | some part =>
    have hname : part.1 = name := by simpa using List.find?_some hfind
    exact hname ▸ List.mem_map_of_mem (List.mem_of_find?_eq_some hfind)

/-- Nothing is kept in a partition that is not there. -/
theorem mem_partitions_of_get? {store : Store} {name : String} {key : Key} {response : Response}
    (h : store.get? name key = some response) : name ∈ store.partitions := by
  apply mem_partitions_of_entries
  intro hnil
  rw [get?, hnil] at h
  cases h

/-- The keys of a partition are those that have a response in it. -/
theorem mem_keys_iff {store : Store} {name : String} {key : Key} :
    key ∈ store.keys name ↔ ∃ response, store.get? name key = some response :=
  Entries.mem_keys_iff

/-! ### Search in all partitions -/

/-- The preferred partitions are asked in order, and then all in the order in which they were made:
that some are left out the second time makes no difference. -/
theorem matchAny?_eq_findSome? (store : Store) (preferred : List String) (key : Key) :
    store.matchAny? preferred key =
      (preferred ++ store.partitions).findSome? fun name => store.get? name key := by
  rw [matchAny?, List.findSome?_append, List.findSome?_append]
  cases hpreferred : preferred.findSome? fun name => store.get? name key with
  | some response => rfl
  | none =>
    rw [List.findSome?_eq_none_iff] at hpreferred
    rw [Option.none_or, Option.none_or]
    induction store.partitions with
    | nil => rfl
    | cons name names ih =>
      by_cases hname : name ∈ preferred
      · rw [List.filter_cons_of_neg (by simpa using hname), List.findSome?_cons,
          hpreferred name hname, ih]
      · rw [List.filter_cons_of_pos (by simpa using hname), List.findSome?_cons,
          List.findSome?_cons, ih]

/-- What is found in any partition is there in one. -/
theorem matchAny?_eq_some {store : Store} {preferred : List String} {key : Key}
    {response : Response} (h : store.matchAny? preferred key = some response) :
    ∃ partition, store.get? partition key = some response := by
  obtain ⟨partition, _, hpartition⟩ := List.exists_of_findSome?_eq_some h
  exact ⟨partition, hpartition⟩

/-- Where only the preferred partitions have a key, they are asked in order. -/
theorem matchAny?_of_preferred {store : Store} {preferred : List String} {key : Key}
    (h : ∀ partition, partition ∉ preferred → store.get? partition key = none) :
    store.matchAny? preferred key = preferred.findSome? fun name => store.get? name key := by
  have hothers : ((store.partitions.filter fun name => !preferred.contains name).findSome?
      fun name => store.get? name key) = none := by
    rw [List.findSome?_eq_none_iff]
    intro partition hmem
    apply h
    simpa using (List.mem_filter.mp hmem).2
  rw [matchAny?, List.findSome?_append, hothers, Option.or_none]

end Store

namespace Engine

/-- A response that is written to a store that works is there, and nothing else has changed. -/
theorem get?_persist {e : Engine} (h : e.writable = true) (partition other : String)
    (key otherKey : Key) (response : Response) :
    (e.persist partition key response).store.get? other otherKey =
      if partition = other ∧ key = otherKey then some response
      else e.store.get? other otherKey := by
  rw [persist, if_pos h]
  exact e.store.get?_put partition other key otherKey response

/-- What is left where partitions are deleted in turn. -/
theorem store_deletePartitions (names : List String) (store : Store) :
    (deletePartitions names store).2 = ⟨store.contents.filter fun part => part.1 ∉ names⟩ := by
  induction names generalizing store with
  | nil =>
    have hall : (store.contents.filter fun part => decide (part.1 ∉ ([] : List String))) =
        store.contents := List.filter_eq_self.mpr fun _ _ => by simp
    rw [hall]
    rfl
  | cons name names ih =>
    show (deletePartitions names (store.deletePartition name).2).2 = _
    rw [ih, Store.deletePartition, List.filter_filter]
    refine congrArg Store.mk (List.filter_congr fun part _ => ?_)
    simp [Bool.and_comm]

/-- In partitions that are deleted nothing is found. -/
theorem get?_deletePartitions (names : List String) (store : Store) (partition : String)
    (key : Key) :
    (deletePartitions names store).2.get? partition key =
      if partition ∈ names then none else store.get? partition key := by
  have hentries := Store.entries_filter (fun name => decide (name ∉ names)) store.contents partition
  rw [store_deletePartitions, Store.get?, hentries]
  by_cases hmem : partition ∈ names
  · simp [hmem, Entries.get?]
  · simp [hmem, Store.get?]

/-! ### Deletion of other versions -/

/-- They are gone, and the others are in their order. -/
theorem partitions_deletePartitions (names : List String) (store : Store) :
    (deletePartitions names store).2.partitions =
      store.partitions.filter fun name => name ∉ names := by
  rw [store_deletePartitions, Store.partitions, Store.partitions, List.filter_map]
  rfl

/-- The current partitions are left, and nothing else is. -/
theorem store_activate (e : Engine) :
    e.activate.2.store = ⟨e.store.contents.filter fun part => e.isCurrent part.1⟩ := by
  have hstore : e.activate.2.store = ⟨e.store.contents.filter fun part =>
      part.1 ∉ e.store.partitions.filter fun name => !e.isCurrent name⟩ :=
    store_deletePartitions _ e.store
  rw [hstore]
  refine congrArg Store.mk (List.filter_congr fun part hpart => ?_)
  have hmem : part.1 ∈ e.store.partitions := List.mem_map_of_mem hpart
  simp [hmem]

/-- An activation leaves the current partitions. -/
theorem partitions_activate (e : Engine) :
    e.activate.2.store.partitions = e.store.partitions.filter e.isCurrent := by
  rw [store_activate, Store.partitions, Store.partitions, List.filter_map]
  rfl

/-- A partition is there after an activation exactly if it was and is current. -/
theorem mem_partitions_activate {e : Engine} {name : String} :
    name ∈ e.activate.2.store.partitions ↔
      name ∈ e.store.partitions ∧ e.isCurrent name = true := by
  rw [partitions_activate, List.mem_filter]

/-- The current partitions keep their entries. -/
theorem entries_activate (e : Engine) (name : String) :
    e.activate.2.store.entries name =
      if e.isCurrent name then e.store.entries name else [] := by
  rw [store_activate]
  exact Store.entries_filter e.isCurrent e.store.contents name

/-- What is found in a current partition is found after an activation. -/
theorem get?_activate (e : Engine) (name : String) (key : Key) :
    e.activate.2.store.get? name key =
      if e.isCurrent name then e.store.get? name key else none := by
  rw [Store.get?, entries_activate]
  split
  · rfl
  · rfl

end Engine

end DropRoom.Cache
