import DropRoom.Proofs.Cache.Store
import DropRoom.Proofs.Log

namespace DropRoom.Cache

/-!
# Stores by their history

What a store answers can be told from the changes that were made to it, in order: from the last
response that was put under a key, and from the moments at which its partitions were made.

* `Store.Change`, `Store.ofHistory` — a change, and the store that changes lead to;
* `Store.LastPut` — the last response under a key of a partition since that was deleted;
* `Store.Exists`, `Store.MadeAt` — a partition is there, and when it was made;
* `Store.get?_ofHistory`, `Store.partitions_ofHistory`, `Store.pairwise_ofHistory` — what each
  change makes of these;
* `Store.held` — all keys of all partitions;
* `Store.answers_by_history` — all that a store answers.
-/

open Http (Response)

/-- One change of a store. -/
inductive Store.Change where
  | open_ (partition : String)
  | put (partition : String) (key : Key) (response : Response)
  | delete (partition : String)

namespace Store

/-- Make a change. -/
def change (store : Store) : Change → Store
  | .open_ partition => store.open_ partition
  | .put partition key response => store.put partition key response
  | .delete partition => (store.deletePartition partition).2

/-- The store that changes in order lead to, from one without partitions. -/
def ofHistory (history : List Change) : Store :=
  history.foldl change empty

/-- The last change is made to what the others have left. -/
theorem ofHistory_concat (history : List Change) (last : Change) :
    ofHistory (history ++ [last]) = (ofHistory history).change last :=
  List.foldl_append

/-! ### What a history tells -/

/-- A change makes a partition, if it is not there. -/
def Change.Makes (name : String) : Change → Prop
  | .open_ partition => partition = name
  | .put partition _ _ => partition = name
  | .delete _ => False

/-- A response was put under a key, and since then neither another one was, nor was the partition
deleted. -/
def LastPut (history : List Change) (name : String) (key : Key) (response : Response) : Prop :=
  Log.Stands (· = .put name key response)
    (fun later => later = .delete name ∨ ∃ other, later = .put name key other) history

/-- A partition was made, and has not been deleted since. -/
def Exists (history : List Change) (name : String) : Prop :=
  Log.Stands (Change.Makes name) (· = .delete name) history

/-- A partition was made for good by the change after the first ones: it was not there then, and has
not been deleted since. -/
def MadeAt (history before : List Change) (name : String) : Prop :=
  Log.StandsSince (Change.Makes name) (· = .delete name) before history

/-- A partition was made for good before another. -/
def MadeBefore (history : List Change) (name other : String) : Prop :=
  ∃ before later, MadeAt history before name ∧ MadeAt history later other ∧
    before.length < later.length

variable {history : List Change} {name : String}

/-- A response is the last under a key if the last change puts it there, or if it was and the last
change neither deletes the partition nor puts another one there. -/
theorem lastPut_concat {key : Key} {response : Response} {last : Change} :
    LastPut (history ++ [last]) name key response ↔
      last = .put name key response ∨
        ¬ (last = .delete name ∨ ∃ other, last = .put name key other) ∧
          LastPut history name key response :=
  Log.stands_concat

/-- A partition exists if the last change makes it, or if it existed and is not deleted. -/
theorem exists_concat {last : Change} :
    Exists (history ++ [last]) name ↔
      last.Makes name ∨ ¬ last = .delete name ∧ Exists history name :=
  Log.stands_concat

/-- What makes a partition does not delete it. -/
theorem Change.ne_delete_of_makes {change : Change} (h : change.Makes name) :
    ¬ change = .delete name := by
  rintro rfl
  exact h

/-- A partition that is there was made for good at one moment. -/
theorem exists_unique_madeAt : Exists history name ↔ ∃! before, MadeAt history before name := by
  constructor
  · intro h
    obtain ⟨before, hbefore⟩ := h.exists_since fun _ => Change.ne_delete_of_makes
    exact ⟨before, hbefore, fun other hother => hother.unique hbefore⟩
  · rintro ⟨before, hbefore, _⟩
    exact hbefore.stands

/-! ### Responses -/

/-- One change puts a response under a key, or leaves it there. -/
theorem get?_change {store : Store} {key : Key} {response : Response} (last : Change) :
    (store.change last).get? name key = some response ↔
      last = .put name key response ∨
        ¬ (last = .delete name ∨ ∃ other, last = .put name key other) ∧
          store.get? name key = some response := by
  cases last with
  | open_ partition =>
    rw [change, get?_open]
    simp
  | put partition other written =>
    rw [change, get?_put]
    by_cases hsame : partition = name ∧ other = key
    · obtain ⟨rfl, rfl⟩ := hsame
      simp
    · have hput (any : Response) : Change.put partition other written ≠ .put name key any := by
        rintro ⟨⟩
        exact hsame ⟨rfl, rfl⟩
      simp [hsame, hput]
  | delete partition =>
    rw [change, get?_deletePartition]
    by_cases hname : name = partition
    · simp [hname]
    · have hother : partition ≠ name := fun h => hname h.symm
      simp [hname, hother]

/-- What is kept under a key is the response that was put there last. -/
theorem get?_ofHistory (history : List Change) (name : String) (key : Key) (response : Response) :
    (ofHistory history).get? name key = some response ↔ LastPut history name key response := by
  induction history using List.reverseRecOn with
  | nil => exact iff_of_false (fun h => by cases h) Log.not_stands_nil
  | append_singleton history last ih =>
    rw [ofHistory_concat, get?_change, ih, lastPut_concat]

/-! ### Partitions -/

/-- One change makes a partition, or leaves it there. -/
theorem mem_partitions_change {store : Store} (last : Change) :
    name ∈ (store.change last).partitions ↔
      last.Makes name ∨ ¬ last = .delete name ∧ name ∈ store.partitions := by
  have hmade (made : String) :
      name ∈ (if made ∈ store.partitions then store.partitions else store.partitions ++ [made]) ↔
        made = name ∨ name ∈ store.partitions := by
    split
    · rename_i hmem
      exact ⟨.inr, fun h => h.elim (fun hname => hname ▸ hmem) id⟩
    · rw [List.mem_append, List.mem_singleton, or_comm, eq_comm]
  cases last with
  | open_ partition =>
    rw [change, partitions_open, hmade]
    simp [Change.Makes]
  | put partition key response =>
    rw [change, partitions_put, hmade]
    simp [Change.Makes]
  | delete partition =>
    rw [change, partitions_deletePartition, List.mem_filter]
    by_cases hname : name = partition
    · simp [Change.Makes, hname]
    · have hother : partition ≠ name := fun h => hname h.symm
      simp [Change.Makes, hname, hother]

/-- The partitions are those that were made and not deleted since. -/
theorem mem_partitions_ofHistory (history : List Change) (name : String) :
    name ∈ (ofHistory history).partitions ↔ Exists history name := by
  induction history using List.reverseRecOn with
  | nil => exact iff_of_false List.not_mem_nil Log.not_stands_nil
  | append_singleton history last ih =>
    rw [ofHistory_concat, mem_partitions_change, ih, exists_concat]

/-- A change that deletes neither of two partitions does not change which was made first. -/
theorem MadeBefore.concat {other : String} (h : MadeBefore history name other) {last : Change}
    (hname : ¬ last = .delete name) (hother : ¬ last = .delete other) :
    MadeBefore (history ++ [last]) name other := by
  obtain ⟨before, later, hbefore, hlater, hlength⟩ := h
  exact ⟨before, later, Log.StandsSince.concat hbefore hname, Log.StandsSince.concat hlater hother,
    hlength⟩

/-- The partition that a change makes comes after all that are there. -/
theorem MadeBefore.last {made : String} (h : Exists history name) (hnew : ¬ Exists history made)
    {last : Change} (hmakes : last.Makes made) : MadeBefore (history ++ [last]) name made := by
  obtain ⟨before, hbefore, _⟩ := exists_unique_madeAt.mp h
  have hname : ¬ last = .delete name := by
    rintro rfl
    exact hmakes
  exact ⟨before, history, Log.StandsSince.concat hbefore hname, Log.standsSince_last hnew hmakes,
    hbefore.length_lt⟩

/-- No partition is made before itself. -/
theorem MadeBefore.irrefl (h : MadeBefore history name name) : False := by
  obtain ⟨before, later, hbefore, hlater, hlength⟩ := h
  rw [hbefore.unique hlater] at hlength
  exact Nat.lt_irrefl _ hlength

/-- The partitions stay in the order in which they were made, when a change makes one. -/
theorem pairwise_made {names : List String} (h : names.Pairwise (MadeBefore history))
    (hnames : ∀ name, name ∈ names ↔ Exists history name) {last : Change} {made : String}
    (hmakes : last.Makes made) :
    (if made ∈ names then names else names ++ [made]).Pairwise
      (MadeBefore (history ++ [last])) := by
  have hlast (name : String) : ¬ last = .delete name := by
    rintro rfl
    exact hmakes
  have hold : names.Pairwise (MadeBefore (history ++ [last])) :=
    h.imp fun hbefore => hbefore.concat (hlast _) (hlast _)
  split
  · exact hold
  · rename_i hnew
    refine List.pairwise_append.mpr ⟨hold, List.pairwise_singleton _ _,
      fun name hname other hother => ?_⟩
    rw [List.mem_singleton.mp hother]
    exact .last ((hnames name).mp hname) (fun hmade => hnew ((hnames made).mpr hmade)) hmakes

/-- **The order of the partitions** is the one in which they were made for good. -/
theorem pairwise_ofHistory (history : List Change) :
    (ofHistory history).partitions.Pairwise (MadeBefore history) := by
  induction history using List.reverseRecOn with
  | nil => exact .nil
  | append_singleton history last ih =>
    have hnames := mem_partitions_ofHistory history
    rw [ofHistory_concat]
    cases last with
    | open_ partition =>
      rw [change, partitions_open]
      exact pairwise_made ih hnames rfl
    | put partition key response =>
      rw [change, partitions_put]
      exact pairwise_made ih hnames rfl
    | delete partition =>
      -- those that are left have not been deleted
      rw [change, partitions_deletePartition]
      refine (ih.filter _).imp_of_mem fun hname hother hbefore => hbefore.concat ?_ ?_
      · rintro ⟨⟩
        simp at hname
      · rintro ⟨⟩
        simp at hother

/-- A store that has come about by changes has each partition once. -/
theorem nodup_partitions_ofHistory (history : List Change) :
    (ofHistory history).partitions.Nodup :=
  (pairwise_ofHistory history).imp fun {name other} h hsame => by
    subst hsame
    exact h.irrefl

/-! ### Keys -/

/-- All keys that a store has, each with its partition. -/
def held (store : Store) : List (String × Key) :=
  store.contents.flatMap fun part => part.2.map fun entry => (part.1, entry.1)

/-- Each key of a partition is there once. -/
def KeysNodup (store : Store) : Prop :=
  ∀ part ∈ store.contents, (part.2.map (·.1)).Nodup

/-- There are as many responses as the store counts. -/
theorem length_held (store : Store) : store.held.length = store.size := by
  rw [held, size]
  induction store.contents with
  | nil => rfl
  | cons part parts ih => simp [ih]

/-- The entries of a partition are those of the only part of its name. -/
theorem entries_of_mem {store : Store} (h : store.partitions.Nodup) {part : String × Entries}
    (hpart : part ∈ store.contents) : store.entries part.1 = part.2 := by
  obtain ⟨parts⟩ := store
  simp only [partitions, entries] at h ⊢
  induction parts with
  | nil => cases hpart
  | cons first parts ih =>
    rw [List.map_cons, List.nodup_cons] at h
    rcases List.mem_cons.mp hpart with rfl | hmem
    · simp
    · have hfirst : first.1 ≠ part.1 := fun hsame =>
        h.1 (hsame ▸ List.mem_map_of_mem hmem)
      rw [List.find?_cons_of_neg (by simpa using hfirst)]
      exact ih h.2 hmem

/-- The keys of all partitions are those under which something is kept. -/
theorem mem_held_iff {store : Store} (h : store.partitions.Nodup) {key : Key} :
    (name, key) ∈ store.held ↔ ∃ response, store.get? name key = some response := by
  rw [← mem_keys_iff, held, keys]
  constructor
  · intro hmem
    obtain ⟨part, hpart, hkey⟩ := List.mem_flatMap.mp hmem
    obtain ⟨entry, hentry, ⟨⟩⟩ := List.mem_map.mp hkey
    rw [entries_of_mem h hpart]
    exact List.mem_map_of_mem hentry
  · intro hmem
    obtain ⟨entry, hentry, rfl⟩ := List.mem_map.mp hmem
    have hname : name ∈ store.partitions :=
      mem_partitions_of_entries (List.ne_nil_of_mem hentry)
    obtain ⟨part, hpart, rfl⟩ := List.mem_map.mp hname
    rw [entries_of_mem h hpart] at hentry
    exact List.mem_flatMap.mpr ⟨part, hpart, List.mem_map.mpr ⟨entry, hentry, rfl⟩⟩

/-- No response is held twice under one key. -/
theorem nodup_held {store : Store} (h : store.partitions.Nodup) (hkeys : store.KeysNodup) :
    store.held.Nodup := by
  refine List.nodup_flatMap.mpr ⟨fun part hpart => ?_, ?_⟩
  · have hmap : (part.2.map fun entry => (part.1, entry.1)) =
        (part.2.map (·.1)).map (Prod.mk part.1) := by simp
    rw [hmap]
    exact (hkeys part hpart).map fun _ _ hsame => (Prod.mk.inj hsame).2
  · -- keys of two partitions differ in the name
    refine (List.pairwise_map.mp h).imp fun {part other} hne => ?_
    intro both hpart hother
    obtain ⟨_, _, rfl⟩ := List.mem_map.mp hpart
    obtain ⟨_, _, hsame⟩ := List.mem_map.mp hother
    exact hne (Prod.mk.inj hsame).1.symm

/-- A partition of an updated store was there before, or is new, or has been changed. -/
theorem mem_update {change : Entries → Entries} {parts : List (String × Entries)}
    {part : String × Entries} (h : part ∈ update name change parts) :
    part ∈ parts ∨ part.2 = change [] ∨ ∃ old ∈ parts, part.2 = change old.2 := by
  induction parts with
  | nil => exact .inr (.inl (congrArg Prod.snd (List.mem_singleton.mp h)))
  | cons first parts ih =>
    rw [update] at h
    split at h
    · rcases List.mem_cons.mp h with rfl | hmem
      · exact .inr (.inr ⟨first, List.mem_cons_self, rfl⟩)
      · exact .inl (List.mem_cons_of_mem _ hmem)
    · rcases List.mem_cons.mp h with rfl | hmem
      · exact .inl List.mem_cons_self
      · rcases ih hmem with hold | hnew | ⟨old, hold, hchanged⟩
        · exact .inl (List.mem_cons_of_mem _ hold)
        · exact .inr (.inl hnew)
        · exact .inr (.inr ⟨old, List.mem_cons_of_mem _ hold, hchanged⟩)

/-- A change of the entries that keeps their keys distinct may be made in any partition. -/
theorem KeysNodup.update {store : Store} (h : store.KeysNodup) {change : Entries → Entries}
    (hchange : ∀ entries : Entries, (entries.map (·.1)).Nodup → ((change entries).map (·.1)).Nodup)
    (name : String) : (Store.mk (update name change store.contents)).KeysNodup := by
  intro part hpart
  rcases mem_update hpart with hold | hnew | ⟨old, hold, hchanged⟩
  · exact h part hold
  · rw [hnew]
    exact hchange [] List.nodup_nil
  · rw [hchanged]
    exact hchange old.2 (h old hold)

/-- A change keeps each key of a partition there once. -/
theorem KeysNodup.change {store : Store} (h : store.KeysNodup) (last : Change) :
    (store.change last).KeysNodup := by
  cases last with
  | open_ partition => exact h.update (fun _ hentries => hentries) partition
  | put partition key response =>
    refine h.update (fun entries hentries => ?_) partition
    rw [Entries.keys_insert]
    split
    · exact hentries
    · rename_i hnew
      exact List.concat_eq_append ▸ (List.nodup_concat _ _).mpr ⟨hnew, hentries⟩
  | delete partition => exact fun part hpart => h part (List.mem_filter.mp hpart).1

/-- So it is in a store that has come about by changes. -/
theorem keysNodup_ofHistory (history : List Change) : (ofHistory history).KeysNodup := by
  induction history using List.reverseRecOn with
  | nil => exact fun part hpart => absurd hpart List.not_mem_nil
  | append_singleton history last ih =>
    rw [ofHistory_concat]
    exact ih.change last

/-! ### All answers -/

/-- **What a store answers.** After any changes, in any order: what is kept under a key of a
partition is the last response that was put there since the partition was deleted, if there is one.
The partitions that are listed are those that are there, each once, in the order in which they were
made for good.  The size is the number of keys under which something is kept, those of different
partitions apart.  A search in all partitions finds the response of the first one that has any: of
the preferred ones in their order, then of all in the order in which they were made; it finds none
exactly if no partition has one. -/
theorem answers_by_history (history : List Change) :
    let store := ofHistory history
    (∀ name key response,
      store.get? name key = some response ↔ LastPut history name key response) ∧
    ((∀ name, name ∈ store.partitions ↔ Exists history name) ∧
      (∀ name, Exists history name ↔ ∃! before, MadeAt history before name) ∧
      store.partitions.Nodup ∧ store.partitions.Pairwise (MadeBefore history)) ∧
    (∃ held : List (String × Key), held.Nodup ∧ store.size = held.length ∧
      ∀ name key, (name, key) ∈ held ↔ ∃ response, store.get? name key = some response) ∧
    ∀ preferred key,
      (∀ response, store.matchAny? preferred key = some response ↔
        ∃ before name after, preferred ++ store.partitions = before ++ name :: after ∧
          store.get? name key = some response ∧
          ∀ other ∈ before, store.get? other key = none) ∧
      (store.matchAny? preferred key = none ↔ ∀ name, store.get? name key = none) := by
  intro store
  have hnodup : store.partitions.Nodup := nodup_partitions_ofHistory history
  refine ⟨get?_ofHistory history, ⟨mem_partitions_ofHistory history, fun _ => exists_unique_madeAt,
    hnodup, pairwise_ofHistory history⟩, ⟨store.held, ?_, store.length_held.symm, ?_⟩,
    fun preferred key => ⟨fun response => ?_, ?_⟩⟩
  · exact nodup_held hnodup (keysNodup_ofHistory history)
  · exact fun name key => mem_held_iff hnodup
  · rw [matchAny?_eq_findSome?, List.findSome?_eq_some_iff]
  · rw [matchAny?_eq_findSome?, List.findSome?_eq_none_iff]
    constructor
    · intro hnone name
      -- a partition that has a response is listed
      cases hget : store.get? name key with
      | none => rfl
      | some response =>
        have hname := List.mem_append_right preferred (mem_partitions_of_get? hget)
        rw [← hget]
        exact hnone name hname
    · exact fun hnone name _ => hnone name

example : (ofHistory [.open_ "a", .open_ "b", .delete "a",
    .put "a" (.get "http://origin.test/") (.ofBody 200 [])]).partitions = ["b", "a"] := by rfl

end Store

end DropRoom.Cache
