import DropRoom.Proofs.Cache.History
import DropRoom.Proofs.Cache.Versions

namespace DropRoom.Cache

/-!
# Eviction

The only deletion of an engine is that of the partitions of other versions.  The names are taken
from the store before the first of them is deleted, so each stale partition is met once, and nothing
is deleted but those.

* `Engine.deleted_deletePartitions` — which of the named partitions are deleted;
* `Engine.deleted_activate` — those of other versions, in the order of the store;
* `Engine.activate_of_current` — there is nothing to do where all partitions are current;
* `Engine.activate_leaves_current` — what is deleted, and what is left.
-/

namespace Engine

/-! ### Deletion by name -/

/-- Of partitions that are named once, those that are there are deleted. -/
theorem deleted_deletePartitions {names : List String} (h : names.Nodup) (store : Store) :
    (deletePartitions names store).1 = names.filter fun name => name ∈ store.partitions := by
  induction names generalizing store with
  | nil => rfl
  | cons name names ih =>
    obtain ⟨hname, hnames⟩ := List.nodup_cons.mp h
    -- the deletion of the first partition leaves the others there
    have hothers : (deletePartitions names (store.deletePartition name).2).1 =
        names.filter fun other => other ∈ store.partitions := by
      rw [ih hnames]
      refine List.filter_congr fun other hother => ?_
      have hne : other ≠ name := fun hsame => hname (hsame ▸ hother)
      simp [Store.partitions_deletePartition, hne]
    show (if decide (name ∈ store.partitions) then
        name :: (deletePartitions names (store.deletePartition name).2).1
      else (deletePartitions names (store.deletePartition name).2).1) = _
    rw [hothers, List.filter_cons]

/-! ### Deletion of other versions -/

variable {e : Engine}

/-- The partitions that are deleted are those that are not current. -/
theorem deleted_activate (h : e.store.partitions.Nodup) :
    e.activate.1 = e.store.partitions.filter fun name => !e.isCurrent name := by
  have hdeleted : e.activate.1 =
      (e.store.partitions.filter fun name => !e.isCurrent name).filter
        fun name => name ∈ e.store.partitions :=
    deleted_deletePartitions (h.filter _) e.store
  rw [hdeleted]
  exact List.filter_eq_self.mpr fun name hname => decide_eq_true (List.mem_filter.mp hname).1

/-- Where all partitions are current, nothing is deleted. -/
theorem activate_of_current (h : ∀ name ∈ e.store.partitions, e.isCurrent name = true) :
    e.activate = ([], e) := by
  have hstale : (e.store.partitions.filter fun name => !e.isCurrent name) = [] :=
    List.filter_eq_nil_iff.mpr fun name hname => by simp [h name hname]
  rw [activate, hstale]
  rfl

/-- **Eviction.** Over a store with each partition once, an engine of settings deletes the partitions
other than its own two, whatever they contain, and tells their names in the order in which they were
made.  Its own two, where they are there, stay in their order with all their entries, and nothing
else changes.  To do so again deletes nothing. -/
theorem activate_leaves_current {settings : CacheSettings} {e : Engine}
    (hsetUp : e.SetUpBy settings) (h : e.store.partitions.Nodup) :
    let deleted := e.activate.1
    let done := e.activate.2
    deleted = e.store.partitions.filter (fun name => ¬ settings.Owns name) ∧
    done.store.partitions = e.store.partitions.filter (fun name => settings.Owns name) ∧
    (∀ name, done.store.entries name =
      if settings.Owns name then e.store.entries name else []) ∧
    done = { e with store := done.store } ∧
    done.activate = ([], done) := by
  intro deleted done
  have hcurrent : e.isCurrent = fun name => decide (settings.Owns name) := by
    funext name
    exact Bool.eq_iff_iff.mpr (hsetUp.isCurrent_iff.trans decide_eq_true_iff.symm)
  have hdeleted : deleted = e.store.partitions.filter fun name => !e.isCurrent name :=
    deleted_activate h
  refine ⟨?_, ?_, fun name => ?_, rfl, ?_⟩
  · rw [hdeleted, hcurrent]
    exact List.filter_congr fun name _ => by simp
  · exact hcurrent ▸ partitions_activate e
  · exact (entries_activate e name).trans (if_congr hsetUp.isCurrent_iff rfl rfl)
  · -- what is left is current
    exact activate_of_current fun name hname => (mem_partitions_activate.mp hname).2

/-- Partitions before, between and after the two current ones are deleted.  One of them is empty, and
was made anew after it had been deleted. -/
theorem activate_leaves_current_of_versions :
    let key := Key.get "http://origin.test/a.css"
    let store := Store.ofHistory [.open_ "eventdrop-v0",
      .put "eventdrop-static-v0" key (.ofBody 200 [0]),
      .put "eventdrop-v1" key (.ofBody 200 [1]), .delete "eventdrop-v0", .open_ "eventdrop-v0",
      .open_ "eventdrop-static-v1", .put "notes" key (.ofBody 200 [2])]
    let e := ofSettings .initial store
    e.SetUpBy .initial ∧ store.partitions.Nodup ∧
      e.activate.1 = ["eventdrop-static-v0", "eventdrop-v0", "notes"] ∧
      e.activate.2.store.partitions = ["eventdrop-v1", "eventdrop-static-v1"] ∧
      e.activate.2.store.entries "eventdrop-v1" = [(key, .ofBody 200 [1])] ∧
      e.activate.2.activate = ([], e.activate.2) := by
  intro key store e
  have hsetUp : e.SetUpBy .initial := ofSettings_setUpBy .initial store
  have hnodup : store.partitions.Nodup := Store.nodup_partitions_ofHistory _
  obtain ⟨hdeleted, hpartitions, hentries, _, hagain⟩ := activate_leaves_current hsetUp hnodup
  refine ⟨hsetUp, hnodup, hdeleted.trans (by decide), hpartitions.trans (by decide),
    (hentries _).trans (by decide), hagain⟩

end Engine

end DropRoom.Cache
