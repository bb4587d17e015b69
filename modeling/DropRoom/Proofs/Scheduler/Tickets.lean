import DropRoom.Proofs.Scheduler.Journal
import Mathlib.Data.List.Perm.Subperm

namespace DropRoom.Journal

/-!
# Tickets and tasks that are held

* `Fresh` — the tickets that tasks give next are new, and `Fresh.ask`, that they still are after one
  was given;
* `Covers` — the tasks that wait by a journal are those that are held somewhere, and
  `Covers.add`, `Covers.filter`, `Covers.remove`, that they still are where tasks come and go.
-/

variable {κ : Type}

/-! ### New tickets -/

/-- Those who may ask for tasks, each with the number of tasks it has asked for, have never used the
tickets that they give next. -/
structure Fresh (asked : List Ticket) (askers : List (Ticket × Nat)) : Prop where
  nodup : (askers.map Prod.fst).Nodup
  below : ∀ asker ∈ askers, ∀ place, place :: asker.1 ∈ asked → place < asker.2
  known : ∀ asker ∈ askers, asker.1 = [] ∨ asker.1 ∈ asked
  family : ∀ place ticket, place :: ticket ∈ asked → ticket = [] ∨ ticket ∈ asked

/-- Some of those who ask may stop. -/
theorem Fresh.of_subperm {asked : List Ticket} {askers fewer : List (Ticket × Nat)}
    (h : Fresh asked askers) (hfewer : fewer.Subperm askers) : Fresh asked fewer := by
  obtain ⟨some, hperm, hsublist⟩ := hfewer
  have hmem : ∀ asker ∈ fewer, asker ∈ askers := fun asker hasker =>
    hsublist.subset (hperm.mem_iff.mpr hasker)
  exact {
    nodup := (hperm.map _).nodup_iff.mp ((hsublist.map _).nodup h.nodup)
    below := fun asker hasker => h.below asker (hmem asker hasker)
    known := fun asker hasker => h.known asker (hmem asker hasker)
    family := h.family }

/-- The ticket that is given next is new, and whoever gets it may ask in turn. -/
theorem Fresh.ask {asked : List Ticket} {ticket : Ticket} {asks : Nat}
    {others : List (Ticket × Nat)} (h : Fresh asked ((ticket, asks) :: others)) :
    asks :: ticket ∉ asked ∧
      Fresh (asked ++ [asks :: ticket])
        ((asks :: ticket, 0) :: (ticket, asks + 1) :: others) := by
  obtain ⟨hnodup, hbelow, hknown, hfamily⟩ := h
  rw [List.map_cons, List.nodup_cons] at hnodup
  obtain ⟨hother, hothers⟩ := hnodup
  rw [List.forall_mem_cons] at hbelow hknown
  obtain ⟨hbelow, hbelowOthers⟩ := hbelow
  obtain ⟨hknown, hknownOthers⟩ := hknown
  have hnew : asks :: ticket ∉ asked := fun hmem => Nat.lt_irrefl _ (hbelow asks hmem)
  -- a ticket that is known differs from the new one
  have hne (other : Ticket) (h : other = [] ∨ other ∈ asked) : asks :: ticket ≠ other := by
    rintro rfl
    rcases h with h | h
    · cases h
    · exact hnew h
  have hmem (other : Ticket) (h : other = [] ∨ other ∈ asked) :
      other = [] ∨ other ∈ asked ++ [asks :: ticket] :=
    h.imp_right (List.mem_append_left _)
  have hsplit (place : Nat) (other : Ticket) (h : place :: other ∈ asked ++ [asks :: ticket]) :
      place :: other ∈ asked ∨ place = asks ∧ other = ticket := by
    simpa using h
  refine ⟨hnew, ?_, ?_, ?_, ?_⟩
  · rw [List.map_cons, List.map_cons, List.nodup_cons, List.nodup_cons]
    refine ⟨fun hsame => ?_, hother, hothers⟩
    rcases List.mem_cons.mp hsame with hsame | hsame
    · exact absurd hsame (List.cons_ne_self asks ticket)
    · obtain ⟨asker, hasker, hticket⟩ := List.mem_map.mp hsame
      exact hne asker.1 (hknownOthers asker hasker) hticket.symm
  · rw [List.forall_mem_cons, List.forall_mem_cons]
    refine ⟨fun place hplace => ?_, fun place hplace => ?_, fun asker hasker place hplace => ?_⟩
    · rcases hsplit place _ hplace with hplace | ⟨_, hsame⟩
      · exact absurd rfl (hne _ (hfamily place _ hplace))
      · exact absurd hsame (List.cons_ne_self asks ticket)
    · rcases hsplit place _ hplace with hplace | ⟨rfl, _⟩
      · exact Nat.lt_succ_of_lt (hbelow place hplace)
      · exact Nat.lt_succ_self _
    · rcases hsplit place _ hplace with hplace | ⟨_, hsame⟩
      · exact hbelowOthers asker hasker place hplace
      · exact absurd (List.mem_map.mpr ⟨asker, hasker, hsame⟩) hother
  · rw [List.forall_mem_cons, List.forall_mem_cons]
    exact ⟨.inr (by simp), hmem _ hknown, fun asker hasker => hmem _ (hknownOthers asker hasker)⟩
  · intro place other hplace
    rcases hsplit place other hplace with hplace | ⟨_, rfl⟩
    · exact hmem _ (hfamily place other hplace)
    · exact hmem _ hknown

/-! ### Tasks that are held -/

/-- The tasks that wait are those that are held, and none of them is held for less than its delay. -/
structure Covers (waiting held : List (Pending κ)) : Prop where
  labels : (waiting.map fun task => (task.ticket, task.key)).Perm
    (held.map fun task => (task.ticket, task.key))
  due_le : ∀ task ∈ waiting, ∀ other ∈ held, task.ticket = other.ticket → task.due ≤ other.due

variable {tasks kept : List (Pending κ)}

theorem Covers.tickets (h : Covers tasks kept) :
    (tasks.map (·.ticket)).Perm (kept.map (·.ticket)) := by
  have := h.labels.map Prod.fst
  rwa [List.map_map, List.map_map] at this

theorem Covers.keys (h : Covers tasks kept) : (tasks.map (·.key)).Perm (kept.map (·.key)) := by
  have := h.labels.map Prod.snd
  rwa [List.map_map, List.map_map] at this

theorem Covers.of_perm {other : List (Pending κ)} (h : Covers tasks kept)
    (hperm : kept.Perm other) : Covers tasks other :=
  ⟨h.labels.trans (hperm.map _), fun task htask late hlate =>
    h.due_le task htask late (hperm.mem_iff.mpr hlate)⟩

/-- What is held may be held for longer. -/
theorem Covers.later {other : List (Pending κ)} (h : Covers tasks kept)
    (hlabels : other.map (fun task => (task.ticket, task.key)) =
      kept.map fun task => (task.ticket, task.key))
    (hlater : ∀ late ∈ other, ∃ early ∈ kept, early.ticket = late.ticket ∧ early.due ≤ late.due) :
    Covers tasks other := by
  refine ⟨hlabels ▸ h.labels, fun task htask late hlate hsame => ?_⟩
  obtain ⟨early, hearly, hticket, hdue⟩ := hlater late hlate
  exact Nat.le_trans (h.due_le task htask early hearly (hsame.trans hticket.symm)) hdue

/-- A task with a ticket of its own is taken up. -/
theorem Covers.add (h : Covers tasks kept) (task : Pending κ)
    (hnew : ∀ other ∈ tasks, other.ticket ≠ task.ticket) :
    Covers (tasks ++ [task]) (kept ++ [task]) := by
  have hkept : ∀ other ∈ kept, task.ticket ≠ other.ticket := by
    intro other hother hsame
    have hmem : other.ticket ∈ tasks.map (·.ticket) :=
      h.tickets.mem_iff.mpr (List.mem_map_of_mem hother)
    obtain ⟨waits, hwaits, hticket⟩ := List.mem_map.mp hmem
    exact hnew waits hwaits (hticket.trans hsame.symm)
  refine ⟨by simpa using h.labels.append_right _, fun waits hwaits other hother hsame => ?_⟩
  rcases List.mem_append.mp hwaits with hwaits | hwaits
  · rcases List.mem_append.mp hother with hother | hother
    · exact h.due_le waits hwaits other hother hsame
    · rw [List.mem_singleton.mp hother] at hsame
      exact absurd hsame (hnew waits hwaits)
  · rw [List.mem_singleton.mp hwaits] at hsame ⊢
    rcases List.mem_append.mp hother with hother | hother
    · exact absurd hsame (hkept other hother)
    · exact (List.mem_singleton.mp hother) ▸ Nat.le_refl _

/-- The same tasks are taken away, by ticket or by key. -/
theorem Covers.filter (h : Covers tasks kept) (keep : Ticket × κ → Bool) :
    Covers (tasks.filter fun task => keep (task.ticket, task.key))
      (kept.filter fun task => keep (task.ticket, task.key)) := by
  have hfilter (list : List (Pending κ)) :
      (list.filter fun task => keep (task.ticket, task.key)).map
        (fun task => (task.ticket, task.key)) =
      (list.map fun task => (task.ticket, task.key)).filter keep := by
    rw [List.filter_map]
    rfl
  refine ⟨?_, fun task htask other hother =>
    h.due_le task (List.mem_filter.mp htask).1 other (List.mem_filter.mp hother).1⟩
  rw [hfilter, hfilter]
  exact h.labels.filter keep

/-- A task that is held waits, and its delay has passed once it may start. -/
theorem Covers.mem {task : Pending κ} (h : Covers tasks (task :: kept)) :
    ∃ waits ∈ tasks, waits.ticket = task.ticket ∧ waits.due ≤ task.due := by
  have hmem : task.ticket ∈ tasks.map (·.ticket) :=
    h.tickets.mem_iff.mpr (List.mem_map_of_mem List.mem_cons_self)
  obtain ⟨waits, hwaits, hticket⟩ := List.mem_map.mp hmem
  exact ⟨waits, hwaits, hticket, h.due_le waits hwaits task List.mem_cons_self hticket⟩

/-- A task with a ticket of its own starts. -/
theorem Covers.remove {task : Pending κ} (h : Covers tasks (task :: kept))
    (hnodup : (tasks.map (·.ticket)).Nodup) :
    Covers (tasks.filter (·.ticket ≠ task.ticket)) kept := by
  have hkept := h.tickets.nodup_iff.mp hnodup
  rw [List.map_cons, List.nodup_cons] at hkept
  have hrest : kept.filter (fun other => decide (other.ticket ≠ task.ticket)) = kept := by
    refine List.filter_eq_self.mpr fun other hother => decide_eq_true fun hsame => ?_
    exact hkept.1 (hsame ▸ List.mem_map_of_mem hother)
  have hfilter := h.filter fun label => decide (label.1 ≠ task.ticket)
  rw [List.filter_cons_of_neg (by simp)] at hfilter
  rwa [hrest] at hfilter

end DropRoom.Journal
