import Mathlib.Data.List.Induction
import Mathlib.Data.List.Nodup

namespace DropRoom.Log

/-!
# Logs

A log is only ever added to at its end.  What is said of it is said of each entry: that it may
follow those before it.

* `Lawful` — each entry is one that may follow those before it;
* `Lawful.of_append`, `Lawful.concat` — what was logged until some moment, and one more entry;
* `Lawful.induction` — what holds of a log still holds after one more entry;
* `Lawful.filterMap_nodup` — what may be said only once is said only once;
* `Stands`, `stands_concat` — something was begun by an entry, and no later one has ended it;
* `StandsSince`, `StandsSince.unique`, `Stands.exists_since` — and when it was begun.
-/

variable {α β : Type} {admits : List α → α → Prop} {log : List α} {entry : α}

/-- Each entry is one that may follow those before it. -/
def Lawful (admits : List α → α → Prop) (log : List α) : Prop :=
  ∀ before entry after, log = before ++ entry :: after → admits before entry

/-- An empty log is lawful. -/
theorem lawful_nil : Lawful admits [] := by
  intro before entry after h
  simp at h

/-- What was logged until some moment is lawful by itself. -/
theorem Lawful.of_append {before after : List α} (h : Lawful admits (before ++ after)) :
    Lawful admits before := by
  rintro earlier entry later rfl
  exact h earlier entry (later ++ after) (by simp)

/-- In a lawful log the last entry is admitted after the others. -/
theorem Lawful.last (h : Lawful admits (log ++ [entry])) : admits log entry :=
  h log entry [] rfl

/-- An entry that is admitted may be written down. -/
theorem Lawful.concat (h : Lawful admits log) (hentry : admits log entry) :
    Lawful admits (log ++ [entry]) := by
  intro before other after hsplit
  -- the entry in question is the last one, or one of the log before it
  rcases List.eq_nil_or_concat after with rfl | ⟨after, last, rfl⟩
  · obtain ⟨rfl, hother⟩ := List.append_inj' hsplit rfl
    rw [← List.singleton_inj.mp hother]
    exact hentry
  · have hsplit' : log ++ [entry] = (before ++ other :: after) ++ [last] := by
      rw [hsplit]
      simp
    obtain ⟨hlog, _⟩ := List.append_inj' hsplit' rfl
    exact h before other after hlog

/-- What holds of the empty log, and still holds after one more entry, holds of every lawful log. -/
theorem Lawful.induction {motive : List α → Prop} (nil : motive [])
    (concat : ∀ log entry, Lawful admits log → admits log entry → motive log →
      motive (log ++ [entry]))
    (h : Lawful admits log) : motive log := by
  induction log using List.reverseRecOn with
  | nil => exact nil
  | append_singleton log entry ih => exact concat log entry h.of_append h.last (ih h.of_append)

/-- What an entry may say only where it was not said before is said once. -/
theorem Lawful.filterMap_nodup {select : α → Option β} (h : Lawful admits log)
    (hnew : ∀ log entry b, admits log entry → select entry = some b → b ∉ log.filterMap select) :
    (log.filterMap select).Nodup := by
  refine Lawful.induction (motive := fun log => (log.filterMap select).Nodup) List.nodup_nil
    (fun log entry _ hentry ih => ?_) h
  rw [List.filterMap_append]
  cases hspoken : select entry with
  | none => simpa [hspoken] using ih
  | some b =>
    have hb : b ∉ log.filterMap select := hnew log entry b hentry hspoken
    rw [List.filterMap_cons_some hspoken]
    refine List.nodup_append.mpr ⟨ih, List.nodup_singleton b, ?_⟩
    intro other hother last hlast hsame
    rw [List.mem_singleton.mp hlast] at hsame
    exact hb (hsame ▸ hother)

/-! ### What was begun and has not ended -/

variable {starts ends : α → Prop} {before : List α}

/-- An entry has begun something, and none after it has ended that. -/
def Stands (starts ends : α → Prop) (log : List α) : Prop :=
  ∃ before entry after, log = before ++ entry :: after ∧ starts entry ∧
    ∀ later ∈ after, ¬ ends later

/-- It was begun by the entry after the first ones: it did not stand then, and has not ended
since. -/
def StandsSince (starts ends : α → Prop) (before log : List α) : Prop :=
  ¬ Stands starts ends before ∧
    ∃ entry after, log = before ++ entry :: after ∧ starts entry ∧ ∀ later ∈ after, ¬ ends later

/-- Nothing stands in an empty log. -/
theorem not_stands_nil : ¬ Stands starts ends [] := by
  rintro ⟨before, entry, after, hlog, _⟩
  simp at hlog

/-- The last entry of a log is the one after some others, or the others go on to it. -/
theorem concat_eq_append_cons {last : α} {after : List α} :
    log ++ [last] = before ++ entry :: after ↔
      log = before ∧ last = entry ∧ after = [] ∨
        ∃ rest, log = before ++ entry :: rest ∧ after = rest ++ [last] := by
  constructor
  · intro h
    rcases List.eq_nil_or_concat after with rfl | ⟨rest, other, rfl⟩
    · obtain ⟨hlog, hlast⟩ := List.append_inj' h rfl
      exact .inl ⟨hlog, List.singleton_inj.mp hlast, rfl⟩
    · have hsplit : log ++ [last] = (before ++ entry :: rest) ++ [other] := by
        rw [h]
        simp
      obtain ⟨hlog, hlast⟩ := List.append_inj' hsplit rfl
      exact .inr ⟨rest, hlog, by rw [List.concat_eq_append, List.singleton_inj.mp hlast]⟩
  · rintro (⟨rfl, rfl, rfl⟩ | ⟨rest, rfl, rfl⟩)
    · rfl
    · simp

/-- One more entry begins it, or leaves it standing. -/
theorem stands_concat :
    Stands starts ends (log ++ [entry]) ↔ starts entry ∨ ¬ ends entry ∧ Stands starts ends log := by
  constructor
  · rintro ⟨before, first, after, hlog, hfirst, hlater⟩
    rcases concat_eq_append_cons.mp hlog with ⟨_, rfl, _⟩ | ⟨rest, hrest, rfl⟩
    · exact .inl hfirst
    · refine .inr ⟨hlater entry (by simp), before, first, rest, hrest, hfirst, ?_⟩
      exact fun later hmem => hlater later (List.mem_append_left _ hmem)
  · rintro (hentry | ⟨hentry, before, first, after, rfl, hfirst, hlater⟩)
    · exact ⟨log, entry, [], rfl, hentry, fun _ hmem => absurd hmem List.not_mem_nil⟩
    · refine ⟨before, first, after ++ [entry], by simp, hfirst, fun later hmem => ?_⟩
      rcases List.mem_append.mp hmem with hafter | hlast
      · exact hlater later hafter
      · exact List.mem_singleton.mp hlast ▸ hentry

/-- What stands since some point stands. -/
theorem StandsSince.stands (h : StandsSince starts ends before log) : Stands starts ends log :=
  ⟨before, h.2⟩

/-- It goes on standing until an entry ends it. -/
theorem StandsSince.concat (h : StandsSince starts ends before log) (hentry : ¬ ends entry) :
    StandsSince starts ends before (log ++ [entry]) := by
  obtain ⟨hnew, first, after, rfl, hfirst, hlater⟩ := h
  refine ⟨hnew, first, after ++ [entry], by simp, hfirst, fun later hmem => ?_⟩
  rcases List.mem_append.mp hmem with hafter | hlast
  · exact hlater later hafter
  · exact List.mem_singleton.mp hlast ▸ hentry

/-- It is begun by an entry where it does not stand. -/
theorem standsSince_last (h : ¬ Stands starts ends log) (hentry : starts entry) :
    StandsSince starts ends log (log ++ [entry]) :=
  ⟨h, entry, [], rfl, hentry, fun _ hmem => absurd hmem List.not_mem_nil⟩

/-- Something was written down since then. -/
theorem StandsSince.length_lt (h : StandsSince starts ends before log) :
    before.length < log.length := by
  obtain ⟨_, entry, after, rfl, _⟩ := h
  simp

/-- What stands was begun at some moment. -/
theorem Stands.exists_since (hkinds : ∀ entry, starts entry → ¬ ends entry)
    (h : Stands starts ends log) : ∃ before, StandsSince starts ends before log := by
  induction log using List.reverseRecOn with
  | nil => exact absurd h not_stands_nil
  | append_singleton log entry ih =>
    by_cases hlog : Stands starts ends log
    · obtain ⟨before, hbefore⟩ := ih hlog
      refine ⟨before, hbefore.concat ?_⟩
      rcases stands_concat.mp h with hentry | ⟨hentry, _⟩
      · exact hkinds entry hentry
      · exact hentry
    · rcases stands_concat.mp h with hentry | ⟨_, hlog'⟩
      · exact ⟨log, standsSince_last hlog hentry⟩
      · exact absurd hlog' hlog

/-- There is only one such moment: where it was begun a second time, it stood before. -/
theorem StandsSince.unique {other : List α} (h : StandsSince starts ends before log)
    (hother : StandsSince starts ends other log) : before = other := by
  obtain ⟨hnew, entry, after, rfl, hentry, hlater⟩ := h
  obtain ⟨hnew', entry', after', hsplit, hentry', hlater'⟩ := hother
  rcases List.append_eq_append_iff.mp hsplit with ⟨rest, rfl, hrest⟩ | ⟨rest, rfl, hrest⟩
  · cases rest with
    | nil => simp
    | cons first rest =>
      obtain ⟨rfl, rfl⟩ := List.cons.inj hrest
      refine absurd ⟨before, entry, rest, rfl, hentry, fun later hmem => ?_⟩ hnew'
      exact hlater later (List.mem_append_left _ hmem)
  · cases rest with
    | nil => simp
    | cons first rest =>
      obtain ⟨rfl, rfl⟩ := List.cons.inj hrest
      refine absurd ⟨other, entry', rest, rfl, hentry', fun later hmem => ?_⟩ hnew
      exact hlater' later (List.mem_append_left _ hmem)

end DropRoom.Log
