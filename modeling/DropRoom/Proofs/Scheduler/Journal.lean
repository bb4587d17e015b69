import DropRoom.Proofs.Log
import DropRoom.Proofs.Scheduler.Selection
import Mathlib.Data.List.Perm.Basic

namespace DropRoom

/-!
# The journal of a scheduler

What becomes of tasks, written down in order: each time that a task is asked for, and whether it was
accepted, each start, and each cancellation.

* `Journal.Ticket`, `Journal.Note`, `Journal.Entry` — how tasks are told apart, and what is written
  down;
* `Journal.waiting` — the tasks that wait according to a journal;
* `Journal.Lawful` — each entry is one that may follow those before it;
* `Journal.Lawful.keys_nodup` — at most one task waits under a key;
* `Journal.Lawful.fates` — accepted tasks have started, were cancelled, or wait, each in one of these
  ways and once;
* `Journal.Lawful.started_after_delay` — no task starts before its delay has passed;
* `Journal.follow` — an action that says how it goes on, and `Journal.filterMap_follow`, that it is
  the same action apart from that.
-/

namespace Journal

/-- How tasks are told apart.  What a task asks for has its place among all that the task asks for,
in front of the ticket of the task; what is asked for from outside has its number alone. -/
abbrev Ticket := List Nat

/-- What is written down. -/
inductive Note (κ ε : Type) where
  /-- A task was asked for, and accepted or refused. -/
  | asked (ticket : Ticket) (key : κ) (delay : Nat) (accepted : Bool)
  | cancelled (ticket : Ticket)
  | started (ticket : Ticket)
  /-- A started task goes on after it slept; it had asked for so many tasks before. -/
  | resumed (ticket : Ticket) (asks : Nat)
  /-- A task made something happen. -/
  | made (event : ε)

namespace Note

variable {κ ε : Type}

/-- The ticket of a task that was asked for. -/
def asked? : Note κ ε → Option Ticket
  | .asked ticket _ _ _ => some ticket
  | _ => none

/-- The ticket of a task that was accepted. -/
def accepted? : Note κ ε → Option Ticket
  | .asked ticket _ _ true => some ticket
  | _ => none

/-- The ticket of a task that was cancelled. -/
def cancelled? : Note κ ε → Option Ticket
  | .cancelled ticket => some ticket
  | _ => none

/-- The ticket of a task that started. -/
def started? : Note κ ε → Option Ticket
  | .started ticket => some ticket
  | _ => none

/-- What a task made happen. -/
def made? : Note κ ε → Option ε
  | .made event => some event
  | _ => none

end Note

/-- A note with its time. -/
structure Entry (κ ε : Type) where
  time : Nat
  note : Note κ ε

/-- A task that was accepted, and when its delay has passed. -/
structure Pending (κ : Type) where
  ticket : Ticket
  key : κ
  due : Nat

variable {κ ε α : Type}

/-- What the entries of a journal say of one kind, in order. -/
def said (select : Note κ ε → Option α) (journal : List (Entry κ ε)) : List α :=
  journal.filterMap fun entry => select entry.note

/-- The tasks that wait after an entry, where these waited before it. -/
def Entry.after (tasks : List (Pending κ)) (entry : Entry κ ε) : List (Pending κ) :=
  match entry.note with
  | .asked ticket key delay true => tasks ++ [⟨ticket, key, entry.time + delay⟩]
  | .cancelled ticket => tasks.filter (·.ticket ≠ ticket)
  | .started ticket => tasks.filter (·.ticket ≠ ticket)
  | _ => tasks

/-- The tasks that wait: they were accepted, and have neither started nor been cancelled. -/
def waiting (journal : List (Entry κ ε)) : List (Pending κ) :=
  journal.foldl Entry.after []

@[simp] theorem said_nil (select : Note κ ε → Option α) : said select [] = [] := rfl

@[simp] theorem said_concat (select : Note κ ε → Option α) (journal : List (Entry κ ε))
    (entry : Entry κ ε) :
    said select (journal ++ [entry]) = said select journal ++ (select entry.note).toList := by
  rw [said, List.filterMap_append, said]
  cases h : select entry.note <;> simp [h]

@[simp] theorem waiting_concat (journal : List (Entry κ ε)) (entry : Entry κ ε) :
    waiting (journal ++ [entry]) = entry.after (waiting journal) := by
  rw [waiting, List.foldl_append]
  rfl

/-! ### Lawful journals -/

/-- An entry that may follow others.  A task is accepted exactly if no task waits under its key; only
a task that waits is cancelled; and only one that waits starts, once its delay has passed. -/
def Admits (journal : List (Entry κ ε)) (entry : Entry κ ε) : Prop :=
  match entry.note with
  | .asked ticket key _ accepted =>
    ticket ∉ said Note.asked? journal ∧
      (accepted = true ↔ ∀ task ∈ waiting journal, task.key ≠ key)
  | .cancelled ticket => ∃ task ∈ waiting journal, task.ticket = ticket
  | .started ticket => ∃ task ∈ waiting journal, task.ticket = ticket ∧ task.due ≤ entry.time
  | .resumed _ _ => True
  | .made _ => True

/-- Each entry is one that may follow those before it. -/
abbrev Lawful (journal : List (Entry κ ε)) : Prop :=
  Log.Lawful Admits journal

variable {journal : List (Entry κ ε)}

/-- No two tasks have the same ticket. -/
theorem Lawful.asked_nodup (h : Lawful journal) : (said Note.asked? journal).Nodup := by
  refine h.filterMap_nodup fun log entry ticket hentry hasked => ?_
  obtain ⟨time, note⟩ := entry
  cases note with
  | asked ticket' key delay accepted =>
    have hsame : ticket' = ticket := Option.some.inj hasked
    exact hsame ▸ hentry.1
  | cancelled ticket' => cases hasked
  | started ticket' => cases hasked
  | resumed ticket' asks => cases hasked
  | made event => cases hasked

/-- Tasks that were accepted were asked for. -/
theorem accepted_sublist_asked (journal : List (Entry κ ε)) :
    (said Note.accepted? journal).Sublist (said Note.asked? journal) := by
  induction journal using List.reverseRecOn with
  | nil => exact List.Sublist.refl _
  | append_singleton journal entry ih =>
    obtain ⟨time, note⟩ := entry
    rw [said_concat, said_concat]
    refine ih.append ?_
    cases note with
    | asked ticket key delay accepted => cases accepted <;> simp [Note.accepted?, Note.asked?]
    | cancelled ticket => simp [Note.accepted?]
    | started ticket => simp [Note.accepted?]
    | resumed ticket asks => simp [Note.accepted?]
    | made event => simp [Note.accepted?]

theorem Lawful.accepted_nodup (h : Lawful journal) : (said Note.accepted? journal).Nodup :=
  (accepted_sublist_asked journal).nodup h.asked_nodup

/-- Among tasks with tickets of their own, one is taken out. -/
theorem perm_cons_filter_ticket {tasks : List (Pending κ)} (hnodup : (tasks.map (·.ticket)).Nodup)
    {task : Pending κ} (hmem : task ∈ tasks) :
    (tasks.map (·.ticket)).Perm
      (task.ticket :: (tasks.filter (·.ticket ≠ task.ticket)).map (·.ticket)) := by
  have hrest : (tasks.filter (·.ticket ≠ task.ticket)).map (·.ticket) =
      (tasks.map (·.ticket)).erase task.ticket := by
    rw [hnodup.erase_eq_filter, List.filter_map]
    congr 2
    funext other
    by_cases hsame : other.ticket = task.ticket <;> simp [hsame]
  rw [hrest]
  exact List.perm_cons_erase (List.mem_map_of_mem hmem)

/-- **One fate for each task.** The tasks that were accepted are those that have started, those that
were cancelled, and those that wait, each of them once. -/
theorem Lawful.fates (h : Lawful journal) :
    (said Note.accepted? journal).Perm
      (said Note.started? journal ++ said Note.cancelled? journal ++
        (waiting journal).map (·.ticket)) := by
  -- each entry moves a ticket from one list to another, or adds it to the accepted and the waiting
  refine Log.Lawful.induction (motive := fun journal => (said Note.accepted? journal).Perm
    (said Note.started? journal ++ said Note.cancelled? journal ++
      (waiting journal).map (·.ticket)))
    (List.Perm.refl _) (fun journal entry (hlawful : Lawful journal) hentry ih => ?_) h
  have hnodup : ((waiting journal).map (·.ticket)).Nodup :=
    (List.nodup_append.mp (ih.nodup_iff.mp hlawful.accepted_nodup)).2.1
  obtain ⟨time, note⟩ := entry
  rw [said_concat, said_concat, said_concat, waiting_concat]
  cases note with
  | asked ticket key delay accepted =>
    cases accepted with
    | false => simpa [Note.accepted?, Note.started?, Note.cancelled?, Entry.after] using ih
    | true =>
      have := ih.append_right [ticket]
      simpa [Note.accepted?, Note.started?, Note.cancelled?, Entry.after] using this
  | cancelled ticket =>
    -- a task that waited is now one that was cancelled
    obtain ⟨task, hmem, rfl⟩ := hentry
    have hrest := perm_cons_filter_ticket hnodup hmem
    have := ih.trans (hrest.append_left _)
    simpa [Note.accepted?, Note.started?, Note.cancelled?, Entry.after, List.append_assoc]
      using this
  | started ticket =>
    obtain ⟨task, hmem, rfl, _⟩ := hentry
    have hrest := perm_cons_filter_ticket hnodup hmem
    have hmoved := ih.trans (hrest.append_left _)
    have hmiddle (cancelled rest : List Ticket) :
        (cancelled ++ task.ticket :: rest).Perm (task.ticket :: (cancelled ++ rest)) :=
      List.perm_middle
    rw [List.append_assoc] at hmoved
    have := hmoved.trans ((hmiddle _ _).append_left (said Note.started? journal))
    simpa [Note.accepted?, Note.started?, Note.cancelled?, Entry.after, List.append_assoc]
      using this
  | resumed ticket asks =>
    simpa [Note.accepted?, Note.started?, Note.cancelled?, Entry.after] using ih
  | made event => simpa [Note.accepted?, Note.started?, Note.cancelled?, Entry.after] using ih

/-- Tasks that wait have tickets of their own. -/
theorem Lawful.tickets_nodup (h : Lawful journal) : ((waiting journal).map (·.ticket)).Nodup :=
  (List.nodup_append.mp (h.fates.nodup_iff.mp h.accepted_nodup)).2.1

theorem Lawful.mem_asked (h : Lawful journal) {task : Pending κ} (hmem : task ∈ waiting journal) :
    task.ticket ∈ said Note.asked? journal := by
  have haccepted : task.ticket ∈ said Note.accepted? journal :=
    h.fates.mem_iff.mpr (List.mem_append_right _ (List.mem_map_of_mem hmem))
  exact (accepted_sublist_asked journal).subset haccepted

/-- **One task for each key.** At most one task waits under a key. -/
theorem Lawful.keys_nodup (h : Lawful journal) : ((waiting journal).map (·.key)).Nodup := by
  refine Log.Lawful.induction (motive := fun journal => ((waiting journal).map (·.key)).Nodup)
    List.nodup_nil (fun journal entry _ hentry ih => ?_) h
  have hfilter (ticket : Ticket) :
      (((waiting journal).filter (·.ticket ≠ ticket)).map (·.key)).Nodup :=
    (List.filter_sublist.map _).nodup ih
  obtain ⟨time, note⟩ := entry
  rw [waiting_concat]
  cases note with
  | asked ticket key delay accepted =>
    cases accepted with
    | false => exact ih
    | true =>
      have hfree : ∀ task ∈ waiting journal, task.key ≠ key := hentry.2.mp rfl
      simpa [Entry.after, List.nodup_append, ih] using hfree
  | cancelled ticket => exact hfilter ticket
  | started ticket => exact hfilter ticket
  | resumed ticket asks => exact ih
  | made event => exact ih

/-! ### Delays -/

/-- A task that waits was accepted, and its delay counts from then. -/
theorem mem_of_mem_waiting {task : Pending κ} (hmem : task ∈ waiting journal) :
    ∃ time delay, ⟨time, .asked task.ticket task.key delay true⟩ ∈ journal ∧
      task.due = time + delay := by
  induction journal using List.reverseRecOn with
  | nil => cases hmem
  | append_singleton journal entry ih =>
    have hearlier (hmem : task ∈ waiting journal) :
        ∃ time delay, (⟨time, .asked task.ticket task.key delay true⟩ : Entry κ ε) ∈
          journal ++ [entry] ∧ task.due = time + delay := by
      obtain ⟨time, delay, hentry, hdue⟩ := ih hmem
      exact ⟨time, delay, List.mem_append_left _ hentry, hdue⟩
    obtain ⟨time, note⟩ := entry
    rw [waiting_concat] at hmem
    cases note with
    | asked ticket key delay accepted =>
      cases accepted with
      | false => exact hearlier hmem
      | true =>
        rcases List.mem_append.mp hmem with hmem | hmem
        · exact hearlier hmem
        · rw [List.mem_singleton.mp hmem]
          exact ⟨time, delay, by simp, rfl⟩
    | cancelled ticket => exact hearlier (List.mem_filter.mp hmem).1
    | started ticket => exact hearlier (List.mem_filter.mp hmem).1
    | resumed ticket asks => exact hearlier hmem
    | made event => exact hearlier hmem

/-- Entries with the same ticket are the same entry, where no ticket is said twice. -/
theorem eq_of_said_nodup {select : Note κ ε → Option α} (hnodup : (said select journal).Nodup)
    {entry other : Entry κ ε} (hentry : entry ∈ journal) (hother : other ∈ journal) {a : α}
    (ha : select entry.note = some a) (hb : select other.note = some a) : entry = other := by
  -- if one of the two comes first and the other later, what they say stands twice
  induction journal with
  | nil => cases hentry
  | cons first journal ih =>
    have hrest {e : Entry κ ε} (he : e ∈ journal) (hspoken : select e.note = some a) :
        a ∈ said select journal := List.mem_filterMap.mpr ⟨e, he, hspoken⟩
    have htail : (said select journal).Nodup :=
      (List.Sublist.filterMap _ (List.sublist_cons_self first journal)).nodup hnodup
    rcases List.mem_cons.mp hentry with rfl | hlater
    · rcases List.mem_cons.mp hother with rfl | hotherLater
      · rfl
      · simp only [said, List.filterMap_cons, ha, List.nodup_cons] at hnodup
        exact absurd (hrest hotherLater hb) hnodup.1
    · rcases List.mem_cons.mp hother with rfl | hotherLater
      · simp only [said, List.filterMap_cons, hb, List.nodup_cons] at hnodup
        exact absurd (hrest hlater ha) hnodup.1
      · exact ih htail hlater hotherLater

/-- **No early start.** A task that starts does so when its delay has passed since it was accepted. -/
theorem Lawful.started_after_delay (h : Lawful journal) {time later delay : Nat} {ticket : Ticket}
    {key : κ} (haccepted : ⟨time, .asked ticket key delay true⟩ ∈ journal)
    (hstarted : ⟨later, .started ticket⟩ ∈ journal) : time + delay ≤ later := by
  obtain ⟨before, after, rfl⟩ := List.append_of_mem hstarted
  obtain ⟨task, hmem, rfl, hdue⟩ := h before _ after rfl
  obtain ⟨accepted, wait, hentry, htask⟩ := mem_of_mem_waiting hmem
  -- the task was accepted once, so this is the entry that accepted it
  have hsame := eq_of_said_nodup h.asked_nodup haccepted (List.mem_append_left _ hentry) rfl rfl
  injection hsame with htime hnote
  injection hnote with _ _ hdelay
  show time + delay ≤ later
  rw [htime, hdelay, ← htask]
  exact hdue

/-! ### Actions that say how they go on -/

/-- The same action, which also says what it asks for and when it goes on after a sleep, and whose
tasks say when they start.  It has asked for so many tasks before. -/
def follow : Action κ ε → Ticket → Nat → Action κ (Note κ ε)
  | .finish, _, _ => .finish
  | .emit event next, ticket, asks => .emit (.made event) (follow next ticket asks)
  | .sleep delay next, ticket, asks =>
    .sleep delay (.emit (.resumed ticket asks) (follow next ticket asks))
  | .schedule key delay task next, ticket, asks =>
    .schedule key delay (.emit (.started (asks :: ticket)) (follow task (asks :: ticket) 0))
      fun accepted =>
        .emit (.asked (asks :: ticket) key delay accepted) (follow (next accepted) ticket (asks + 1))

/-- The same task, which also says when it starts and how it goes on. -/
def begin (action : Action κ ε) (ticket : Ticket) : Action κ (Note κ ε) :=
  .emit (.started ticket) (follow action ticket 0)

/-- Without what it says of itself, such an action is the one that there was. -/
@[simp] theorem filterMap_follow (action : Action κ ε) (ticket : Ticket) (asks : Nat) :
    (follow action ticket asks).filterMap Note.made? = action := by
  induction action generalizing ticket asks with
  | finish => rfl
  | emit event next ih => simp [follow, Action.filterMap, Note.made?, ih]
  | sleep delay next ih => simp [follow, Action.filterMap, Note.made?, ih]
  | schedule key delay task next ihTask ihNext =>
    simp [follow, Action.filterMap, Note.made?, ihTask, ihNext]

@[simp] theorem filterMap_begin (action : Action κ ε) (ticket : Ticket) :
    (begin action ticket).filterMap Note.made? = action :=
  filterMap_follow action ticket 0

end Journal

end DropRoom
