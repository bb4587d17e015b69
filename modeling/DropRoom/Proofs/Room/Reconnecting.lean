import DropRoom.Room.Reader

namespace DropRoom.Room

/-!
# What a reader tells

A reader tells of each connection what it brought, and then what becomes of the stream: it is
opened again, or it has ended and nothing follows.

* `Connection.brought` — what a connection brings before it is over;
* `retriesSinceOpen` — the attempts to open the stream again since it was last open;
* `AfterBreak`, `Verdict` — what becomes of a stream, by what was told so far;
* `Reader.Agrees` — a reader that goes on agrees with what it has told;
* `Reader.Agrees.step`, `Reader.Agrees.run` — what one connection, and connections in order, keep;
* `Reader.tells_in_order` — what a reader tells of any connections.
-/

/-- The message of an event: there is one if the event has no name of its own. -/
def PushEvent.message? (event : PushEvent) : Option Input :=
  if event.name = "" ∨ event.name = "message" then some (.message event.payload) else none

/-- What a connection brings before it is over: that the stream is open, and the messages of its
events in order. -/
def Connection.brought : Connection → List Input
  | .unreachable _ => []
  | .rejected _ => []
  | .accepted events _ => .opened :: events.filterMap PushEvent.message?

/-- The count of attempts after one more input: it begins anew whenever the stream is open. -/
def countRetry (count : Nat) : Input → Nat
  | .opened => 0
  | .message _ => count
  | .reconnecting _ _ => count + 1
  | .ended _ => count

/-- How many inputs have told of an attempt to open the stream again since it was last open. -/
def retriesSinceOpen (told : List Input) : Nat :=
  told.foldl countRetry 0

/-- What becomes of a stream that broke after so many attempts to open it again. -/
inductive AfterBreak (retries : Nat) (reason : String) : Reconnection → Input → Prop where
  | interrupted : AfterBreak retries reason .never (.ended (.interrupted reason))
  /-- The next attempt is made after its wait. -/
  | again {backoff : Backoff} {attempt : UInt32} {delay : Nat}
      (hleft : retries < backoff.maxAttempts.toNat) (hattempt : attempt.toNat = retries + 1)
      (hdelay : backoff.wait? attempt = some delay) :
      AfterBreak retries reason (.backoff backoff) (.reconnecting attempt delay)
  /-- All attempts are used up. -/
  | gaveUp {backoff : Backoff} (hnone : retries = backoff.maxAttempts.toNat) :
      AfterBreak retries reason (.backoff backoff) (.ended (.closed
        ("gave up after " ++ toString backoff.maxAttempts.toNat ++ " reconnect attempts: " ++ reason)))

/-- What becomes of the stream after a connection, by what was told before. -/
inductive Verdict (policy : Reconnection) (told : List Input) : Connection → Input → Prop where
  /-- The stream was never open. -/
  | unreachable {reason : String} (hopened : .opened ∉ told) :
      Verdict policy told (.unreachable reason)
        (.ended (.closed ("room stream unreachable: " ++ reason)))
  | rejected {status : Nat} :
      Verdict policy told (.rejected status)
        (.ended (.closed ("room stream rejected with HTTP " ++ toString status)))
  | finished {events : List PushEvent} :
      Verdict policy told (.accepted events .ended) (.ended (.closed "server ended the room stream"))
  /-- The stream could not be opened again. -/
  | lost {reason : String} {last : Input} (hopened : .opened ∈ told)
      (hlast : AfterBreak (retriesSinceOpen told) reason policy last) :
      Verdict policy told (.unreachable reason) last
  /-- The stream broke while it was open. -/
  | broken {events : List PushEvent} {reason : String} {last : Input}
      (hlast : AfterBreak 0 reason policy last) :
      Verdict policy told (.accepted events (.broken reason)) last

/-! ### What a connection brings -/

/-- What an event of the stream brings is a message with its payload. -/
theorem PushEvent.eq_message_of_message? {event : PushEvent} {input : Input}
    (h : event.message? = some input) : input = .message event.payload := by
  rw [message?] at h
  split at h
  · exact (Option.some.inj h).symm
  · cases h

namespace Connection

/-- A connection brings that it is open, and messages. -/
theorem mem_brought {connection : Connection} {input : Input} (h : input ∈ connection.brought) :
    input = .opened ∨ ∃ payload, input = .message payload := by
  cases connection with
  | unreachable reason => cases h
  | rejected status => cases h
  | accepted events ending =>
    rcases List.mem_cons.mp h with hopened | hmessage
    · exact .inl hopened
    · obtain ⟨event, _, hevent⟩ := List.mem_filterMap.mp hmessage
      exact .inr ⟨event.payload, PushEvent.eq_message_of_message? hevent⟩

/-- It does not bring news of attempts. -/
theorem reconnecting_not_mem_brought (connection : Connection) (attempt : UInt32) (delay : Nat) :
    .reconnecting attempt delay ∉ connection.brought := by
  intro h
  rcases mem_brought h with heq | ⟨_, heq⟩
  · cases heq
  · cases heq

/-- It does not bring the end. -/
theorem ended_not_mem_brought (connection : Connection) (signal : Signal) :
    .ended signal ∉ connection.brought := by
  intro h
  rcases mem_brought h with heq | ⟨_, heq⟩
  · cases heq
  · cases heq

end Connection

/-! ### Counting -/

/-- Attempts are counted on from where they were. -/
theorem retriesSinceOpen_append (told more : List Input) :
    retriesSinceOpen (told ++ more) = more.foldl countRetry (retriesSinceOpen told) :=
  List.foldl_append

/-- Messages count nothing, so no attempt is left to count after a connection that was open. -/
theorem retriesSinceOpen_accepted (told : List Input) (events : List PushEvent) (ending : Ending) :
    retriesSinceOpen (told ++ (Connection.accepted events ending).brought) = 0 := by
  rw [retriesSinceOpen_append, Connection.brought, List.foldl_cons]
  show List.foldl countRetry 0 _ = 0
  induction events with
  | nil => rfl
  | cons event events ih =>
    rw [List.filterMap_cons]
    split
    · exact ih
    · rename_i input hinput
      rw [PushEvent.eq_message_of_message? hinput]
      exact ih

namespace Reader

variable {policy : Reconnection}

/-! ### One connection -/

/-- What a reader makes of the events of a connection is what the connection brings. -/
theorem opened_snapshots (events : List PushEvent) (ending : Ending) :
    .opened :: snapshots events = (Connection.accepted events ending).brought := by
  rw [Connection.brought, snapshots]
  congr 1
  induction events with
  | nil => rfl
  | cons event events ih =>
    by_cases hname : event.name = "" ∨ event.name = "message"
    · have hsnapshot : event.isSnapshot = true := by
        simpa [PushEvent.isSnapshot] using hname
      have hmessage : event.message? = some (.message event.payload) := if_pos hname
      rw [List.filter_cons_of_pos hsnapshot, List.map_cons, ih, List.filterMap_cons_some hmessage]
    · have hother : ¬ event.isSnapshot = true := by
        simpa [PushEvent.isSnapshot] using hname
      have hmessage : event.message? = none := if_neg hname
      rw [List.filter_cons_of_neg hother, ih, List.filterMap_cons_none hmessage]

/-- The reader after a step whose last input is known: it stops with the end of the stream, or goes
on after the next attempt. -/
inductive Continues (policy : Reconnection) (retries : Nat) : Input → Option Reader → Prop where
  | stopped {signal : Signal} : Continues policy retries (.ended signal) none
  | again {attempt : UInt32} {delay : Nat} (hattempt : attempt.toNat = retries + 1)
      (hbounded : ∀ backoff, policy = .backoff backoff → attempt ≤ backoff.maxAttempts) :
      Continues policy retries (.reconnecting attempt delay) (some ⟨true, attempt⟩)

/-- A stream that broke is opened again as long as attempts are left. -/
theorem retry_cases {attempt : UInt32} {retries : Nat} (hattempt : attempt.toNat = retries)
    (hbounded : ∀ backoff, policy = .backoff backoff → attempt ≤ backoff.maxAttempts)
    (reason : String) :
    ∃ last next, retry policy attempt reason = ([last], next) ∧
      AfterBreak retries reason policy last ∧ Continues policy retries last next := by
  cases policy with
  | never => exact ⟨_, _, rfl, .interrupted, .stopped⟩
  | backoff backoff =>
    have hle : attempt.toNat ≤ backoff.maxAttempts.toNat := hbounded backoff rfl
    have hsize : backoff.maxAttempts.toNat < 2 ^ 32 := backoff.maxAttempts.toNat_lt
    rw [retry]
    by_cases hleft : attempt.toNat < backoff.maxAttempts.toNat
    · -- the next attempt does not overflow, as the bound is a number of 32 bits
      have hnext : (attempt + 1).toNat = retries + 1 := by
        rw [UInt32.toNat_add, hattempt]
        show (retries + 1) % 2 ^ 32 = retries + 1
        omega
      have hne : ¬ (attempt + 1 = 0 ∨ backoff.maxAttempts < attempt + 1) := by
        rw [← UInt32.toNat_inj, UInt32.lt_iff_toNat_lt, hnext]
        show ¬ (retries + 1 = 0 ∨ _)
        omega
      have hbound : attempt + 1 ≤ backoff.maxAttempts := by
        rw [UInt32.le_iff_toNat_le]
        omega
      have hwait : ∃ delay, backoff.wait? (attempt + 1) = some delay := by
        rw [Backoff.wait?, if_neg hne]
        exact ⟨_, rfl⟩
      obtain ⟨delay, hdelay⟩ := hwait
      simp only [hdelay]
      refine ⟨_, _, rfl, .again (hattempt ▸ hleft) hnext hdelay, .again hnext ?_⟩
      rintro _ ⟨⟩
      exact hbound
    · -- after the last attempt there is none, be it that its number overflows
      have hlast : attempt = backoff.maxAttempts := by
        rw [← UInt32.toNat_inj]
        omega
      have hnone : attempt + 1 = 0 ∨ backoff.maxAttempts < attempt + 1 := by
        rw [← UInt32.toNat_inj, UInt32.lt_iff_toNat_lt, UInt32.toNat_add]
        show (_ + 1) % 2 ^ 32 = 0 ∨ _ < (_ + 1) % 2 ^ 32
        omega
      have hwait : backoff.wait? (attempt + 1) = none := by
        rw [Backoff.wait?, if_pos hnone]
      simp only [hwait, stop, UInt32.add_sub_cancel]
      rw [hlast]
      exact ⟨_, _, rfl, .gaveUp (by rw [← hattempt, hlast]), .stopped⟩

/-- A reader that goes on agrees with what it has told. -/
structure Agrees (policy : Reconnection) (told : List Input) (r : Reader) : Prop where
  goes_on : ∀ signal, .ended signal ∉ told
  opened : r.openedOnce = true ↔ .opened ∈ told
  attempt : r.attempt.toNat = retriesSinceOpen told
  bounded : ∀ backoff, policy = .backoff backoff → r.attempt ≤ backoff.maxAttempts

/-- A reader that has told nothing agrees with that. -/
theorem initial_agrees (policy : Reconnection) : initial.Agrees policy [] where
  goes_on _ := List.not_mem_nil
  opened := by simp [initial]
  attempt := rfl
  bounded backoff _ := by simp [initial]

/-- The reader that goes on after a connection agrees with what it has told then. -/
theorem Agrees.next {told : List Input} {r r' : Reader} (h : r.Agrees policy told)
    {connection : Connection} {last : Input} (hopened : .opened ∈ told ++ connection.brought)
    (hlast : Continues policy (retriesSinceOpen (told ++ connection.brought)) last (some r')) :
    r'.Agrees policy (told ++ connection.brought ++ [last]) := by
  cases hlast with
  | again hattempt hbounded =>
    refine ⟨fun signal hmem => ?_, ?_, ?_, hbounded⟩
    · simp [h.goes_on, connection.ended_not_mem_brought] at hmem
    · exact iff_of_true rfl (List.mem_append_left _ hopened)
    · rw [retriesSinceOpen_append]
      exact hattempt

/-- **What one connection keeps.** A reader that agrees with what it has told tells what the
connection brings and what becomes of the stream, and agrees with that too if it goes on. -/
theorem Agrees.step {told : List Input} {r : Reader} (h : r.Agrees policy told)
    (connection : Connection) :
    ∃ last next, r.step policy connection = (connection.brought ++ [last], next) ∧
      Verdict policy told connection last ∧
      Continues policy (retriesSinceOpen (told ++ connection.brought)) last next ∧
      ∀ r', next = some r' → r'.Agrees policy (told ++ connection.brought ++ [last]) := by
  cases connection with
  | unreachable reason =>
    have hbrought : told ++ (Connection.unreachable reason).brought = told := List.append_nil told
    by_cases hopened : .opened ∈ told
    · obtain ⟨last, next, hretry, hlast, hnext⟩ := retry_cases h.attempt h.bounded reason
      rw [← hbrought] at hnext
      refine ⟨last, next, ?_, .lost hopened hlast, hnext, ?_⟩
      · rw [Reader.step, if_pos (h.opened.mpr hopened), hretry]
        rfl
      · rintro r' rfl
        exact h.next (List.mem_append_left _ hopened) hnext
    · refine ⟨_, none, ?_, .unreachable hopened, .stopped, fun r' hr' => by cases hr'⟩
      rw [Reader.step, if_neg (fun honce => hopened (h.opened.mp honce))]
      rfl
  | rejected status =>
    exact ⟨_, none, rfl, .rejected, .stopped, fun r' hr' => by cases hr'⟩
  | accepted events ending =>
    cases ending with
    | ended =>
      refine ⟨_, none, ?_, .finished, .stopped, fun r' hr' => by cases hr'⟩
      rw [← opened_snapshots]
      rfl
    | broken reason =>
      -- the attempts are counted anew, as the stream was open
      have hzero : (0 : UInt32).toNat = 0 := rfl
      have hbounded : ∀ backoff, policy = .backoff backoff → 0 ≤ backoff.maxAttempts :=
        fun backoff _ => by simp
      obtain ⟨last, next, hretry, hlast, hnext⟩ := retry_cases hzero hbounded reason
      have hopened : .opened ∈ told ++ (Connection.accepted events (.broken reason)).brought :=
        List.mem_append_right told List.mem_cons_self
      rw [← retriesSinceOpen_accepted told events (.broken reason)] at hnext
      refine ⟨last, next, ?_, .broken hlast, hnext, ?_⟩
      · rw [Reader.step, ← opened_snapshots]
        simp only [hretry]
      · rintro r' rfl
        exact h.next hopened hnext

/-! ### Connections in order -/

/-- The reader after connections in order, if it goes on. -/
def after? (policy : Reconnection) : Reader → List Connection → Option Reader
  | r, [] => some r
  | r, connection :: connections =>
    (r.step policy connection).2.bind fun r => after? policy r connections

/-- A reader that has stopped leaves out the connections that follow. -/
theorem run_append (before rest : List Connection) (r : Reader) :
    run policy r (before ++ rest) =
      run policy r before ++ (after? policy r before).elim [] fun r => run policy r rest := by
  induction before generalizing r with
  | nil => rfl
  | cons connection before ih =>
    rw [List.cons_append, run, run, after?]
    cases hstep : r.step policy connection with
    | mk inputs next =>
      cases next with
      | none => simp
      | some r' => simp [ih]

/-- **What connections in order keep.** A reader that goes on agrees with all that it has told, and
one that has stopped told of the end last. -/
theorem Agrees.run {told : List Input} {r : Reader} (h : r.Agrees policy told)
    (connections : List Connection) :
    match after? policy r connections with
    | some r' => r'.Agrees policy (told ++ Reader.run policy r connections)
    | none => ∃ before signal, told ++ Reader.run policy r connections = before ++ [.ended signal] ∧
        ∀ other, .ended other ∉ before := by
  induction connections generalizing told r with
  | nil =>
    rw [after?, Reader.run, List.append_nil]
    exact h
  | cons connection connections ih =>
    obtain ⟨last, next, hstep, _, hnext, hagrees⟩ := h.step connection
    rw [after?, Reader.run, hstep]
    cases hnext with
    | @stopped signal =>
      refine ⟨told ++ connection.brought, signal, by simp, fun other hmem => ?_⟩
      rcases List.mem_append.mp hmem with htold | hbrought
      · exact h.goes_on other htold
      · exact connection.ended_not_mem_brought other hbrought
    | @again attempt delay _ _ =>
      have hrun := ih (hagrees _ rfl)
      rw [List.append_assoc, List.append_assoc, ← List.append_assoc connection.brought] at hrun
      exact hrun

/-- Whether an input tells of the end. -/
def tellsEnd (told : List Input) : Prop :=
  ∃ signal, .ended signal ∈ told

/-- A reader that has not told of the end goes on. -/
theorem after?_of_not_tellsEnd {connections : List Connection}
    (h : ¬ tellsEnd (Reader.run policy initial connections)) :
    ∃ r, after? policy initial connections = some r ∧
      r.Agrees policy (Reader.run policy initial connections) := by
  have hrun := (initial_agrees policy).run connections
  cases hafter : after? policy initial connections with
  | some r =>
    rw [hafter] at hrun
    exact ⟨r, rfl, hrun⟩
  | none =>
    rw [hafter] at hrun
    obtain ⟨before, signal, heq, _⟩ := hrun
    refine absurd ⟨signal, ?_⟩ h
    rw [List.nil_append] at heq
    rw [heq]
    exact List.mem_append_right before (List.mem_singleton_self _)

/-- One that has told of it has stopped, and told of it last. -/
theorem after?_of_tellsEnd {connections : List Connection}
    (h : tellsEnd (Reader.run policy initial connections)) :
    after? policy initial connections = none ∧
      ∃ before signal, Reader.run policy initial connections = before ++ [.ended signal] ∧
        ¬ tellsEnd before := by
  have hrun := (initial_agrees policy).run connections
  cases hafter : after? policy initial connections with
  | some r =>
    rw [hafter] at hrun
    obtain ⟨signal, hsignal⟩ := h
    exact absurd hsignal (hrun.goes_on signal)
  | none =>
    rw [hafter] at hrun
    obtain ⟨before, signal, heq, hbefore⟩ := hrun
    exact ⟨rfl, before, signal, heq, fun ⟨other, hother⟩ => hbefore other hother⟩

/-! ### What is told of an attempt -/

/-- An element that does not occur in the first part of a list is found at its end or after it. -/
private theorem split_at_not_mem {α : Type} {x y : α} {first rest before more : List α}
    (hx : x ∉ first) (h : first ++ y :: rest = before ++ x :: more) :
    (before = first ∧ y = x) ∨ ∃ between, before = first ++ y :: between ∧
      rest = between ++ x :: more := by
  induction first generalizing before with
  | nil =>
    cases before with
    | nil => exact .inl ⟨rfl, (List.cons.inj h).1⟩
    | cons b before =>
      obtain ⟨rfl, hrest⟩ := List.cons.inj h
      exact .inr ⟨before, rfl, hrest⟩
  | cons a first ih =>
    rw [List.mem_cons, not_or] at hx
    cases before with
    | nil => exact absurd (List.cons.inj h).1.symm hx.1
    | cons b before =>
      obtain ⟨rfl, htail⟩ := List.cons.inj h
      rcases ih hx.2 htail with ⟨rfl, hy⟩ | ⟨between, rfl, hrest⟩
      · exact .inl ⟨rfl, hy⟩
      · exact .inr ⟨between, rfl, hrest⟩

/-- What is known of an attempt that is told of: its number is the next one since the stream was
last open, it is within the bound, and it has its own wait. -/
def Announced (policy : Reconnection) (told : List Input) (attempt : UInt32) (delay : Nat) : Prop :=
  attempt.toNat = retriesSinceOpen told + 1 ∧ policy.wait? attempt = some delay ∧
    ∃ backoff, policy = .backoff backoff ∧ attempt ≤ backoff.maxAttempts

/-- The attempt after a break is announced as the policy has it. -/
theorem announced_of_afterBreak {retries : Nat} {reason : String} {attempt : UInt32} {delay : Nat}
    {told : List Input} (hretries : retriesSinceOpen told = retries)
    (h : AfterBreak retries reason policy (.reconnecting attempt delay)) :
    Announced policy told attempt delay := by
  cases h with
  | @again backoff _ _ hleft hattempt hdelay =>
    refine ⟨by rw [hretries, hattempt], hdelay, backoff, rfl, ?_⟩
    rw [UInt32.le_iff_toNat_le, hattempt]
    exact hleft

/-- So is the one after a connection. -/
theorem announced_of_verdict {told : List Input} {connection : Connection} {attempt : UInt32}
    {delay : Nat} (h : Verdict policy told connection (.reconnecting attempt delay)) :
    Announced policy (told ++ connection.brought) attempt delay := by
  cases h with
  | lost _ hlast =>
    rw [Connection.brought, List.append_nil]
    exact announced_of_afterBreak rfl hlast
  | broken hlast => exact announced_of_afterBreak (retriesSinceOpen_accepted told _ _) hlast

/-- The attempts that a reader tells of are numbered in order. -/
theorem Agrees.announced {told : List Input} {r : Reader} (h : r.Agrees policy told)
    {connections : List Connection} {before more : List Input} {attempt : UInt32} {delay : Nat}
    (heq : Reader.run policy r connections = before ++ .reconnecting attempt delay :: more) :
    Announced policy (told ++ before) attempt delay := by
  induction connections generalizing told r before with
  | nil => simp [Reader.run] at heq
  | cons connection connections ih =>
    obtain ⟨last, next, hstep, hverdict, hnext, hagrees⟩ := h.step connection
    have hnot := connection.reconnecting_not_mem_brought attempt delay
    rw [Reader.run, hstep] at heq
    cases hnext with
    | stopped =>
      rcases split_at_not_mem hnot heq with ⟨_, hlast⟩ | ⟨between, _, hrest⟩
      · cases hlast
      · simp at hrest
    | again =>
      simp only [List.append_assoc, List.singleton_append] at heq
      rcases split_at_not_mem hnot heq with ⟨rfl, hlast⟩ | ⟨between, rfl, hrest⟩
      · rw [hlast] at hverdict
        exact announced_of_verdict hverdict
      · have hannounced := ih (hagrees _ rfl) hrest
        simpa using hannounced

/-! ### What a reader tells -/

/-- The end is told of last, and once. -/
theorem eq_nil_of_ended {connections : List Connection} {before rest : List Input} {signal : Signal}
    (h : Reader.run policy initial connections = before ++ .ended signal :: rest) :
    rest = [] ∧ ¬ tellsEnd before := by
  have htells : tellsEnd (Reader.run policy initial connections) := by
    rw [h]
    exact ⟨signal, List.mem_append_right before List.mem_cons_self⟩
  obtain ⟨_, told, last, heq, htold⟩ := after?_of_tellsEnd htells
  rw [h] at heq
  rcases List.eq_nil_or_concat rest with rfl | ⟨init, x, rfl⟩
  · obtain ⟨rfl, _⟩ := List.append_inj' heq rfl
    exact ⟨rfl, htold⟩
  · -- otherwise the end would have been told of before
    rw [List.concat_eq_append, ← List.cons_append, ← List.append_assoc] at heq
    obtain ⟨rfl, _⟩ := List.append_inj' heq rfl
    exact absurd ⟨signal, List.mem_append_right before List.mem_cons_self⟩ htold

/-- **What a reader tells.** Whatever becomes of the attempts to open a stream, in order:

* the end is told of at most once, and nothing follows it;
* once it has been told of, no further attempt is made; until then each attempt is told of with
  what the connection brought and then one verdict: a stream that was never open, that the server
  refused or that it ended is closed, one that broke is interrupted or opened again by the policy,
  and it is closed when as many attempts as the policy has are used up;
* an attempt to open the stream again has the next number since it was last open, is within the
  bound and has the wait of its number. -/
theorem tells_in_order (policy : Reconnection) (connections : List Connection) :
    let told := Reader.run policy initial connections
    (∀ before signal rest, told = before ++ .ended signal :: rest →
      rest = [] ∧ ¬ tellsEnd before) ∧
    (∀ before connection rest, connections = before ++ connection :: rest →
      let soFar := Reader.run policy initial before
      (tellsEnd soFar → told = soFar) ∧
      (¬ tellsEnd soFar → ∃ last more, told = soFar ++ connection.brought ++ last :: more ∧
        Verdict policy soFar connection last ∧ (tellsEnd [last] → more = []))) ∧
    (∀ before attempt delay rest, told = before ++ .reconnecting attempt delay :: rest →
      Announced policy before attempt delay) := by
  intro told
  refine ⟨fun before signal rest h => eq_nil_of_ended h, ?_, ?_⟩
  · rintro before connection rest rfl
    intro soFar
    have htold : told = soFar ++ (after? policy initial before).elim [] fun r =>
        Reader.run policy r (connection :: rest) := run_append before (connection :: rest) initial
    refine ⟨fun hends => ?_, fun hends => ?_⟩
    · rw [htold, (after?_of_tellsEnd hends).1]
      exact List.append_nil soFar
    · obtain ⟨r, hr, hagrees⟩ := after?_of_not_tellsEnd hends
      obtain ⟨last, next, hstep, hverdict, hnext, _⟩ := hagrees.step connection
      rw [htold, hr]
      show ∃ last more, soFar ++ Reader.run policy r (connection :: rest) = _ ∧ _
      rw [Reader.run, hstep]
      cases hnext with
      | stopped => exact ⟨_, [], by simp, hverdict, fun _ => rfl⟩
      | @again attempt delay _ _ =>
        refine ⟨_, Reader.run policy ⟨true, attempt⟩ rest, by simp, hverdict, ?_⟩
        rintro ⟨signal, hsignal⟩
        cases List.mem_singleton.mp hsignal
  · intro before attempt delay rest h
    exact (initial_agrees policy).announced h

/-- The attempts are numbered anew after the stream was open. -/
example :
    Reader.run (.backoff ⟨500, 8000, 2⟩) initial
      [.accepted [] (.broken "a"), .unreachable "b", .accepted [] (.broken "c"), .unreachable "d",
        .unreachable "e", .accepted [] .ended] =
      [.opened, .reconnecting 1 500, .reconnecting 2 1000, .opened, .reconnecting 1 500,
        .reconnecting 2 1000, .ended (.closed "gave up after 2 reconnect attempts: e")] := by
  decide +kernel

end Reader

end DropRoom.Room
