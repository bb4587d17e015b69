import DropRoom.Proofs.Room.Intake

namespace DropRoom.Room.Intake

/-!
# Inputs that are taken in order

Only what the reader of the latest connection has sent is ever taken: all of it, once, and in order,
until the page stops listening to it.

* `Admits` — what may be written down after other entries;
* `Kept`, `Change.kept`, `kept_run` — what holds of the inbox and the log, whatever happens;
* `Change.past` — a reader that the page has stopped listening to is past for good;
* `takes_latest_in_order` — which inputs are taken.
-/

/-- What may be written down after other entries.  A connection attaches a new reader, where the page
listens to none.  A reader sends something after it was attached and before it finishes.  And what is
taken is the next of the inputs of the reader that the page listens to. -/
def Admits (log : List Entry) : Entry → Prop
  | .attached reader =>
    (∀ entry ∈ log, entry.reader? ≠ some reader) ∧ ∀ other, ¬ Listening other log
  | .sent reader _ => .attached reader ∈ log ∧ .finished reader ∉ log
  | .finished reader => .attached reader ∈ log ∧ .finished reader ∉ log
  | .taken reader input =>
    Listening reader log ∧ (sentBy reader log)[(takenOf reader log).length]? = some input
  | .detached => True

/-! ### What always holds -/

/-- The page listens to the reader of an inbox, which holds what was sent and not taken. -/
structure Holds (log : List Entry) (inbox : Inbox) : Prop where
  listening : Listening inbox.reader log
  sent : sentBy inbox.reader log = takenOf inbox.reader log ++ inbox.waiting
  finished : inbox.finished = true ↔ .finished inbox.reader ∈ log

/-- What holds of an inbox and the log, whatever happens. -/
structure Kept (s : Intake) : Prop where
  /-- Readers that will be attached have done nothing yet. -/
  known : ∀ entry ∈ s.log, ∀ reader, entry.reader? = some reader → reader < s.visit.feed.readers
  attached : ∀ reader, Listening reader s.log → s.visit.feed.reader = some reader
  inbox : ∀ inbox, s.visit.feed.inbox = some inbox → Holds s.log inbox
  /-- The page may listen without an inbox if everything was taken and nothing more will come. -/
  drained : s.visit.feed.inbox = none → ∀ reader, Listening reader s.log →
    sentBy reader s.log = takenOf reader s.log ∧ .finished reader ∈ s.log
  lawful : Log.Lawful Admits s.log

section

variable {s : Intake} {v : Visit} {reader : Nat} {input : Input}

/-- Nothing is written down of readers that are still to come. -/
theorem Kept.not_mem_of_le (h : s.Kept) (hreader : s.visit.feed.readers ≤ reader) :
    ∀ entry ∈ s.log, entry.reader? ≠ some reader := by
  intro entry hentry hsome
  exact absurd (h.known entry hentry reader hsome) (Nat.not_lt.mpr hreader)

/-- What leaves the inbox alone leaves the log true. -/
theorem Kept.keep (h : s.Kept) (hsame : s.visit.feed.SameInbox v.feed) : Kept ⟨v, s.log⟩ where
  known entry hentry reader hreader := hsame.readers ▸ h.known entry hentry reader hreader
  attached reader hlistening := hsame.reader.trans (h.attached reader hlistening)
  inbox inbox hinbox := h.inbox inbox (hsame.inbox.symm.trans hinbox)
  drained hinbox := h.drained (hsame.inbox.symm.trans hinbox)
  lawful := h.lawful

/-- The page listens to one reader at a time. -/
theorem Kept.listening_unique (h : s.Kept) {other : Nat} (hreader : Listening reader s.log)
    (hother : Listening other s.log) : reader = other :=
  Option.some.inj ((h.attached reader hreader).symm.trans (h.attached other hother))

/-- A new reader is written down as attached. -/
theorem Kept.attach (h : s.Kept) (hattach : s.visit.feed.attach = .ok v.feed) :
    Kept ⟨v, s.log ++ [.attached s.visit.feed.readers]⟩ := by
  obtain ⟨hfree, hreader, hinbox, hreaders⟩ := Feed.attach_eq_ok hattach
  have hnew := h.not_mem_of_le (Nat.le_refl s.visit.feed.readers)
  -- whoever the page listened to would still be attached
  have hnobody : ∀ other, ¬ Listening other s.log := by
    intro other hlistening
    cases hfree.symm.trans (h.attached other hlistening)
  refine ⟨?_, ?_, ?_, ?_, h.lawful.concat ⟨hnew, hnobody⟩⟩
  · intro entry hentry reader hreader
    rw [hreaders, Nat.lt_succ_iff]
    rcases List.mem_append.mp hentry with hold | hlast
    · exact Nat.le_of_lt (h.known entry hold reader hreader)
    · rw [List.mem_singleton.mp hlast] at hreader
      exact Nat.le_of_eq (Option.some.inj hreader).symm
  · intro reader hlistening
    rw [listening_concat_attached.mp hlistening]
    exact hreader
  · intro inbox hinbox'
    obtain rfl := Option.some.inj (hinbox.symm.trans hinbox')
    refine ⟨listening_concat_attached.mpr rfl, ?_, ?_⟩
    · rw [sentBy_concat, takenOf_concat, sentBy_eq_nil hnew, takenOf_eq_nil hnew]
      rfl
    · have hunfinished : .finished s.visit.feed.readers ∉ s.log := fun hmem => hnew _ hmem rfl
      simp [hunfinished]
  · intro hnone
    cases hinbox.symm.trans hnone

/-- An entry about a reader that was attached concerns no other. -/
theorem Kept.known_concat (h : s.Kept) {entry : Entry} (hreader : entry.reader? = some reader)
    (hattached : .attached reader ∈ s.log) :
    ∀ other ∈ s.log ++ [entry], ∀ about, other.reader? = some about →
      about < s.visit.feed.readers := by
  intro other hother about habout
  rcases List.mem_append.mp hother with hold | hlast
  · exact h.known other hold about habout
  · rw [List.mem_singleton.mp hlast, hreader] at habout
    exact h.known _ hattached about habout

/-- What a reader that can bring something does concerns its own inbox only. -/
theorem Kept.update (h : s.Kept) {entry : Entry} {change : Inbox → Inbox}
    (hreader : entry.reader? = some reader) (hstops : ¬ entry.Stops) (hactive : s.Active reader)
    (hadmits : Admits s.log entry) (hfeed : v.feed = s.visit.feed.updateInbox reader change)
    (hholds : ∀ inbox, inbox.reader = reader → inbox.finished = false → Holds s.log inbox →
      Holds (s.log ++ [entry]) (change inbox)) : Kept ⟨v, s.log ++ [entry]⟩ := by
  have hlisteningTo (other : Nat) : Listening other (s.log ++ [entry]) ↔ Listening other s.log :=
    listening_concat_of_not_stops hstops
  have hother {other : Nat} (hne : other ≠ reader) : entry.reader? ≠ some other := by
    rw [hreader]
    exact fun hsame => hne (Option.some.inj hsame).symm
  have hinbox' := Feed.inbox_updateInbox s.visit.feed reader change
  rw [← hfeed] at hinbox'
  refine ⟨?_, ?_, ?_, ?_, h.lawful.concat hadmits⟩
  · rw [hfeed, Feed.readers_updateInbox]
    exact h.known_concat hreader hactive.1
  · intro other hlistening
    rw [hfeed, Feed.reader_updateInbox]
    exact h.attached other ((hlisteningTo other).mp hlistening)
  · intro inbox hinbox
    rw [hinbox', Option.map_eq_some_iff] at hinbox
    obtain ⟨old, hold, rfl⟩ := hinbox
    have hkept := h.inbox old hold
    by_cases hsame : old.reader = reader
    · have hunfinished : old.finished = false :=
        Bool.eq_false_iff.mpr fun hover => hactive.2 (hsame ▸ hkept.finished.mp hover)
      rw [if_pos hsame]
      exact hholds old hsame hunfinished hkept
    · have habout := hother hsame
      have hfinished : .finished old.reader ≠ entry := by
        rintro rfl
        exact habout rfl
      rw [if_neg hsame]
      refine ⟨(hlisteningTo _).mpr hkept.listening, ?_, by simpa [hfinished] using hkept.finished⟩
      rw [sentBy_concat_of_other habout, takenOf_concat_of_other habout]
      exact hkept.sent
  · -- who was drained has finished, and is none that can bring something
    intro hinbox other hlistening
    rw [hinbox', Option.map_eq_none_iff] at hinbox
    obtain ⟨hsent, hfinished⟩ := h.drained hinbox other ((hlisteningTo other).mp hlistening)
    have habout := hother fun hsame => hactive.2 (hsame ▸ hfinished)
    refine ⟨?_, List.mem_append_left _ hfinished⟩
    rw [sentBy_concat_of_other habout, takenOf_concat_of_other habout, hsent]

/-- What a reader sends is written down as sent, and waits in its inbox. -/
theorem Kept.bring (h : s.Kept) (hactive : s.Active reader)
    (hfeed : v.feed = s.visit.feed.deliver reader input) :
    Kept ⟨v, s.log ++ [.sent reader input]⟩ := by
  refine h.update rfl id hactive hactive hfeed fun inbox hreader hunfinished hkept => ?_
  simp only [hunfinished, Bool.false_eq_true, if_false]
  refine ⟨(listening_concat_of_not_stops id).mpr hkept.listening, ?_, ?_⟩
  · rw [sentBy_concat, takenOf_concat, hkept.sent]
    simp [Entry.sent?, Entry.taken?, hreader]
  · simpa [hunfinished] using hkept.finished

/-- That a reader finishes is written down. -/
theorem Kept.finish (h : s.Kept) (hactive : s.Active reader)
    (hfeed : v.feed = s.visit.feed.finish reader) : Kept ⟨v, s.log ++ [.finished reader]⟩ := by
  refine h.update rfl id hactive hactive hfeed fun inbox hreader _ hkept => ?_
  refine ⟨(listening_concat_of_not_stops id).mpr hkept.listening, ?_, by simp [hreader]⟩
  rw [sentBy_concat, takenOf_concat, hkept.sent]
  simp [Entry.sent?, Entry.taken?]

/-- The page does not listen to a reader that was never attached, and the inbox of one that has finished
stays as it is. -/
theorem Kept.stray (h : s.Kept) {change : Inbox → Inbox} (hactive : ¬ s.Active reader)
    (hchange : ∀ inbox, inbox.finished = true → change inbox = inbox)
    (hfeed : v.feed = s.visit.feed.updateInbox reader change) : Kept ⟨v, s.log⟩ := by
  refine h.keep ⟨?_, ?_, ?_⟩
  · rw [hfeed, Feed.inbox_updateInbox]
    cases hinbox : s.visit.feed.inbox with
    | none => rfl
    | some inbox =>
      obtain ⟨hlistening, _, hfinished⟩ := h.inbox inbox hinbox
      rw [Option.map_some]
      split
      · rename_i hreader
        have hover : .finished reader ∈ s.log := by
          refine Decidable.byContradiction fun hmem => hactive ⟨?_, hmem⟩
          exact hreader ▸ hlistening.attached_mem
        rw [hchange inbox (hfinished.mpr (hreader ▸ hover))]
      · rfl
  · rw [hfeed, Feed.reader_updateInbox]
  · rw [hfeed, Feed.readers_updateInbox]

/-- What is taken is the next of what was sent. -/
theorem Kept.take (h : s.Kept) {waiting : List Input} {finished : Bool}
    (hinbox : s.visit.feed.inbox = some ⟨reader, input :: waiting, finished⟩)
    (hfeed : v.feed = { s.visit.feed with inbox := some ⟨reader, waiting, finished⟩ }) :
    Kept ⟨v, s.log ++ [.taken reader input]⟩ := by
  have hstops : ¬ (Entry.taken reader input).Stops := id
  obtain ⟨hlistening, hsent, hfinished⟩ := h.inbox _ hinbox
  refine ⟨?_, ?_, ?_, ?_, h.lawful.concat ⟨hlistening, ?_⟩⟩
  · have hreaders : v.feed.readers = s.visit.feed.readers := by rw [hfeed]
    simp only [hreaders]
    exact h.known_concat rfl hlistening.attached_mem
  · intro other hother
    rw [listening_concat_of_not_stops hstops] at hother
    rw [hfeed]
    exact h.attached other hother
  · intro inbox hnew
    rw [hfeed] at hnew
    obtain rfl := Option.some.inj hnew
    refine ⟨(listening_concat_of_not_stops hstops).mpr hlistening, ?_, by simpa using hfinished⟩
    rw [sentBy_concat, takenOf_concat, hsent]
    simp [Entry.sent?, Entry.taken?]
  · intro hnone
    rw [hfeed] at hnone
    cases hnone
  · rw [hsent]
    simp

/-- An inbox that is empty for good is taken away, and nothing is lost with it. -/
theorem Kept.drain (h : s.Kept) (hinbox : s.visit.feed.inbox = some ⟨reader, [], true⟩)
    (hfeed : v.feed = { s.visit.feed with inbox := none }) : Kept ⟨v, s.log⟩ := by
  obtain ⟨hlistening, hsent, hfinished⟩ := h.inbox _ hinbox
  refine ⟨?_, ?_, ?_, ?_, h.lawful⟩
  · rw [hfeed]
    exact h.known
  · rw [hfeed]
    exact h.attached
  · intro inbox hnew
    rw [hfeed] at hnew
    cases hnew
  · intro _ other hother
    obtain rfl : reader = other := h.listening_unique hlistening hother
    exact ⟨hsent.trans (List.append_nil _), hfinished.mp rfl⟩

/-- Once the page does not listen any more, nothing waits for it. -/
theorem Kept.detach (h : s.Kept) (hdetached : s.visit.feed.Detached v.feed) :
    Kept ⟨v, s.log ++ [.detached]⟩ := by
  refine ⟨?_, ?_, ?_, ?_, h.lawful.concat trivial⟩
  · intro entry hentry reader hreader
    rw [hdetached.readers]
    rcases List.mem_append.mp hentry with hold | hlast
    · exact h.known entry hold reader hreader
    · rw [List.mem_singleton.mp hlast] at hreader
      cases hreader
  · exact fun reader hlistening => absurd hlistening not_listening_concat_detached
  · intro inbox hinbox
    rw [hdetached.inbox] at hinbox
    cases hinbox
  · exact fun _ reader hlistening => absurd hlistening not_listening_concat_detached

end

/-- **Whatever happens to the inbox** keeps it so. -/
theorem Change.kept {s s' : Intake} (change : s.Change s') (h : s.Kept) : s'.Kept := by
  cases change with
  | keep hsame => exact h.keep hsame
  | attach hattach => exact h.attach hattach
  | bring hactive hfeed => exact h.bring hactive hfeed
  | finish hactive hfeed => exact h.finish hactive hfeed
  | stray hactive hchange hfeed => exact h.stray hactive hchange hfeed
  | take hinbox hfeed => exact h.take hinbox hfeed
  | drain hinbox hfeed => exact h.drain hinbox hfeed
  | detach hdetached => exact h.detach hdetached

/-- A visit that has just begun, of which nothing was written down. -/
def start (setup : Page.Setup) (url : Url) (username : Option String)
    (delay actionDelay : UInt64) : Intake :=
  ⟨.initial setup url username delay actionDelay, []⟩

/-- The log is true in every run. -/
theorem kept_run (setup : Page.Setup) (url : Url) (username : Option String)
    (delay actionDelay : UInt64) (turns : List Turn) :
    ((start setup url username delay actionDelay).run turns).Kept := by
  refine run_induction (motive := Kept) (fun _ _ change h => change.kept h) turns ?_
  refine ⟨?_, ?_, ?_, ?_, Log.lawful_nil⟩
  · exact fun entry hentry => absurd hentry List.not_mem_nil
  · exact fun reader hlistening => absurd hlistening Log.not_stands_nil
  · exact fun inbox hinbox => nomatch hinbox
  · exact fun _ reader hlistening => absurd hlistening Log.not_stands_nil

/-! ### Readers that the page does not listen to any more -/

/-- The page has listened to a reader and has stopped. -/
def Past (s : Intake) (reader : Nat) : Prop :=
  .attached reader ∈ s.log ∧ ¬ Listening reader s.log

/-- The page never listens to a reader again, and nothing is taken of it any more. -/
theorem Change.past {s s' : Intake} (change : s.Change s') (hkept : s.Kept) {reader : Nat}
    (h : s.Past reader) :
    s'.Past reader ∧ takenOf reader s'.log = takenOf reader s.log := by
  have hconcat {entry : Entry} (hnew : entry ≠ .attached reader)
      (htaken : entry.taken? reader = none) :
      (.attached reader ∈ s.log ++ [entry] ∧ ¬ Listening reader (s.log ++ [entry])) ∧
        takenOf reader (s.log ++ [entry]) = takenOf reader s.log := by
    refine ⟨⟨List.mem_append_left _ h.1, ?_⟩, ?_⟩
    · rw [listening_concat]
      rintro (hattached | ⟨_, hlistening⟩)
      · exact hnew hattached
      · exact h.2 hlistening
    · rw [takenOf_concat, htaken]
      exact List.append_nil _
  cases change with
  | keep hsame => exact ⟨h, rfl⟩
  | attach hattach =>
    refine hconcat ?_ rfl
    -- a reader that is attached was not there before
    intro hentry
    have hlt := hkept.known _ h.1 reader rfl
    rw [Entry.attached.inj hentry] at hlt
    exact Nat.lt_irrefl _ hlt
  | bring hactive hfeed => exact hconcat nofun rfl
  | finish hactive hfeed => exact hconcat nofun rfl
  | stray hactive hchange hfeed => exact ⟨h, rfl⟩
  | @take _ other input _ _ hinbox hfeed =>
    -- the page listens to the reader of whom something is taken
    refine hconcat nofun (if_neg ?_)
    rintro rfl
    exact h.2 (hkept.inbox _ hinbox).listening
  | drain hinbox hfeed => exact ⟨h, rfl⟩
  | detach hdetached => exact hconcat nofun rfl

/-- Of a reader that is past nothing is taken any more. -/
theorem takenOf_run_of_past {s : Intake} (hkept : s.Kept) {reader : Nat} (h : s.Past reader)
    (later : List Turn) : takenOf reader (s.run later).log = takenOf reader s.log := by
  have hrun := run_induction
    (motive := fun s' => s'.Kept ∧ s'.Past reader ∧ takenOf reader s'.log = takenOf reader s.log)
    (fun s' s'' change ⟨hkept', hpast', hsame⟩ => by
      obtain ⟨hpast'', hstep⟩ := change.past hkept' hpast'
      exact ⟨change.kept hkept', hpast'', hstep.trans hsame⟩)
    later ⟨hkept, h, rfl⟩
  exact hrun.2.2

/-! ### What is taken -/

/-- What is taken of a reader is the first part of what it has sent. -/
theorem takenOf_prefix_sentBy {log : List Entry} (h : Log.Lawful Admits log) (reader : Nat) :
    takenOf reader log <+: sentBy reader log := by
  refine Log.Lawful.induction (motive := fun log => takenOf reader log <+: sentBy reader log)
    (List.nil_prefix) (fun log entry _ hentry ih => ?_) h
  rw [takenOf_concat, sentBy_concat]
  obtain ⟨rest, hrest⟩ := ih
  cases htaken : entry.taken? reader with
  | none => exact ⟨rest ++ (entry.sent? reader).toList, by rw [← hrest]; simp⟩
  | some input =>
    -- it is the next one, so something was left
    cases entry with
    | taken other found =>
      rw [Entry.taken?] at htaken
      split at htaken
      · rename_i hother
        subst hother
        obtain rfl := Option.some.inj htaken
        have hnext := hentry.2
        rw [← hrest, List.getElem?_append_right (Nat.le_refl _), Nat.sub_self] at hnext
        cases rest with
        | nil => cases hnext
        | cons next rest =>
          obtain rfl := Option.some.inj hnext
          exact ⟨rest, by simp [← hrest, Entry.sent?]⟩
      · cases htaken
    | attached _ => cases htaken
    | sent _ _ => cases htaken
    | finished _ => cases htaken
    | detached => cases htaken

/-- The next input is the next of those of the reader that the page listens to. -/
theorem Kept.nextInput_of_listening {s : Intake} (h : s.Kept) {reader : Nat}
    (hlistening : Listening reader s.log) :
    s.visit.nextInput.1 = match (sentBy reader s.log)[(takenOf reader s.log).length]? with
      | some input => .input input
      | none => if .finished reader ∈ s.log then .ended else .nothingYet := by
  unfold Visit.nextInput Feed.takeInput
  cases hinbox : s.visit.feed.inbox with
  | none =>
    obtain ⟨hsent, hfinished⟩ := h.drained hinbox reader hlistening
    simp [hsent, hfinished]
  | some inbox =>
    obtain ⟨hholds, hsent, hfinished⟩ := h.inbox inbox hinbox
    obtain ⟨found, waiting, finished⟩ := inbox
    obtain rfl : found = reader := h.listening_unique hholds hlistening
    rw [hsent]
    cases waiting with
    | cons input waiting => simp
    | nil => cases finished <;> simp_all

/-- Where the page listens to no reader there is no input. -/
theorem Kept.nextInput_of_not_listening {s : Intake} (h : s.Kept)
    (hnobody : ∀ reader, ¬ Listening reader s.log) : s.visit.nextInput.1 = .ended := by
  have hnone : s.visit.feed.inbox = none := by
    refine Option.eq_none_iff_forall_ne_some.mpr fun inbox hinbox => ?_
    exact hnobody _ (h.inbox inbox hinbox).listening
  unfold Visit.nextInput Feed.takeInput
  rw [hnone]

/-- What is taken up is written down, and nothing comes between. -/
theorem takeUp_of_input {s : Intake} (h : s.Kept) {input : Input}
    (hnext : s.visit.nextInput.1 = .input input) :
    ∃ reader, Listening reader s.log ∧ s.takeUp.visit = s.visit.nextInput.2.handle input ∧
      s.log ++ [.taken reader input] <+: s.takeUp.log := by
  have htakeUp : s.takeUp =
      (s.move (.stream .nextInput)).move (.stream (.handle input)) := by
    rw [takeUp, hnext]
  cases hinbox : s.visit.feed.inbox with
  | none =>
    unfold Visit.nextInput Feed.takeInput at hnext
    rw [hinbox] at hnext
    cases hnext
  | some inbox =>
    refine ⟨inbox.reader, (h.inbox inbox hinbox).listening, by rw [htakeUp]; rfl, ?_⟩
    have hnoted : s.noted .nextInput = [.taken inbox.reader input] := by
      rw [noted, hinbox, hnext]
    rw [htakeUp, ← hnoted]
    exact List.prefix_append _ _

/-- **The latest reader, in order.** Whatever happens to a visit, and whatever readers do meanwhile: a
connection attaches a new reader, where the page listens to none; and what is taken is always the next
of the inputs that the reader of the latest connection has sent.  So what is taken of a reader is the
first part of what it sent, in the order in which it was sent.

As long as the page listens, nothing is lost: the next input is the first that was sent and not taken,
if there is one.  Once the page has stopped listening, nothing of the reader is taken any more, whatever
it still sends and whatever else happens; and where the page listens to none there is no input.  What is
taken up is the input that was taken, at once. -/
theorem takes_latest_in_order (setup : Page.Setup) (url : Url) (username : Option String)
    (delay actionDelay : UInt64) (turns : List Turn) :
    let s := (start setup url username delay actionDelay).run turns
    Log.Lawful Admits s.log ∧
    (∀ reader, takenOf reader s.log <+: sentBy reader s.log) ∧
    (∀ reader, Listening reader s.log →
      s.visit.nextInput.1 = match (sentBy reader s.log)[(takenOf reader s.log).length]? with
        | some input => .input input
        | none => if .finished reader ∈ s.log then .ended else .nothingYet) ∧
    (∀ reader, .attached reader ∈ s.log → ¬ Listening reader s.log →
      ∀ later, takenOf reader (s.run later).log = takenOf reader s.log) ∧
    ((∀ reader, ¬ Listening reader s.log) → s.visit.nextInput.1 = .ended) ∧
    (∀ input, s.visit.nextInput.1 = .input input →
      ∃ reader, Listening reader s.log ∧
        (s.turn .takeUp).visit = s.visit.nextInput.2.handle input ∧
        s.log ++ [.taken reader input] <+: (s.turn .takeUp).log) := by
  intro s
  have hkept : s.Kept := kept_run setup url username delay actionDelay turns
  refine ⟨hkept.lawful, takenOf_prefix_sentBy hkept.lawful, ?_, ?_, ?_, ?_⟩
  · exact fun reader hlistening => hkept.nextInput_of_listening hlistening
  · exact fun reader hattached hstopped => takenOf_run_of_past hkept ⟨hattached, hstopped⟩
  · exact fun hnobody => hkept.nextInput_of_not_listening hnobody
  · exact fun input hnext => takeUp_of_input hkept hnext

end DropRoom.Room.Intake
