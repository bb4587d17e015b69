import DropRoom.Proofs.Room.Reconnecting
import DropRoom.Settings.Basic
import Mathlib.Control.Monad.Basic

namespace DropRoom.Room.Reader

/-!
# The count of attempts

The attempts to open a stream again are counted in 32 bits, from the last time that it was open.
They are as many as there are before the reader gives up, and it does so by failing to count one
more.  So the count needs one number more than the bound on attempts.

* `counted?` — the number of attempts that a connection makes a reader count on from;
* `step_of_counted`, `step_of_not_counted` — what a step does with it;
* `counted_le` — it is within the bound on attempts, whatever happened before;
* `after_failures`, `give_up` — connections that fail in a row;
* `counts_unless_bound_is_largest` — when the count stays within 32 bits, and where it ends.
-/

variable {policy : Reconnection} {backoff : Backoff} {r : Reader} {connection : Connection}
  {count : UInt32}

/-! ### What is counted -/

/-- The number of attempts that one more is counted on from, where a connection makes a reader do
so: it failed, and the stream has been open. -/
def counted? (r : Reader) : Connection → Option UInt32
  | .unreachable _ => if r.openedOnce then some r.attempt else none
  | .rejected _ => none
  | .accepted _ .ended => none
  | .accepted _ (.broken _) => some 0

/-- Where attempts are counted, the stream is opened again or given up. -/
theorem step_of_counted (policy : Reconnection) (h : r.counted? connection = some count) :
    ∃ reason, r.step policy connection =
      (connection.brought ++ (retry policy count reason).1, (retry policy count reason).2) := by
  cases connection with
  | unreachable reason =>
    rw [counted?] at h
    split at h
    · rename_i hopened
      obtain rfl := Option.some.inj h
      exact ⟨reason, by rw [step, if_pos hopened]; rfl⟩
    · cases h
  | rejected status => cases h
  | accepted events ending =>
    cases ending with
    | ended => cases h
    | broken reason =>
      obtain rfl := Option.some.inj h
      exact ⟨reason, by rw [step, ← opened_snapshots]⟩

/-- Where they are not, the stream has ended. -/
theorem step_of_not_counted (h : r.counted? connection = none) :
    ∃ reason, r.step policy connection =
      (connection.brought ++ [.ended (.closed reason)], none) := by
  cases connection with
  | unreachable reason =>
    rw [counted?] at h
    split at h
    · cases h
    · rename_i hopened
      exact ⟨_, by rw [step, if_neg hopened]; rfl⟩
  | rejected status => exact ⟨_, rfl⟩
  | accepted events ending =>
    cases ending with
    | ended => exact ⟨_, by rw [← opened_snapshots]; rfl⟩
    | broken reason => cases h

/-- After the stream was open once, a break is counted. -/
theorem counted_of_opened (hopened : r.openedOnce = true) (reason : String) :
    r.counted? (.unreachable reason) = some r.attempt :=
  if_pos hopened

/-- A reader never counts on from more than the bound on attempts. -/
theorem counted_le {connections : List Connection}
    (hafter : after? (.backoff backoff) initial connections = some r)
    (hcount : r.counted? connection = some count) : count ≤ backoff.maxAttempts := by
  have hrun := (initial_agrees (.backoff backoff)).run connections
  rw [hafter] at hrun
  cases connection with
  | unreachable reason =>
    rw [counted?] at hcount
    split at hcount
    · obtain rfl := Option.some.inj hcount
      exact hrun.bounded backoff rfl
    · cases hcount
  | rejected status => cases hcount
  | accepted events ending =>
    cases ending with
    | ended => cases hcount
    | broken reason =>
      obtain rfl := Option.some.inj hcount
      exact UInt32.zero_le

/-! ### Failures in a row -/

/-- The text with which a reader gives up. -/
def gaveUpText (backoff : Backoff) (reason : String) : String :=
  "gave up after " ++ toString backoff.maxAttempts.toNat ++ " reconnect attempts: " ++ reason

/-- As long as attempts are left, the next one is counted. -/
theorem retry_of_left (hleft : count.toNat < backoff.maxAttempts.toNat) (reason : String) :
    ∃ told next, retry (.backoff backoff) count reason = (told, some next) ∧
      next.openedOnce = true ∧ next.attempt.toNat = count.toNat + 1 := by
  have hbounded : ∀ other, Reconnection.backoff backoff = .backoff other →
      count ≤ other.maxAttempts := by
    rintro _ ⟨⟩
    exact UInt32.le_iff_toNat_le.mpr (Nat.le_of_lt hleft)
  obtain ⟨last, next, hretry, hlast, hnext⟩ := retry_cases rfl hbounded reason
  cases hlast with
  | again =>
    cases hnext with
    | again hattempt _ => exact ⟨_, _, hretry, rfl, hattempt⟩
  | gaveUp hnone => omega

/-- After the last one, the reader gives up. -/
theorem retry_of_used_up (backoff : Backoff) (reason : String) :
    retry (.backoff backoff) backoff.maxAttempts reason =
      ([.ended (.closed (gaveUpText backoff reason))], none) := by
  have hbounded : ∀ other, Reconnection.backoff backoff = .backoff other →
      backoff.maxAttempts ≤ other.maxAttempts := by
    rintro _ ⟨⟩
    exact UInt32.le_refl _
  obtain ⟨last, next, hretry, hlast, hnext⟩ := retry_cases rfl hbounded reason
  cases hlast with
  | again hleft => omega
  | gaveUp =>
    cases hnext with
    | stopped => exact hretry

/-- Failures in a row are counted one by one as long as attempts are left. -/
theorem after_failures (hopened : r.openedOnce = true) (reasons : List String)
    (hleft : r.attempt.toNat + reasons.length ≤ backoff.maxAttempts.toNat) :
    ∃ r', after? (.backoff backoff) r (reasons.map .unreachable) = some r' ∧
      r'.openedOnce = true ∧ r'.attempt.toNat = r.attempt.toNat + reasons.length := by
  induction reasons generalizing r with
  | nil => exact ⟨r, rfl, hopened, rfl⟩
  | cons reason reasons ih =>
    rw [List.length_cons] at hleft
    have hone : r.attempt.toNat < backoff.maxAttempts.toNat := by omega
    obtain ⟨why, hstep⟩ := step_of_counted (.backoff backoff) (counted_of_opened hopened reason)
    obtain ⟨told, next, hretry, hnext, hattempt⟩ := retry_of_left hone why
    obtain ⟨r', hafter, hopened', hcount⟩ := ih hnext (by omega)
    refine ⟨r', ?_, hopened', by rw [hcount, hattempt, List.length_cons]; omega⟩
    rw [List.map_cons, after?, hstep, hretry]
    exact hafter

/-- With one failure more than there are attempts left, the reader has given up. -/
theorem give_up (hopened : r.openedOnce = true) (hbound : r.attempt ≤ backoff.maxAttempts)
    (reasons : List String)
    (hmany : backoff.maxAttempts.toNat < r.attempt.toNat + reasons.length) :
    after? (.backoff backoff) r (reasons.map .unreachable) = none ∧
      ∃ told why, run (.backoff backoff) r (reasons.map .unreachable) =
        told ++ [.ended (.closed (gaveUpText backoff why))] := by
  induction reasons generalizing r with
  | nil =>
    have hbound : r.attempt.toNat ≤ backoff.maxAttempts.toNat := hbound
    simp only [List.length_nil] at hmany
    omega
  | cons reason reasons ih =>
    rw [List.length_cons] at hmany
    obtain ⟨why, hstep⟩ := step_of_counted (.backoff backoff) (counted_of_opened hopened reason)
    rw [List.map_cons, after?, run, hstep]
    rcases Nat.lt_or_eq_of_le hbound with hleft | hlast
    · obtain ⟨told, next, hretry, hnext, hattempt⟩ := retry_of_left hleft why
      have hnextBound : next.attempt ≤ backoff.maxAttempts := by
        rw [UInt32.le_iff_toNat_le, hattempt]
        exact hleft
      obtain ⟨hafter, rest, last, hrun⟩ := ih hnext hnextBound (by omega)
      rw [hretry]
      refine ⟨hafter, (Connection.unreachable reason).brought ++ told ++ rest, last, ?_⟩
      simp only [hrun, List.append_assoc]
    · rw [UInt32.toNat_inj.mp hlast, retry_of_used_up]
      exact ⟨rfl, _, _, rfl⟩

/-- The first failure after the stream was open is counted from none. -/
theorem after_break (hleft : 0 < backoff.maxAttempts.toNat) (r : Reader) (events : List PushEvent)
    (reason : String) :
    ∃ told next, r.step (.backoff backoff) (.accepted events (.broken reason)) = (told, some next) ∧
      next.openedOnce = true ∧ next.attempt.toNat = 1 := by
  have hcounted : r.counted? (.accepted events (.broken reason)) = some 0 := rfl
  have hnone : (0 : UInt32).toNat < backoff.maxAttempts.toNat := hleft
  obtain ⟨why, hstep⟩ := step_of_counted (.backoff backoff) hcounted
  obtain ⟨told, next, hretry, hnext, hattempt⟩ := retry_of_left hnone why
  rw [hretry] at hstep
  exact ⟨_, next, hstep, hnext, hattempt⟩

/-- A stream that breaks and is then lost for some time is opened again after each failure, as long
as attempts are left. -/
theorem after_break_and_failures (r : Reader) (events : List PushEvent) (reason : String)
    (reasons : List String) (hleft : reasons.length < backoff.maxAttempts.toNat) :
    ∃ r', after? (.backoff backoff) r
        (.accepted events (.broken reason) :: reasons.map .unreachable) = some r' ∧
      r'.openedOnce = true ∧ r'.attempt.toNat = reasons.length + 1 := by
  have hsome : 0 < backoff.maxAttempts.toNat := by omega
  obtain ⟨told, next, hstep, hopened, hone⟩ := after_break hsome r events reason
  have hrest : next.attempt.toNat + reasons.length ≤ backoff.maxAttempts.toNat := by omega
  obtain ⟨r', hafter, hopened', hcount⟩ := after_failures hopened reasons hrest
  refine ⟨r', ?_, hopened', by omega⟩
  rw [after?, hstep]
  exact hafter

/-- One that is lost for longer is given up. -/
theorem give_up_after_break (r : Reader) (events : List PushEvent) (reason : String)
    (reasons : List String) (hmany : backoff.maxAttempts.toNat ≤ reasons.length) :
    after? (.backoff backoff) r
        (.accepted events (.broken reason) :: reasons.map .unreachable) = none ∧
      ∃ told why, run (.backoff backoff) r
          (.accepted events (.broken reason) :: reasons.map .unreachable) =
        told ++ [.ended (.closed (gaveUpText backoff why))] := by
  rcases Nat.eq_zero_or_pos backoff.maxAttempts.toNat with hnone | hsome
  · -- without any attempt, already the break is one failure too many
    have hcounted : r.counted? (.accepted events (.broken reason)) = some 0 := rfl
    obtain ⟨why, hstep⟩ := step_of_counted (.backoff backoff) hcounted
    have hzero : backoff.maxAttempts = 0 := UInt32.toNat_inj.mp hnone
    have hretry := retry_of_used_up backoff why
    rw [hzero] at hretry
    rw [hretry] at hstep
    rw [after?, run, hstep]
    exact ⟨rfl, _, why, rfl⟩
  · obtain ⟨told, next, hstep, hopened, hone⟩ := after_break hsome r events reason
    have hbound : next.attempt ≤ backoff.maxAttempts := by
      rw [UInt32.le_iff_toNat_le, hone]
      exact hsome
    obtain ⟨hafter, rest, why, hrun⟩ := give_up hopened hbound reasons (by omega)
    rw [after?, run, hstep]
    refine ⟨hafter, told ++ rest, why, ?_⟩
    simp only [hrun, List.append_assoc]

/-- **The count of attempts.** Whatever becomes of its connections, a reader counts attempts within
32 bits, up and down by one, exactly if the bound on attempts is not the largest number of 32 bits.
A stream that breaks, and is then lost for some time, is opened again after each failure as long as
attempts are left, and their count is the number of failures in a row; with one failure more, the
reader has given up, and told of it last. -/
theorem counts_unless_bound_is_largest (backoff : Backoff) :
    let policy := Reconnection.backoff backoff
    let bound := backoff.maxAttempts.toNat
    ((∀ connections r connection count, after? policy initial connections = some r →
        r.counted? connection = some count →
        count.toNat + 1 < UInt32.size ∧ 1 ≤ (count + 1).toNat) ↔
      backoff.maxAttempts ≠ 0xffffffff) ∧
    ∀ (r : Reader) events reason (reasons : List String),
      let failures := Connection.accepted events (.broken reason) :: reasons.map .unreachable
      (reasons.length < bound → ∃ r', after? policy r failures = some r' ∧
        r'.attempt.toNat = reasons.length + 1) ∧
      (bound ≤ reasons.length → after? policy r failures = none ∧
        ∃ told why, run policy r failures =
          told ++ [.ended (.closed (gaveUpText backoff why))]) := by
  intro policy bound
  refine ⟨⟨fun hwithin hlargest => ?_, fun hne connections r connection count hafter hcount => ?_⟩,
    fun r events reason reasons => ⟨fun hleft => ?_, ?_⟩⟩
  · -- as many failures as there are numbers take the count to the largest one
    have hbound : backoff.maxAttempts.toNat = UInt32.size - 1 := by
      rw [hlargest]
      rfl
    have hleft : (List.replicate (UInt32.size - 2) "").length < backoff.maxAttempts.toNat := by
      rw [List.length_replicate, hbound]
      decide
    obtain ⟨r', hafter, hopened, hcount⟩ := after_break_and_failures initial [] "" _ hleft
    rw [List.length_replicate] at hcount
    obtain ⟨hup, _⟩ := hwithin _ r' (.unreachable "") r'.attempt hafter
      (counted_of_opened hopened "")
    have hsize : 2 ≤ UInt32.size := by decide
    omega
  · -- what is counted on from is at most the bound, and that is not the largest number
    have hle : count.toNat ≤ backoff.maxAttempts.toNat := counted_le hafter hcount
    have hlt := backoff.maxAttempts.toNat_lt
    have hlargest : backoff.maxAttempts.toNat ≠ 4294967295 := fun h => hne (UInt32.toNat_inj.mp h)
    have hup : (count + 1).toNat = count.toNat + 1 := by
      rw [UInt32.toNat_add]
      show (count.toNat + 1) % 2 ^ 32 = count.toNat + 1
      omega
    refine ⟨?_, by omega⟩
    show count.toNat + 1 < 4294967296
    omega
  · obtain ⟨r', hafter, _, hcount⟩ := after_break_and_failures r events reason reasons hleft
    exact ⟨r', hafter, hcount⟩
  · exact give_up_after_break r events reason reasons

/-- Settings with a bound of two attempts and with the largest bound pass their check.  With two, a
stream that broke is given up after the third failure; with the largest one, there are connections
that take the count out of its 32 bits. -/
theorem counts_unless_bound_is_largest_of_two_and_largest :
    let spaced (bound : UInt32) : Backoff := ⟨500, 1000, bound⟩
    let settings (bound : UInt32) : Settings :=
      { Settings.ofBaseUrl "http://localhost:8080" with reconnection := .backoff (spaced bound) }
    (settings 2).check = .ok () ∧ (settings 0xffffffff).check = .ok () ∧
      (∃ r', after? (.backoff (spaced 2)) initial
          [.accepted [] (.broken "reset"), .unreachable "refused"] = some r' ∧
        r'.attempt.toNat = 2) ∧
      after? (.backoff (spaced 2)) initial
        [.accepted [] (.broken "reset"), .unreachable "refused", .unreachable "refused"] = none ∧
      ¬ ∀ connections r connection count,
        after? (.backoff (spaced 0xffffffff)) initial connections = some r →
        r.counted? connection = some count →
        count.toNat + 1 < UInt32.size ∧ 1 ≤ (count + 1).toNat := by
  intro spaced settings
  obtain ⟨_, hcourse⟩ := counts_unless_bound_is_largest (spaced 2)
  obtain ⟨hwithin, _⟩ := counts_unless_bound_is_largest (spaced 0xffffffff)
  obtain ⟨hleft, _⟩ := hcourse initial [] "reset" ["refused"]
  obtain ⟨_, hgone⟩ := hcourse initial [] "reset" ["refused", "refused"]
  exact ⟨by decide +kernel, by decide +kernel, hleft (by decide), (hgone (by decide)).1,
    fun hall => hwithin.mp hall rfl⟩

end DropRoom.Room.Reader
