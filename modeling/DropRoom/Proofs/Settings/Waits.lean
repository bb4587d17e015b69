import DropRoom.Settings.Reconnection
import Mathlib.Algebra.Group.Nat.Defs

namespace DropRoom

/-!
# Waits before attempts

The wait before an attempt is the first wait, doubled with each attempt, up to the longest one.  It
is computed within 64 bits: the power of two ends there, and so does its product with the first
wait.  As the longest wait is itself a number of 64 bits, neither shows in the result.

* `Backoff.min_mul_factor` — what ends at 64 bits does not show below the longest wait;
* `Backoff.wait?_eq` — the wait by the exact formula;
* `Backoff.wait?_le_wait?` — waits never get shorter;
* `Backoff.wait?_eq_zero_iff`, `Backoff.waits_pos_iff` — when an attempt is made at once, and when
  none is;
* `Reconnection.waits_double_to_longest` — all waits of a policy.
-/

theorem toNat_le_maxUInt64 (n : UInt64) : n.toNat ≤ maxUInt64 :=
  Nat.le_sub_one_of_lt n.toNat_lt_size

namespace Backoff

/-! ### The exact formula -/

theorem factor_of_lt {attempt : Nat} (h : attempt - 1 < 64) : factor attempt = 2 ^ (attempt - 1) :=
  if_pos h

theorem factor_of_le {attempt : Nat} (h : 64 ≤ attempt - 1) : factor attempt = maxUInt64 :=
  if_neg (Nat.not_lt.mpr h)

/-- What a product is cut off at is not below a number of 64 bits. -/
theorem min_saturated (product : Nat) (longest : UInt64) :
    min (min product maxUInt64) longest.toNat = min product longest.toNat := by
  rw [Nat.min_assoc, Nat.min_eq_right (toNat_le_maxUInt64 longest)]

/-- The power of two ends at 64 bits.  Where it does, its product with the first wait is above every
longest wait, be it cut off or not, unless the first wait is none. -/
theorem min_mul_factor (first longest : UInt64) (attempt : Nat) :
    min (first.toNat * factor attempt) longest.toNat =
      min (first.toNat * 2 ^ (attempt - 1)) longest.toNat := by
  by_cases hshort : attempt - 1 < 64
  · rw [factor_of_lt hshort]
  · have hlong : 64 ≤ attempt - 1 := Nat.not_lt.mp hshort
    rw [factor_of_le hlong]
    rcases Nat.eq_zero_or_pos first.toNat with hnone | hsome
    · simp [hnone]
    · have hcut : longest.toNat ≤ first.toNat * maxUInt64 :=
        Nat.le_trans (toNat_le_maxUInt64 longest) (Nat.le_mul_of_pos_left maxUInt64 hsome)
      have hexact : longest.toNat ≤ first.toNat * 2 ^ (attempt - 1) := by
        calc longest.toNat
          _ ≤ 2 ^ 64 := Nat.le_of_lt longest.toNat_lt
          _ ≤ 2 ^ (attempt - 1) := Nat.pow_le_pow_right (by omega) hlong
          _ ≤ first.toNat * 2 ^ (attempt - 1) := Nat.le_mul_of_pos_left _ hsome
      rw [Nat.min_eq_right hcut, Nat.min_eq_right hexact]

theorem wait?_eq (policy : Backoff) (attempt : UInt32) :
    policy.wait? attempt =
      if attempt = 0 ∨ policy.maxAttempts < attempt then none
      else some
        (min (policy.initialDelay.toNat * 2 ^ (attempt.toNat - 1)) policy.maxDelay.toNat) := by
  unfold wait?
  simp only [min_saturated, min_mul_factor]

variable {policy : Backoff} {attempt later : UInt32} {delay delay' : Nat}

theorem wait?_eq_none :
    policy.wait? attempt = none ↔ attempt = 0 ∨ policy.maxAttempts < attempt := by
  rw [wait?_eq]
  split <;> simp_all

theorem wait?_eq_some :
    policy.wait? attempt = some delay ↔ (attempt ≠ 0 ∧ attempt ≤ policy.maxAttempts) ∧
      delay = min (policy.initialDelay.toNat * 2 ^ (attempt.toNat - 1)) policy.maxDelay.toNat := by
  rw [wait?_eq]
  split
  · rename_i hnone
    simp only [reduceCtorEq, false_iff]
    rintro ⟨⟨hne, hle⟩, _⟩
    rcases hnone with rfl | hlt
    · exact hne rfl
    · exact UInt32.not_lt.mpr hle hlt
  · rename_i hsome
    rw [not_or, UInt32.not_lt] at hsome
    rw [Option.some.injEq, eq_comm]
    exact (and_iff_right hsome).symm

/-! ### Waits in order -/

theorem wait?_le_maxDelay (h : policy.wait? attempt = some delay) :
    delay ≤ policy.maxDelay.toNat := by
  obtain ⟨_, rfl⟩ := wait?_eq_some.mp h
  exact Nat.min_le_right _ _

/-- A later attempt is not waited for any shorter. -/
theorem wait?_le_wait? (h : policy.wait? attempt = some delay)
    (hlater : policy.wait? later = some delay') (hle : attempt ≤ later) : delay ≤ delay' := by
  obtain ⟨_, rfl⟩ := wait?_eq_some.mp h
  obtain ⟨_, rfl⟩ := wait?_eq_some.mp hlater
  have hexponent : attempt.toNat - 1 ≤ later.toNat - 1 :=
    Nat.sub_le_sub_right (UInt32.le_iff_toNat_le.mp hle) 1
  have hproduct : policy.initialDelay.toNat * 2 ^ (attempt.toNat - 1) ≤
      policy.initialDelay.toNat * 2 ^ (later.toNat - 1) :=
    Nat.mul_le_mul_left _ (Nat.pow_le_pow_right (by omega) hexponent)
  omega

/-- An attempt is made at once exactly if the first wait or the longest one is none. -/
theorem wait?_eq_zero_iff (h : policy.wait? attempt = some delay) :
    delay = 0 ↔ policy.initialDelay = 0 ∨ policy.maxDelay = 0 := by
  obtain ⟨_, rfl⟩ := wait?_eq_some.mp h
  have hpower : 2 ^ (attempt.toNat - 1) ≠ 0 := Nat.ne_of_gt (Nat.two_pow_pos _)
  rw [Nat.min_eq_zero_iff, Nat.mul_eq_zero, or_iff_left hpower, ← UInt64.toNat_inj,
    ← UInt64.toNat_inj, UInt64.toNat_zero]

/-- Where the longest wait is none, already the first attempt is made at once. -/
theorem wait?_one_of_maxDelay_eq_zero (hnone : policy.maxDelay = 0)
    (hattempts : policy.maxAttempts ≠ 0) : policy.wait? 1 = some 0 := by
  have hbound : (1 : UInt32) ≤ policy.maxAttempts := by
    rw [UInt32.le_iff_toNat_le]
    exact Nat.pos_of_ne_zero fun hzero => hattempts (UInt32.toNat_inj.mp hzero)
  refine wait?_eq_some.mpr ⟨⟨by decide, hbound⟩, ?_⟩
  rw [hnone]
  exact (Nat.min_zero _).symm

/-- After a first wait, all waits are positive exactly if the longest one is, or if there is no
attempt. -/
theorem waits_pos_iff (hfirst : policy.initialDelay ≠ 0) :
    (∀ attempt delay, policy.wait? attempt = some delay → 0 < delay) ↔
      policy.maxDelay ≠ 0 ∨ policy.maxAttempts = 0 := by
  constructor
  · intro hpos
    refine Decidable.or_iff_not_imp_right.mpr fun hattempts hnone => ?_
    exact Nat.lt_irrefl 0 (hpos 1 0 (wait?_one_of_maxDelay_eq_zero hnone hattempts))
  · intro hlongest attempt delay hwait
    rw [Nat.pos_iff_ne_zero, Ne, wait?_eq_zero_iff hwait, not_or]
    refine ⟨hfirst, fun hnone => ?_⟩
    obtain ⟨⟨hattempt, hbound⟩, _⟩ := wait?_eq_some.mp hwait
    rcases hlongest with hlongest | hattempts
    · exact hlongest hnone
    · rw [hattempts, UInt32.le_zero_iff] at hbound
      exact hattempt hbound

end Backoff

/-- **Waits before attempts.** There is no wait, as there is no attempt, with the number zero or
above the bound.  Every other attempt is made after the first wait times a power of two, but after
the longest wait at most, as numbers without a bound have it.  So waits never get shorter, and none
is above the longest one. -/
theorem Reconnection.waits_double_to_longest (policy : Backoff) (attempt : UInt32) :
    let wait? := (Reconnection.backoff policy).wait?
    (wait? attempt = none ↔ attempt = 0 ∨ policy.maxAttempts < attempt) ∧
    (attempt ≠ 0 → attempt ≤ policy.maxAttempts → wait? attempt =
      some (min (policy.initialDelay.toNat * 2 ^ (attempt.toNat - 1)) policy.maxDelay.toNat)) ∧
    (∀ delay, wait? attempt = some delay → delay ≤ policy.maxDelay.toNat ∧
      ∀ later delay', attempt ≤ later → wait? later = some delay' → delay ≤ delay') := by
  intro wait?
  refine ⟨Backoff.wait?_eq_none, fun hne hle => ?_, fun delay hdelay => ⟨?_, ?_⟩⟩
  · exact Backoff.wait?_eq_some.mpr ⟨⟨hne, hle⟩, rfl⟩
  · exact Backoff.wait?_le_maxDelay hdelay
  · intro later delay' hle hlater
    exact Backoff.wait?_le_wait? hdelay hlater hle

/-- Attempt 63 is the last one whose wait 64 bits can hold; the next ones are cut off, and there the
power of two still fits, is the first one that does not, and is far above. -/
theorem Reconnection.waits_double_to_longest_of_64_bits :
    let wait? := (Reconnection.backoff ⟨3, 0xffffffffffffffff, 200⟩).wait?
    wait? 63 = some 13835058055282163712 ∧ wait? 64 = some 18446744073709551615 ∧
      wait? 65 = some 18446744073709551615 ∧ wait? 200 = some 18446744073709551615 ∧
      wait? 201 = none := by
  have hwait (attempt : UInt32) (hne : attempt ≠ 0) (hle : attempt ≤ 200) :=
    (waits_double_to_longest ⟨3, 0xffffffffffffffff, 200⟩ attempt).2.1 hne hle
  exact ⟨hwait 63 (by decide) (by decide), hwait 64 (by decide) (by decide),
    hwait 65 (by decide) (by decide), hwait 200 (by decide) (by decide),
    (waits_double_to_longest ⟨3, 0xffffffffffffffff, 200⟩ 201).1.mpr (by decide)⟩

end DropRoom
