import DropRoom.File.Size
import Mathlib.Data.Nat.Log
import Mathlib.Tactic.Ring

namespace DropRoom.File

/-!
# Rounding

The rounded quotient is known by what it is at most: a number is at least the rounded quotient
exactly if the quotient is below the middle between it and the next one, or in that middle where
the number is even.  All else follows from that.

* `divideToEven_le_iff` — when a number is at least the rounded quotient;
* `divideToEven_mono`, `divideToEven_le`, `le_divideToEven` — rounding keeps the order, and does not
  pass a number that the quotient does not pass;
* `le_divideToEven_mul`, `divideToEven_mul_le` — what is rounded is at most half a divisor away;
* `divideToEven_nearest`, `even_divideToEven_of_tie` — no other number is nearer, and one that is as
  near gives way to an even one;
* `roundToDouble_mono`, `roundToDouble_eq_self` — the numbers of 53 significant bits;
* `isDouble_roundToDouble`, `roundToDouble_nearest` — one of them is taken, and none is nearer.
-/

/-! ### Quotients -/

section Quotient

variable {n m d k : Nat}

/-- A quotient is at most a number exactly if it is below the half after it, or in the middle and
the number is even. -/
theorem divideToEven_le_iff (hd : 0 < d) :
    divideToEven n d ≤ k ↔ 2 * n < (2 * k + 1) * d ∨ (2 * n = (2 * k + 1) * d ∧ k % 2 = 0) := by
  have hsplit : d * (n / d) + n % d = n := Nat.div_add_mod n d
  have hrest : n % d < d := Nat.mod_lt n hd
  have hmiddle : (2 * k + 1) * d = 2 * (d * k) + d := by ring
  rw [hmiddle, divideToEven]
  rcases Nat.lt_trichotomy k (n / d) with hlt | heq | hgt
  · -- the quotient is past the next number
    have hpast : d * k + d ≤ d * (n / d) := by
      rw [← Nat.mul_succ]
      exact Nat.mul_le_mul_left d hlt
    split
    · omega
    · split <;> omega
  · subst heq
    split
    · omega
    · split <;> omega
  · -- the quotient does not reach the number
    have hbefore : d * (n / d) + d ≤ d * k := by
      rw [← Nat.mul_succ]
      exact Nat.mul_le_mul_left d hgt
    split
    · omega
    · split <;> omega

/-- A greater number has no less a quotient. -/
theorem divideToEven_mono (hd : 0 < d) (h : n ≤ m) : divideToEven n d ≤ divideToEven m d := by
  rw [divideToEven_le_iff hd]
  have hm := (divideToEven_le_iff hd).mp (Nat.le_refl (divideToEven m d))
  omega

/-- What is at most a multiple has a quotient that is at most the factor. -/
theorem divideToEven_le (hd : 0 < d) (h : n ≤ k * d) : divideToEven n d ≤ k := by
  rw [divideToEven_le_iff hd, Nat.add_mul, Nat.one_mul, Nat.mul_assoc]
  exact .inl (by omega)

/-- What is at least a multiple has a quotient that is at least the factor. -/
theorem le_divideToEven (hd : 0 < d) (h : k * d ≤ n) : k ≤ divideToEven n d := by
  cases k with
  | zero => exact Nat.zero_le _
  | succ k =>
    have hnot : ¬ divideToEven n d ≤ k := by
      rw [divideToEven_le_iff hd]
      have hmiddle : (2 * k + 1) * d + d = 2 * ((k + 1) * d) := by ring
      omega
    omega

/-- A quotient without a rest is not rounded. -/
theorem divideToEven_mul (hd : 0 < d) : divideToEven (k * d) d = k :=
  Nat.le_antisymm (divideToEven_le hd (Nat.le_refl _)) (le_divideToEven hd (Nat.le_refl _))

@[simp] theorem divideToEven_one (n : Nat) : divideToEven n 1 = n := by
  have h := divideToEven_mul (k := n) Nat.one_pos
  rwa [Nat.mul_one] at h

/-- A quotient is half a unit too small at most. -/
theorem le_divideToEven_mul (hd : 0 < d) : 2 * n ≤ 2 * (divideToEven n d * d) + d := by
  have h := (divideToEven_le_iff hd).mp (Nat.le_refl (divideToEven n d))
  have hmiddle : (2 * divideToEven n d + 1) * d = 2 * (divideToEven n d * d) + d := by ring
  omega

/-- It is half a unit too great at most. -/
theorem divideToEven_mul_le (hd : 0 < d) : 2 * (divideToEven n d * d) ≤ 2 * n + d := by
  cases hk : divideToEven n d with
  | zero => omega
  | succ k =>
    have hnot : ¬ divideToEven n d ≤ k := by omega
    rw [divideToEven_le_iff hd] at hnot
    have hmiddle : (2 * k + 1) * d + d = 2 * ((k + 1) * d) := by ring
    omega

/-- No multiple of the divisor is nearer than the one that is taken. -/
theorem divideToEven_nearest (hd : 0 < d) (k : Nat) :
    ((divideToEven n d * d : Nat) - n : Int).natAbs ≤ ((k * d : Nat) - n : Int).natAbs := by
  have hlow := le_divideToEven_mul (n := n) hd
  have hhigh := divideToEven_mul_le (n := n) hd
  rcases Nat.lt_trichotomy k (divideToEven n d) with hlt | heq | hgt
  · have hstep : (k + 1) * d ≤ divideToEven n d * d := Nat.mul_le_mul_right d hlt
    rw [Nat.succ_mul] at hstep
    omega
  · rw [heq]
  · have hstep : (divideToEven n d + 1) * d ≤ k * d := Nat.mul_le_mul_right d hgt
    rw [Nat.succ_mul] at hstep
    omega

/-- Where another multiple of the divisor is just as near, the one that is taken is even. -/
theorem even_divideToEven_of_tie (hd : 0 < d) (hne : k ≠ divideToEven n d)
    (htie : ((k * d : Nat) - n : Int).natAbs = ((divideToEven n d * d : Nat) - n : Int).natAbs) :
    divideToEven n d % 2 = 0 := by
  have hlow := le_divideToEven_mul (n := n) hd
  have hhigh := divideToEven_mul_le (n := n) hd
  rcases Nat.lt_or_gt_of_ne hne with hlt | hgt
  · -- the quotient is in the middle below the one that is taken
    obtain ⟨before, hbefore⟩ := Nat.exists_eq_succ_of_ne_zero (Nat.ne_of_gt (Nat.zero_lt_of_lt hlt))
    have hstep : (k + 1) * d ≤ divideToEven n d * d := Nat.mul_le_mul_right d hlt
    rw [Nat.succ_mul] at hstep
    have hmiddle : (2 * before + 1) * d + d = 2 * (divideToEven n d * d) := by
      rw [hbefore, Nat.succ_eq_add_one]
      ring
    have hnot : ¬ divideToEven n d ≤ before := by omega
    rw [divideToEven_le_iff hd] at hnot
    omega
  · -- the quotient is in the middle above it
    have hstep : (divideToEven n d + 1) * d ≤ k * d := Nat.mul_le_mul_right d hgt
    rw [Nat.succ_mul] at hstep
    have hmiddle : (2 * divideToEven n d + 1) * d = 2 * (divideToEven n d * d) + d := by ring
    have hself := (divideToEven_le_iff hd).mp (Nat.le_refl (divideToEven n d))
    omega

end Quotient

/-! ### Numbers of 53 significant bits -/

section Double

variable {n m e : Nat}

/-- One unit in the last of the 53 places that a number has as a double. -/
def lastPlace (n : Nat) : Nat :=
  2 ^ (n.log2 - 52)

/-- The last place of a double is not nothing. -/
theorem lastPlace_pos (n : Nat) : 0 < lastPlace n :=
  Nat.two_pow_pos _

/-- A double is a multiple of its last place. -/
theorem roundToDouble_eq (n : Nat) :
    roundToDouble n = divideToEven n (lastPlace n) * lastPlace n :=
  rfl

theorem log2_mono (h : n ≤ m) : n.log2 ≤ m.log2 := by
  rw [Nat.log2_eq_log_two, Nat.log2_eq_log_two]
  exact Nat.log_mono_right h

/-- Powers of two that are not below the last place are on the grid. -/
theorem two_pow_eq_mul_lastPlace (h : n.log2 - 52 ≤ e) :
    2 ^ e = 2 ^ (e - (n.log2 - 52)) * lastPlace n := by
  rw [lastPlace, ← Nat.pow_add, Nat.sub_add_cancel h]

/-- Rounding does not pass a power of two from below, … -/
theorem roundToDouble_le_two_pow (h : n ≤ 2 ^ e) : roundToDouble n ≤ 2 ^ e := by
  have hlog : n.log2 ≤ e := by
    have hmono : n.log2 ≤ (2 ^ e).log2 := log2_mono h
    rwa [Nat.log2_two_pow] at hmono
  have hgrid : 2 ^ e = 2 ^ (e - (n.log2 - 52)) * lastPlace n :=
    two_pow_eq_mul_lastPlace (by omega)
  rw [hgrid] at h ⊢
  rw [roundToDouble_eq]
  exact Nat.mul_le_mul_right _ (divideToEven_le (lastPlace_pos n) h)

/-- … nor from above. -/
theorem two_pow_le_roundToDouble (h : 2 ^ e ≤ n) : 2 ^ e ≤ roundToDouble n := by
  have hsome : n ≠ 0 := by
    have := Nat.two_pow_pos e
    omega
  have hlog : e ≤ n.log2 := (Nat.le_log2 hsome).mpr h
  have hgrid : 2 ^ n.log2 = 2 ^ (n.log2 - (n.log2 - 52)) * lastPlace n :=
    two_pow_eq_mul_lastPlace (by omega)
  have hbelow : 2 ^ (n.log2 - (n.log2 - 52)) * lastPlace n ≤ n := by
    rw [← hgrid]
    exact Nat.log2_self_le hsome
  calc 2 ^ e
    _ ≤ 2 ^ n.log2 := Nat.pow_le_pow_right (by omega) hlog
    _ = 2 ^ (n.log2 - (n.log2 - 52)) * lastPlace n := hgrid
    _ ≤ divideToEven n (lastPlace n) * lastPlace n :=
      Nat.mul_le_mul_right _ (le_divideToEven (lastPlace_pos n) hbelow)

/-- Where the last place is the same, the order is that of the rounded quotients; otherwise there
is a power of two between the two numbers. -/
theorem roundToDouble_mono (h : n ≤ m) : roundToDouble n ≤ roundToDouble m := by
  rcases Nat.lt_or_ge n.log2 m.log2 with hlt | hge
  · have hsome : m ≠ 0 := by
      rintro rfl
      simp at hlt
    calc roundToDouble n
      _ ≤ 2 ^ (n.log2 + 1) := roundToDouble_le_two_pow (Nat.le_of_lt Nat.lt_log2_self)
      _ ≤ 2 ^ m.log2 := Nat.pow_le_pow_right (by omega) hlt
      _ ≤ roundToDouble m := two_pow_le_roundToDouble (Nat.log2_self_le hsome)
  · have hlog : n.log2 = m.log2 := Nat.le_antisymm (log2_mono h) hge
    have hplace : lastPlace n = lastPlace m := by rw [lastPlace, lastPlace, hlog]
    rw [roundToDouble_eq, roundToDouble_eq, hplace]
    exact Nat.mul_le_mul_right _ (divideToEven_mono (lastPlace_pos m) h)

/-- Numbers up to 2⁵³ have no more than 53 significant bits. -/
theorem roundToDouble_eq_self (h : n ≤ 2 ^ 53) : roundToDouble n = n := by
  rcases Nat.lt_or_eq_of_le h with hlt | rfl
  · have hlog : n.log2 - 52 = 0 := by
      rcases Nat.eq_zero_or_pos n with rfl | hpos
      · rfl
      · have hlog : n.log2 < 53 := (Nat.log2_lt (by omega)).mpr hlt
        omega
    rw [roundToDouble_eq, lastPlace, hlog, Nat.pow_zero, divideToEven_one, Nat.mul_one]
  · exact Nat.le_antisymm (roundToDouble_le_two_pow (Nat.le_refl _))
      (two_pow_le_roundToDouble (Nat.le_refl _))

/-- A number of at most 53 significant bits.  The bound itself has one, so it may be reached. -/
def IsDouble (n : Nat) : Prop :=
  ∃ significand e, significand ≤ 2 ^ 53 ∧ n = significand * 2 ^ e

/-- What is rounded is a number that a double can have. -/
theorem isDouble_roundToDouble (n : Nat) : IsDouble (roundToDouble n) := by
  refine ⟨divideToEven n (lastPlace n), n.log2 - 52, ?_, roundToDouble_eq n⟩
  refine divideToEven_le (lastPlace_pos n) ?_
  calc n
    _ ≤ 2 ^ (n.log2 + 1) := Nat.le_of_lt Nat.lt_log2_self
    _ ≤ 2 ^ (53 + (n.log2 - 52)) := Nat.pow_le_pow_right (by omega) (by omega)
    _ = 2 ^ 53 * lastPlace n := Nat.pow_add 2 53 (n.log2 - 52)

/-- **Rounding to a double.** No number of at most 53 significant bits is nearer than the one that
is taken. -/
theorem roundToDouble_nearest (n : Nat) (h : IsDouble m) :
    (roundToDouble n - n : Int).natAbs ≤ (m - n : Int).natAbs := by
  obtain ⟨significand, e, hsignificand, rfl⟩ := h
  have hgrid := divideToEven_nearest (n := n) (lastPlace_pos n)
  rw [roundToDouble_eq]
  rcases Nat.lt_or_ge e (n.log2 - 52) with hfine | hcoarse
  · -- a number with a finer last place is not above the power of two that is the first bit
    have hsome : n ≠ 0 := by
      rintro rfl
      simp at hfine
    have hbelow : significand * 2 ^ e ≤ 2 ^ n.log2 := by
      calc significand * 2 ^ e
        _ ≤ 2 ^ 53 * 2 ^ e := Nat.mul_le_mul_right _ hsignificand
        _ = 2 ^ (53 + e) := (Nat.pow_add 2 53 e).symm
        _ ≤ 2 ^ n.log2 := Nat.pow_le_pow_right (by omega) (by omega)
    have hfirst : 2 ^ n.log2 ≤ n := Nat.log2_self_le hsome
    have hnear := hgrid (2 ^ (n.log2 - (n.log2 - 52)))
    rw [← two_pow_eq_mul_lastPlace (by omega)] at hnear
    omega
  · -- one with the same last place or a coarser one is on the grid
    have hplace : significand * 2 ^ e = significand * 2 ^ (e - (n.log2 - 52)) * lastPlace n := by
      rw [two_pow_eq_mul_lastPlace hcoarse, Nat.mul_assoc]
    rw [hplace]
    exact hgrid _

end Double

end DropRoom.File
