import DropRoom.Proofs.File.Labels
import Mathlib.Algebra.Order.Ring.Abs
import Mathlib.Tactic.Linarith

namespace DropRoom.File

/-!
# Sizes as they are shown

The label of a size stands for a number of bytes that is near the size, and labels of larger sizes
do not stand for less.  Within a unit that is so because rounding keeps the order.  Between two
units it is so because the larger one is a number of the smaller one that is not rounded, which
rounding does not pass from either side.

* `climb_eq` — the unit is the one that divisions by 1024 end at;
* `ofSize_between` — the units of two sizes;
* `tenfold`, `tenfold_mono`, `tenfold_near` — what a label stands for;
* `sizeText_denotes_in_order` — what the texts of all sizes stand for.
-/

/-! ### Units -/

/-- No unit is empty. -/
theorem SizeUnit.bytes_pos (unit : SizeUnit) : 0 < unit.bytes := by
  cases unit <;> decide

/-- Which sizes have which unit. -/
theorem SizeUnit.ofSize_cases (n : Nat) :
    (ofSize n = .b ∧ n < 1024) ∨
    (ofSize n = .kb ∧ 1024 ≤ n ∧ n < 1024 * 1024) ∨
    (ofSize n = .mb ∧ 1024 * 1024 ≤ n ∧ n < 1024 * 1024 * 1024) ∨
    (ofSize n = .gb ∧ 1024 * 1024 * 1024 ≤ n) := by
  by_cases hb : n < 1024
  · exact .inl ⟨if_pos hb, hb⟩
  · by_cases hkb : n < 1024 * 1024
    · exact .inr (.inl ⟨(if_neg hb).trans (if_pos hkb), by omega, hkb⟩)
    · by_cases hmb : n < 1024 * 1024 * 1024
      · refine .inr (.inr (.inl ⟨?_, by omega, hmb⟩))
        exact (if_neg hb).trans ((if_neg hkb).trans (if_pos hmb))
      · refine .inr (.inr (.inr ⟨?_, by omega⟩))
        exact (if_neg hb).trans ((if_neg hkb).trans (if_neg hmb))

/-- Divide a number of units by 1024 as long as it comes to that and there is a larger unit.  A
double that is divided by a power of two is not rounded. -/
def climb (value : ℚ) (unit : SizeUnit) : List SizeUnit → ℚ × SizeUnit
  | [] => (value, unit)
  | next :: larger => if 1024 ≤ value then climb (value / 1024) next larger else (value, unit)

/-- The unit of a size is the one that divisions by 1024 end at. -/
theorem climb_eq (n : Nat) :
    climb n .b [.kb, .mb, .gb] = ((n : ℚ) / (SizeUnit.ofSize n).bytes, SizeUnit.ofSize n) := by
  have hkb : (1024 : ℚ) ≤ n ↔ 1024 ≤ n := by exact_mod_cast Iff.rfl
  have hmb : (1024 : ℚ) ≤ n / 1024 ↔ 1024 * 1024 ≤ n := by
    rw [le_div_iff₀ (by norm_num)]
    exact_mod_cast Iff.rfl
  have hgb : (1024 : ℚ) ≤ n / 1024 / 1024 ↔ 1024 * 1024 * 1024 ≤ n := by
    rw [le_div_iff₀ (by norm_num), le_div_iff₀ (by norm_num)]
    exact_mod_cast Iff.rfl
  simp only [climb, hkb, hmb, hgb]
  rcases SizeUnit.ofSize_cases n with ⟨hunit, hn⟩ | ⟨hunit, hn, hn'⟩ | ⟨hunit, hn, hn'⟩ | ⟨hunit, hn⟩
  · rw [hunit, if_neg (by omega)]
    simp [SizeUnit.bytes]
  · rw [hunit, if_pos (by omega), if_neg (by omega)]
    simp [SizeUnit.bytes]
  · rw [hunit, if_pos (by omega), if_pos (by omega), if_neg (by omega), div_div]
    norm_num [SizeUnit.bytes]
  · rw [hunit, if_pos (by omega), if_pos (by omega), if_pos (by omega), div_div, div_div]
    norm_num [SizeUnit.bytes]

/-- Where two sizes have different units, the larger unit lies between them, and is a number of the
smaller one. -/
theorem ofSize_between {x y : Nat} (h : x ≤ y) (hne : SizeUnit.ofSize x ≠ SizeUnit.ofSize y) :
    (SizeUnit.ofSize x).bytes ∣ (SizeUnit.ofSize y).bytes ∧
      x ≤ (SizeUnit.ofSize y).bytes ∧ (SizeUnit.ofSize y).bytes ≤ y := by
  have hx := SizeUnit.ofSize_cases x
  have hy := SizeUnit.ofSize_cases y
  revert hx hy hne
  cases SizeUnit.ofSize x <;> cases SizeUnit.ofSize y <;>
    simp only [SizeUnit.bytes, ne_eq, reduceCtorEq, not_true_eq_false, false_and, true_and, or_false,
      false_or, false_implies] <;> omega

/-! ### What labels stand for -/

/-- Ten times the number of bytes that the label of a size of 53 significant bits stands for. -/
def tenfold (n : Nat) : Nat :=
  divideToEven (10 * n) (SizeUnit.ofSize n).bytes * (SizeUnit.ofSize n).bytes

/-- A greater size is told as no less. -/
theorem tenfold_mono {x y : Nat} (h : x ≤ y) : tenfold x ≤ tenfold y := by
  by_cases hunit : SizeUnit.ofSize x = SizeUnit.ofSize y
  · rw [tenfold, tenfold, hunit]
    exact Nat.mul_le_mul_right _
      (divideToEven_mono (SizeUnit.bytes_pos _) (Nat.mul_le_mul_left 10 h))
  · -- the larger unit is on both grids of tenths, so neither rounding passes it
    obtain ⟨⟨k, hk⟩, hx, hy⟩ := ofSize_between h hunit
    have hgrid : 10 * (SizeUnit.ofSize y).bytes = 10 * k * (SizeUnit.ofSize x).bytes := by
      rw [hk, Nat.mul_assoc, Nat.mul_comm k]
    have hbelow : 10 * x ≤ 10 * k * (SizeUnit.ofSize x).bytes := by
      rw [← hgrid]
      exact Nat.mul_le_mul_left 10 hx
    calc tenfold x
      _ ≤ 10 * k * (SizeUnit.ofSize x).bytes :=
        Nat.mul_le_mul_right _ (divideToEven_le (SizeUnit.bytes_pos _) hbelow)
      _ = 10 * (SizeUnit.ofSize y).bytes := hgrid.symm
      _ ≤ tenfold y := Nat.mul_le_mul_right _
        (le_divideToEven (SizeUnit.bytes_pos _) (Nat.mul_le_mul_left 10 hy))

/-- A label is off by half a tenth of its unit at most. -/
theorem tenfold_near (n : Nat) :
    2 * tenfold n ≤ 20 * n + (SizeUnit.ofSize n).bytes ∧
      20 * n ≤ 2 * tenfold n + (SizeUnit.ofSize n).bytes := by
  have hlow := le_divideToEven_mul (n := 10 * n) (SizeUnit.bytes_pos (.ofSize n))
  have hhigh := divideToEven_mul_le (n := 10 * n) (SizeUnit.bytes_pos (.ofSize n))
  rw [tenfold]
  omega

/-- Below 1024 a size is told exactly. -/
theorem tenfold_of_lt {n : Nat} (h : n < 1024) : tenfold n = 10 * n := by
  have hbytes : SizeUnit.ofSize n = .b := if_pos h
  rw [tenfold, hbytes]
  show divideToEven (10 * n) 1 * 1 = 10 * n
  rw [divideToEven_one, Nat.mul_one]

/-- What is read from a label is a tenth of the tenfold size. -/
theorem quantity_reading (size : UInt64) :
    (SizeLabel.ofSize size).reading.quantity = (tenfold (roundToDouble size.toNat) : ℚ) / 10 := by
  have hreading : (SizeLabel.ofSize size).reading =
      ⟨(SizeLabel.ofSize size).tenths / 10, (SizeLabel.ofSize size).unit⟩ := rfl
  rw [hreading, SizeReading.quantity, tenths_ofSize, unit_ofSize, tenfold]
  push_cast
  ring

/-- **Sizes as they are shown.** The text of every size is a label, and the one of a larger size
does not stand for fewer bytes.  The text of a size up to 2⁵³ stands for the size, give or take
a twentieth of the unit that is shown, and exactly for the size if that is below 1024. -/
theorem sizeText_denotes_in_order :
    (∀ a b : UInt64, a ≤ b → ∃ said said', SizeReading.ofText? (sizeText a) = some said ∧
      SizeReading.ofText? (sizeText b) = some said' ∧ said.quantity ≤ said'.quantity) ∧
    (∀ n : UInt64, n.toNat ≤ 2 ^ 53 → ∃ said, SizeReading.ofText? (sizeText n) = some said ∧
      |said.quantity - n.toNat| ≤ 0.05 * said.unit.bytes ∧
      (n.toNat < 1024 → said.quantity = n.toNat)) := by
  constructor
  · intro a b hab
    refine ⟨_, _, ofText?_sizeText a, ofText?_sizeText b, ?_⟩
    have hmono : tenfold (roundToDouble a.toNat) ≤ tenfold (roundToDouble b.toNat) :=
      tenfold_mono (roundToDouble_mono (UInt64.le_iff_toNat_le.mp hab))
    rw [quantity_reading, quantity_reading]
    exact div_le_div_of_nonneg_right (by exact_mod_cast hmono) (by norm_num)
  · intro n hn
    refine ⟨_, ofText?_sizeText n, ?_, fun hsmall => ?_⟩
    · have hunit : (SizeLabel.ofSize n).reading.unit = SizeUnit.ofSize n.toNat := by
        rw [← roundToDouble_eq_self hn]
        exact unit_ofSize n
      rw [quantity_reading, hunit, roundToDouble_eq_self hn, abs_le]
      obtain ⟨hhigh, hlow⟩ := tenfold_near n.toNat
      have hhigh : (2 : ℚ) * tenfold n.toNat ≤ 20 * n.toNat + (SizeUnit.ofSize n.toNat).bytes := by
        exact_mod_cast hhigh
      have hlow : (20 : ℚ) * n.toNat ≤ 2 * tenfold n.toNat + (SizeUnit.ofSize n.toNat).bytes := by
        exact_mod_cast hlow
      constructor <;> linarith
    · rw [quantity_reading, roundToDouble_eq_self hn, tenfold_of_lt hsmall]
      push_cast
      ring

/-- The last size below a megabyte is shown as 1024 kilobytes, which is not more than the megabyte
that comes next; at 2⁵³ bytes, the label is a number of gigabytes; and 1023 bytes are just that. -/
theorem sizeText_denotes_in_order_of_last_below :
    sizeText 1048575 = "1024.0 KB" ∧ sizeText 1048576 = "1.0 MB" ∧
      (∃ said said', SizeReading.ofText? (sizeText 1048575) = some said ∧
        SizeReading.ofText? (sizeText 1048576) = some said' ∧ said.quantity ≤ said'.quantity) ∧
      (∃ said, SizeReading.ofText? (sizeText 9007199254740992) = some said ∧
        |said.quantity - 9007199254740992| ≤ 0.05 * said.unit.bytes) ∧
      ∃ said, SizeReading.ofText? (sizeText 1023) = some said ∧ said.quantity = 1023 := by
  obtain ⟨horder, hnear⟩ := sizeText_denotes_in_order
  obtain ⟨most, hmost, herror, _⟩ := hnear 9007199254740992 (by decide)
  obtain ⟨few, hfew, _, hexact⟩ := hnear 1023 (by decide)
  exact ⟨by decide +kernel, by decide +kernel, horder 1048575 1048576 (by decide),
    ⟨most, hmost, herror⟩, few, hfew, hexact (by decide)⟩

end DropRoom.File
