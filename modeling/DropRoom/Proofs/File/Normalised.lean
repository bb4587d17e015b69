import DropRoom.Proofs.File.Sizes

namespace DropRoom.File

/-!
# Labels that reach the next unit

The unit of a size is chosen before the number of units is rounded to tenths.  So the numeral of a
label is never below 1, but rounding may take it up to 1024 of a unit that is not the largest one:
it does so for the sizes that lack at most a twentieth of their unit to the next unit.

* `ten_le_tenths`, `tenths_le` — the tenths are between one unit and the next one;
* `tenths_eq_iff` — when they come to the next unit;
* `sizeText_normalised_unless_below_next` — which sizes are shown so, and how.
-/

variable {n : Nat} {unit : SizeUnit}

/-! ### Tenths of a unit -/

/-- What is no less than its unit is told as no less than one. -/
theorem ten_le_tenths (h : unit.bytes ≤ n) : 10 ≤ divideToEven (10 * n) unit.bytes :=
  le_divideToEven unit.bytes_pos (Nat.mul_le_mul_left 10 h)

/-- What is no more than 1024 of its unit is told as no more. -/
theorem tenths_le (h : n ≤ 1024 * unit.bytes) : divideToEven (10 * n) unit.bytes ≤ 10240 := by
  refine divideToEven_le unit.bytes_pos ?_
  omega

/-- The tenths come to the next unit from the middle between it and the tenth before. -/
theorem tenths_eq_iff (h : n ≤ 1024 * unit.bytes) :
    divideToEven (10 * n) unit.bytes = 10240 ↔ 20479 * unit.bytes ≤ 20 * n := by
  have hle := tenths_le h
  -- of the two tenths next to the middle, the lower one is odd, so that the middle itself goes up
  have hodd := divideToEven_le_iff (n := 10 * n) (k := 10239) unit.bytes_pos
  omega

/-! ### Labels of sizes -/

/-- The text of a size is its label. -/
theorem sizeText_eq_render (size : UInt64) : sizeText size = (SizeLabel.ofSize size).render :=
  rfl

/-- The label of a size that a double holds as it is. -/
theorem ofSize_of_le {size : UInt64} (h : size.toNat ≤ 2 ^ 53)
    (hunit : SizeUnit.ofSize size.toNat = unit) :
    SizeLabel.ofSize size = ⟨divideToEven (10 * size.toNat) unit.bytes, unit⟩ := by
  rw [SizeLabel.ofSize, roundToDouble_eq_self h, hunit]

/-- The label of a size that lies between a unit and the next one. -/
theorem sizeText_of_unit {size : UInt64} (hunit : SizeUnit.ofSize size.toNat = unit)
    (hnext : unit ≠ .gb) (hlow : unit.bytes ≤ size.toNat) (hhigh : size.toNat < 1024 * unit.bytes)
    (hdouble : size.toNat ≤ 2 ^ 53) :
    let said := (SizeLabel.ofSize size).reading
    1 ≤ said.numeral ∧
      ((said.unit ≠ .gb → said.numeral < 1024) ↔ 20 * size.toNat < 20479 * unit.bytes) ∧
      (20479 * unit.bytes ≤ 20 * size.toNat → sizeText size = SizeLabel.render ⟨10240, unit⟩) := by
  intro said
  have hlabel := ofSize_of_le hdouble hunit
  have hsaid : said = ⟨(divideToEven (10 * size.toNat) unit.bytes : ℚ) / 10, unit⟩ := by
    show (SizeLabel.ofSize size).reading = _
    rw [hlabel, SizeLabel.reading]
  have hten : 10 ≤ divideToEven (10 * size.toNat) unit.bytes := ten_le_tenths hlow
  have hle : divideToEven (10 * size.toNat) unit.bytes ≤ 10240 := tenths_le (Nat.le_of_lt hhigh)
  have heq := tenths_eq_iff (Nat.le_of_lt hhigh)
  refine ⟨?_, ?_, fun hmiddle => ?_⟩
  · rw [hsaid, le_div_iff₀ (by norm_num)]
    exact_mod_cast hten
  · rw [hsaid, imp_iff_right hnext, div_lt_iff₀ (by norm_num)]
    have hcast : (divideToEven (10 * size.toNat) unit.bytes : ℚ) < 1024 * 10 ↔
        divideToEven (10 * size.toNat) unit.bytes < 1024 * 10 := by exact_mod_cast Iff.rfl
    rw [hcast]
    omega
  · rw [sizeText_eq_render, hlabel, heq.mpr hmiddle]

/-- The label of a size of a gigabyte and more. -/
theorem reading_of_gigabytes {size : UInt64} (h : 1024 * 1024 * 1024 ≤ size.toNat) :
    (SizeLabel.ofSize size).reading.unit = .gb ∧ 1 ≤ (SizeLabel.ofSize size).reading.numeral := by
  have hdouble : SizeUnit.bytes .gb ≤ roundToDouble size.toNat :=
    two_pow_le_roundToDouble (e := 30) h
  have hlarge : 1024 * 1024 * 1024 ≤ roundToDouble size.toNat := hdouble
  have hunit : (SizeLabel.ofSize size).unit = .gb := by
    rw [unit_ofSize]
    rcases SizeUnit.ofSize_cases (roundToDouble size.toNat) with hb | hkb | hmb | hgb
    · omega
    · omega
    · omega
    · exact hgb.1
  refine ⟨hunit, ?_⟩
  have hten : 10 ≤ (SizeLabel.ofSize size).tenths := by
    rw [tenths_ofSize, hunit]
    exact ten_le_tenths hdouble
  show (1 : ℚ) ≤ (SizeLabel.ofSize size).tenths / 10
  rw [le_div_iff₀ (by norm_num)]
  exact_mod_cast hten

/-- **Labels that reach the next unit.** A size of at least one kilobyte is shown with a numeral of
at least 1.  The numeral is below 1024 unless the unit is the largest one, or the size is one of the
last 51 below a megabyte or the last 52428 below a gigabyte.  These are shown as 1024 of the smaller
unit. -/
theorem sizeText_normalised_unless_below_next (size : UInt64) (h : 1024 ≤ size) :
    ∃ said, SizeReading.ofText? (sizeText size) = some said ∧ 1 ≤ said.numeral ∧
      ((said.unit ≠ .gb → said.numeral < 1024) ↔
        ¬ (1048525 ≤ size ∧ size < 1048576) ∧ ¬ (1073689396 ≤ size ∧ size < 1073741824)) ∧
      (1048525 ≤ size → size < 1048576 → sizeText size = "1024.0 KB") ∧
      (1073689396 ≤ size → size < 1073741824 → sizeText size = "1024.0 MB") := by
  refine ⟨_, ofText?_sizeText size, ?_⟩
  simp only [UInt64.le_iff_toNat_le, UInt64.lt_iff_toNat_lt, UInt64.reduceToNat] at h ⊢
  rcases Nat.lt_or_ge size.toNat (1024 * 1024 * 1024) with hsmall | hlarge
  · -- the size is not rounded before it is divided
    have hdouble : size.toNat ≤ 2 ^ 53 := by omega
    rcases SizeUnit.ofSize_cases size.toNat with ⟨_, hn⟩ | ⟨hunit, hn, hn'⟩ | ⟨hunit, hn, hn'⟩ | ⟨_, hn⟩
    · omega
    · obtain ⟨hone, hlt, htext⟩ := sizeText_of_unit hunit (by decide) hn hn' hdouble
      simp only [SizeUnit.bytes] at hlt htext
      refine ⟨hone, hlt.trans (by omega), fun hlow _ => htext (by omega), by omega⟩
    · obtain ⟨hone, hlt, htext⟩ := sizeText_of_unit hunit (by decide) hn hn' hdouble
      simp only [SizeUnit.bytes] at hlt htext
      refine ⟨hone, hlt.trans (by omega), by omega, fun hlow _ => htext (by omega)⟩
    · omega
  · -- there is no next unit, and both ranges are below
    obtain ⟨hunit, hone⟩ := reading_of_gigabytes hlarge
    refine ⟨hone, iff_of_true (fun hne => absurd hunit hne) (by omega), by omega, by omega⟩

/-- The first size that is shown as 1024 kilobytes, and the one before it. -/
theorem sizeText_normalised_unless_below_next_of_1048525 :
    sizeText 1048525 = "1024.0 KB" ∧ sizeText 1048524 = "1023.9 KB" ∧
      (∃ said, SizeReading.ofText? (sizeText 1048525) = some said ∧
        ¬ (said.unit ≠ .gb → said.numeral < 1024)) ∧
      ∃ said, SizeReading.ofText? (sizeText 1048524) = some said ∧ 1 ≤ said.numeral ∧
        (said.unit ≠ .gb → said.numeral < 1024) := by
  obtain ⟨said, hsaid, _, hnormal, htext, _⟩ :=
    sizeText_normalised_unless_below_next 1048525 (by decide)
  obtain ⟨before, hbefore, hone, hnormal', _⟩ :=
    sizeText_normalised_unless_below_next 1048524 (by decide)
  exact ⟨htext (by decide) (by decide), by decide +kernel,
    ⟨said, hsaid, fun h => absurd (hnormal.mp h) (by decide)⟩,
    before, hbefore, hone, hnormal'.mpr (by decide)⟩

end DropRoom.File
