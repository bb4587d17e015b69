import DropRoom.File.Size
import DropRoom.Proofs.File.Rounding
import DropRoom.Proofs.Text.Digits
import Mathlib.Algebra.Order.Field.Rat
import Mathlib.Tactic.FieldSimp

namespace DropRoom.File

/-!
# Labels as they are read

A label is a numeral, a blank and the symbol of a unit.  It stands for as many bytes as the numeral
times the unit.

* `numeral?` — the number that a numeral stands for, be it with a fraction or without;
* `SizeReading`, `SizeReading.ofText?` — what a text says as a label;
* `SizeReading.quantity` — the bytes that it stands for;
* `ofText?_render` — a label is read as it was meant;
* `ofText?_sizeText` — every size is shown as a label.
-/

open DropRoom.Text

/-! ### Reading -/

/-- The number that some digits, and nothing but digits, stand for. -/
def digits? (cs : List Char) : Option Nat :=
  if !cs.isEmpty && cs.all isDigit then some (digitsValue cs) else none

/-- The number that a numeral stands for: digits, and those of a fraction if there is a point. -/
def numeral? (cs : List Char) : Option ℚ :=
  match cut '.' cs with
  | none => (digits? cs).map fun (whole : Nat) => (whole : ℚ)
  | some (before, after) =>
    (digits? before).bind fun (whole : Nat) =>
      (digits? after).map fun (fraction : Nat) => (whole : ℚ) + fraction / 10 ^ after.length

/-- The unit with a symbol. -/
def SizeUnit.ofSymbol? (symbol : List Char) : Option SizeUnit :=
  [SizeUnit.b, .kb, .mb, .gb].find? fun unit => unit.symbol.toList = symbol

/-- What a label says: a number of units. -/
structure SizeReading where
  numeral : ℚ
  unit : SizeUnit

/-- What a text says as a label. -/
def SizeReading.ofText? (text : String) : Option SizeReading :=
  (cut ' ' text.toList).bind fun (before, after) =>
    (numeral? before).bind fun numeral =>
      (SizeUnit.ofSymbol? after).map fun unit => ⟨numeral, unit⟩

/-- The number of bytes that a label stands for. -/
def SizeReading.quantity (reading : SizeReading) : ℚ :=
  reading.numeral * reading.unit.bytes

/-- What a label is meant to say. -/
def SizeLabel.reading (label : SizeLabel) : SizeReading :=
  ⟨label.tenths / 10, label.unit⟩

/-! ### Parts of a label -/

section Parts

variable {sep : Char} {before after : List Char}

/-- A text without the mark is not cut. -/
theorem cut_of_not_mem (h : sep ∉ before) : cut sep before = none := by
  induction before with
  | nil => rfl
  | cons c cs ih =>
    obtain ⟨hc, hcs⟩ := not_or.mp (mt List.mem_cons.mpr h)
    rw [cut, if_neg (Ne.symm hc), ih hcs, Option.map_none]

/-- A text is cut at the first separator. -/
theorem cut_append_cons (h : sep ∉ before) (after : List Char) :
    cut sep (before ++ sep :: after) = some (before, after) := by
  induction before with
  | nil => exact if_pos rfl
  | cons c cs ih =>
    obtain ⟨hc, hcs⟩ := not_or.mp (mt List.mem_cons.mpr h)
    rw [List.cons_append, cut, if_neg (Ne.symm hc), ih hcs, Option.map_some]

end Parts

/-- A numeral has no mark in it. -/
theorem not_mem_digitsOf {mark : Char} (hmark : isDigit mark = false) (n : Nat) :
    mark ∉ digitsOf n :=
  fun hmem => ne_of_isDigit (isDigit_of_mem_digitsOf hmem) hmark rfl

/-- The digits of a number are read as that number. -/
theorem digits?_digitsOf (n : Nat) : digits? (digitsOf n) = some n := by
  have hsome : (digitsOf n).isEmpty = false :=
    Bool.eq_false_iff.mpr (mt List.isEmpty_iff.mp (digitsOf_ne_nil n))
  have hall : (digitsOf n).all isDigit = true :=
    List.all_eq_true.mpr fun _ => isDigit_of_mem_digitsOf
  rw [digits?, hsome, hall, digitsValue_digitsOf]
  rfl

/-- So they are where tenths may follow. -/
theorem numeral?_whole (n : Nat) : numeral? (digitsOf n) = some (n : ℚ) := by
  rw [numeral?, cut_of_not_mem (not_mem_digitsOf (by decide) n), digits?_digitsOf]
  rfl

/-- A number of tenths is written with one digit after the point. -/
theorem numeral?_tenths (n : Nat) :
    numeral? (digitsOf (n / 10) ++ '.' :: digitsOf (n % 10)) = some ((n : ℚ) / 10) := by
  have hdigit : (digitsOf (n % 10)).length = 1 := by
    rw [digitsOf, Nat.toDigits_of_lt_base (Nat.mod_lt n (by decide)), List.length_singleton]
  have hsplit : (n : ℚ) = 10 * (n / 10 : Nat) + (n % 10 : Nat) := by
    exact_mod_cast (Nat.div_add_mod n 10).symm
  rw [numeral?, cut_append_cons (not_mem_digitsOf (by decide) _)]
  simp only [digits?_digitsOf, Option.bind_some, Option.map_some, hdigit, pow_one]
  rw [hsplit]
  congr 1
  field_simp

/-- The symbol of a unit is read as that unit. -/
theorem SizeUnit.ofSymbol?_symbol (unit : SizeUnit) :
    SizeUnit.ofSymbol? unit.symbol.toList = some unit := by
  cases unit <;> decide

/-! ### Labels -/

variable {label : SizeLabel}

/-- A label in octets is a numeral without tenths and its unit. -/
theorem toList_render_of_bytes (h : label.unit = .b) :
    label.render.toList = digitsOf (label.tenths / 10) ++ ' ' :: label.unit.symbol.toList := by
  rw [SizeLabel.render, h]
  simp

/-- Any other label has one place of tenths. -/
theorem toList_render_of_larger (h : label.unit ≠ .b) :
    label.render.toList = digitsOf (label.tenths / 10) ++ '.' :: digitsOf (label.tenths % 10) ++
      ' ' :: label.unit.symbol.toList := by
  rw [SizeLabel.render]
  split
  · exact absurd ‹_› h
  · simp

/-- A text is read as what its numeral and its unit say. -/
theorem ofText?_of_toList {text : String} {numeral : List Char} {value : ℚ} {unit : SizeUnit}
    (htext : text.toList = numeral ++ ' ' :: unit.symbol.toList) (hblank : ' ' ∉ numeral)
    (hvalue : numeral? numeral = some value) :
    SizeReading.ofText? text = some ⟨value, unit⟩ := by
  rw [SizeReading.ofText?, htext, cut_append_cons hblank]
  simp only [Option.bind_some, hvalue, SizeUnit.ofSymbol?_symbol, Option.map_some]

/-- A label is read as it was meant, if bytes are whole. -/
theorem ofText?_render (hwhole : label.unit = .b → label.tenths % 10 = 0) :
    SizeReading.ofText? label.render = some label.reading := by
  have hblank (n : Nat) : ' ' ∉ digitsOf n := not_mem_digitsOf (by decide) n
  by_cases hbytes : label.unit = .b
  · rw [ofText?_of_toList (toList_render_of_bytes hbytes) (hblank _) (numeral?_whole _),
      SizeLabel.reading]
    have hsplit := Nat.div_add_mod label.tenths 10
    rw [hwhole hbytes, Nat.add_zero] at hsplit
    have hvalue : (label.tenths : ℚ) = 10 * (label.tenths / 10 : Nat) := by exact_mod_cast hsplit.symm
    rw [hvalue, mul_div_cancel_left₀ _ (by norm_num)]
  · refine ofText?_of_toList (toList_render_of_larger hbytes) ?_ (numeral?_tenths _)
    simp [hblank]

/-- The unit is that of the number that a double can have. -/
@[simp] theorem unit_ofSize (size : UInt64) :
    (SizeLabel.ofSize size).unit = SizeUnit.ofSize (roundToDouble size.toNat) := by
  simp only [SizeLabel.ofSize]

/-- The tenths are those of the number that a double can have, to the nearest even. -/
theorem tenths_ofSize (size : UInt64) :
    (SizeLabel.ofSize size).tenths =
      divideToEven (10 * roundToDouble size.toNat) (SizeLabel.ofSize size).unit.bytes := by
  simp only [SizeLabel.ofSize]

/-- The label of a size, with a whole number of bytes below the first larger unit, is what its text
says. -/
theorem ofText?_sizeText (size : UInt64) :
    SizeReading.ofText? (sizeText size) = some (SizeLabel.ofSize size).reading := by
  refine ofText?_render fun hbytes => ?_
  rw [tenths_ofSize, hbytes]
  show divideToEven (10 * _) 1 % 10 = 0
  rw [divideToEven_one, Nat.mul_mod_right]

end DropRoom.File
