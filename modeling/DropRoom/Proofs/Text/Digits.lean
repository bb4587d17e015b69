import DropRoom.Text.Ascii
import Mathlib.Algebra.Group.Nat.Defs

namespace DropRoom.Text

/-!
# Numbers as they are written

* `digitsValue_digitsOf`, `digitsValue_padded` — a number is read from its digits, whatever zeros
  stand in front of them;
* `isDigit_of_mem_digitsOf`, `isDigit_of_mem_padded` — nothing but digits is written;
* `length_padded` — a number that fits is padded to the width;
* `digitsOf_leading` — no zero stands in front of the digits of a number;
* `hexValue?_hexDigitLower`, `hexValue?_hexDigitUpper` — hexadecimal digits.
-/

/-! ### Characters -/

theorem toNat_ofNat {n : Nat} (h : n < 0xD800) : (Char.ofNat n).toNat = n := by
  have hvalid : n.isValidChar := .inl h
  have hchar : Char.ofNat n = Char.ofNatAux n hvalid := dif_pos hvalid
  rw [hchar]
  rfl

theorem isDigit_iff {c : Char} : isDigit c = true ↔ 0x30 ≤ c.toNat ∧ c.toNat ≤ 0x39 :=
  decide_eq_true_iff

theorem isDigit_eq_isDigit (c : Char) : isDigit c = c.isDigit :=
  Bool.decide_and _ _

theorem ne_of_isDigit {c mark : Char} (hc : isDigit c = true) (hmark : isDigit mark = false) :
    c ≠ mark := by
  rintro rfl
  rw [hc] at hmark
  cases hmark

theorem hexValue?_hexDigitLower {n : Nat} (hn : n < 16) : hexValue? (hexDigitLower n) = some n := by
  have hall : ∀ d : Fin 16, hexValue? (hexDigitLower d) = some d.val := by decide
  exact hall ⟨n, hn⟩

theorem hexValue?_hexDigitUpper {n : Nat} (hn : n < 16) : hexValue? (hexDigitUpper n) = some n := by
  have hall : ∀ d : Fin 16, hexValue? (hexDigitUpper d) = some d.val := by decide
  exact hall ⟨n, hn⟩

/-! ### Decimal digits -/

theorem isDigit_of_mem_digitsOf {n : Nat} {c : Char} (h : c ∈ digitsOf n) : isDigit c = true := by
  rw [isDigit_eq_isDigit]
  exact Nat.isDigit_of_mem_toDigits (by decide) (by decide) h

theorem digitsOf_ne_nil (n : Nat) : digitsOf n ≠ [] :=
  Nat.toDigits_ne_nil

theorem digitsOf_eq_cons (n : Nat) : ∃ c cs, digitsOf n = c :: cs ∧ isDigit c = true := by
  obtain ⟨c, cs, hcs⟩ := List.exists_cons_of_ne_nil (digitsOf_ne_nil n)
  have hmem : c ∈ digitsOf n := by
    rw [hcs]
    exact List.mem_cons_self
  exact ⟨c, cs, hcs, isDigit_of_mem_digitsOf hmem⟩

/-- A number is read from its digits. -/
theorem digitsValue_digitsOf (n : Nat) : digitsValue (digitsOf n) = n :=
  Nat.ofDigitChars_ten_toDigits

/-- No zero stands in front of the digits of a number. -/
theorem digitsOf_leading (n : Nat) :
    digitsOf n = ['0'] ∨ ∃ c cs, digitsOf n = c :: cs ∧ c ≠ '0' := by
  induction n using Nat.strongRecOn with
  | _ n ih =>
    by_cases hsmall : n < 10
    · rw [digitsOf, Nat.toDigits_of_lt_base hsmall]
      by_cases hzero : n.digitChar = '0'
      · exact .inl (by rw [hzero])
      · exact .inr ⟨_, [], rfl, hzero⟩
    · have hsplit : digitsOf n = digitsOf (n / 10) ++ [(n % 10).digitChar] :=
        Nat.toDigits_of_base_le (by decide) (by omega)
      rcases ih (n / 10) (by omega) with hzero | ⟨c, cs, hcs, hc⟩
      · have hvalue := digitsValue_digitsOf (n / 10)
        have hnone : digitsValue ['0'] = 0 := rfl
        rw [hzero, hnone] at hvalue
        omega
      · exact .inr ⟨c, cs ++ [(n % 10).digitChar], by rw [hsplit, hcs, List.cons_append], hc⟩

/-! ### Leading zeros -/

theorem isDigit_of_mem_padded {width n : Nat} {c : Char} (h : c ∈ padded width n) :
    isDigit c = true := by
  rcases List.mem_append.mp h with hzero | hdigit
  · rw [List.eq_of_mem_replicate hzero]
    rfl
  · exact isDigit_of_mem_digitsOf hdigit

theorem digitsValue_padded (width n : Nat) : digitsValue (padded width n) = n := by
  have hzeros : Nat.ofDigitChars 10 (List.replicate (width - (digitsOf n).length) '0') 0 = 0 := by
    rw [Nat.ofDigitChars_replicate_zero, Nat.mul_zero]
  show Nat.ofDigitChars 10 (padded width n) 0 = n
  rw [padded, Nat.ofDigitChars_append, hzeros]
  exact digitsValue_digitsOf n

/-- A number that fits is padded to the width. -/
theorem length_padded {width n : Nat} (hwidth : 0 < width) (h : n < 10 ^ width) :
    (padded width n).length = width := by
  have hfits : (digitsOf n).length ≤ width := (Nat.length_toDigits_le_iff (by decide) hwidth).mpr h
  rw [padded, List.length_append, List.length_replicate]
  omega

end DropRoom.Text
