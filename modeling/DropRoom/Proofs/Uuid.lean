import DropRoom.Proofs.Text.Digits
import DropRoom.Uuid

namespace DropRoom.Uuid

/-!
# Identifiers are read as they are written

* `hexNumber?_hexDigits` — the digits of a number are read as that number;
* `splitAt_grouped` — the groups of the digits are found between their dashes;
* `parse?_render` — so an identifier is read back.
-/

open DropRoom.Text

/-! ### Digits -/

theorem length_hexDigits (count n : Nat) : (hexDigits count n).length = count := by
  induction count generalizing n with
  | zero => rfl
  | succ count ih => rw [hexDigits, List.length_append, ih, List.length_singleton]

/-- No digit is a dash. -/
theorem dash_not_mem_hexDigits (count n : Nat) : '-' ∉ hexDigits count n := by
  have hdigit : ∀ d : Fin 16, hexDigitLower d ≠ '-' := by decide
  induction count generalizing n with
  | zero => exact List.not_mem_nil
  | succ count ih =>
    rw [hexDigits, List.mem_append, List.mem_singleton, not_or]
    exact ⟨ih (n / 16), (hdigit ⟨n % 16, Nat.mod_lt _ (by decide)⟩).symm⟩

theorem hexNumber?_append (start : Nat) (a b : List Char) :
    hexNumber? start (a ++ b) = (hexNumber? start a).bind fun n => hexNumber? n b := by
  induction a generalizing start with
  | nil => rfl
  | cons c a ih =>
    rw [List.cons_append, hexNumber?, hexNumber?]
    cases hexValue? c with
    | none => rfl
    | some d => exact ih (16 * start + d)

/-- As many digits as a number has are read as the number. -/
theorem hexNumber?_hexDigits {count n : Nat} (h : n < 16 ^ count) :
    hexNumber? 0 (hexDigits count n) = some n := by
  induction count generalizing n with
  | zero =>
    obtain rfl : n = 0 := by omega
    rfl
  | succ count ih =>
    have hfront : n / 16 < 16 ^ count := by
      rw [Nat.div_lt_iff_lt_mul (by decide)]
      exact h
    have hsplit : 16 * (n / 16) + n % 16 = n := Nat.div_add_mod n 16
    rw [hexDigits, hexNumber?_append, ih hfront, Option.bind_some, hexNumber?,
      hexValue?_hexDigitLower (Nat.mod_lt _ (by decide))]
    simp only [hsplit, hexNumber?]

/-! ### Groups -/

theorem splitAt_of_not_mem {sep : Char} {piece : List Char} (h : sep ∉ piece) :
    splitAt sep piece = [piece] := by
  induction piece with
  | nil => rfl
  | cons c piece ih =>
    rw [List.mem_cons, not_or] at h
    obtain ⟨hc, hpiece⟩ := h
    rw [splitAt, if_neg (Ne.symm hc), ih hpiece]

theorem splitAt_append {sep : Char} {piece : List Char} (h : sep ∉ piece) (rest : List Char) :
    splitAt sep (piece ++ sep :: rest) = piece :: splitAt sep rest := by
  induction piece with
  | nil => rw [List.nil_append, splitAt, if_pos rfl]
  | cons c piece ih =>
    rw [List.mem_cons, not_or] at h
    obtain ⟨hc, hpiece⟩ := h
    rw [List.cons_append, splitAt, if_neg (Ne.symm hc), ih hpiece]

/-- The five groups of digits are found again. -/
theorem splitAt_grouped {digits : List Char} (h : '-' ∉ digits) :
    splitAt '-' (grouped digits) =
      [digits.take 8, (digits.drop 8).take 4, (digits.drop 12).take 4, (digits.drop 16).take 4,
        digits.drop 20] := by
  have htake {m n : Nat} : '-' ∉ (digits.drop m).take n :=
    fun hmem => h (List.mem_of_mem_drop (List.mem_of_mem_take hmem))
  have hfirst : '-' ∉ digits.take 8 := fun hmem => h (List.mem_of_mem_take hmem)
  have hlast : '-' ∉ digits.drop 20 := fun hmem => h (List.mem_of_mem_drop hmem)
  simp only [grouped, List.append_assoc, List.cons_append]
  rw [splitAt_append hfirst, splitAt_append htake, splitAt_append htake, splitAt_append htake,
    splitAt_of_not_mem hlast]

/-- The groups of the digits, one after the other, are the digits. -/
theorem append_groups (digits : List Char) :
    digits.take 8 ++ (digits.drop 8).take 4 ++ (digits.drop 12).take 4 ++ (digits.drop 16).take 4 ++
      digits.drop 20 = digits := by
  have hnext (m n : Nat) : (digits.drop m).take n ++ digits.drop (m + n) = digits.drop m := by
    rw [← List.drop_drop, List.take_append_drop]
  simp only [List.append_assoc]
  rw [hnext 16 4, hnext 12 4, hnext 8 4, List.take_append_drop]

/-- **Identifiers.** An identifier is read back from its text. -/
theorem parse?_render (id : Uuid) : parse? id.render = some id := by
  have hdash := dash_not_mem_hexDigits 32 id.value
  have hlength := length_hexDigits 32 id.value
  have hvalue : hexNumber? 0 (hexDigits 32 id.value) = some id.value :=
    hexNumber?_hexDigits id.value_lt
  have hsame : ofNat id.value = id := by
    rw [ofNat]
    simp only [Nat.mod_eq_of_lt id.value_lt]
  have hgroups : ofGroups? (grouped (hexDigits 32 id.value)) = some id := by
    rw [ofGroups?, splitAt_grouped hdash]
    simp only [append_groups]
    rw [if_pos (by simp [hlength]), ofDigits?, if_pos hlength, hvalue, Option.map_some, hsame]
  have hwritten : (grouped (hexDigits 32 id.value)).length = 36 := by
    simp [grouped, hlength]
  rw [parse?, render, String.toList_ofList]
  simp only [hwritten, hgroups]

end DropRoom.Uuid
