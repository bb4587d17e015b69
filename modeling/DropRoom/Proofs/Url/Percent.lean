import DropRoom.Proofs.Bytes.Utf8
import DropRoom.Proofs.Text.Digits
import DropRoom.Proofs.Url.PlainPath

namespace DropRoom.Url

/-!
# What an encoded segment stands for

A segment that encodes the percent sign stands for the text that it was made of, and for no other.

* `percentDecode_percentEncode` — decoding gives the octets of the text back;
* `percentEncode_injective` — so different texts are encoded differently;
* `isDots_percentEncode` — only the dots themselves are encoded as a segment that moves within a
  path.
-/

open DropRoom.Text

/-! ### Octets -/

theorem percentDecode_byte (b : UInt8) (rest : List Char) :
    percentDecode (percentByte b ++ rest) = b :: percentDecode rest := by
  have hbyte : b.toNat < 256 := b.toNat_lt
  have hhigh : b.toNat / 16 < 16 := by omega
  have hlow : b.toNat % 16 < 16 := by omega
  have hsplit : 16 * (b.toNat / 16) + b.toNat % 16 = b.toNat := by omega
  show percentDecode ('%' :: hexDigitUpper (b.toNat / 16) :: hexDigitUpper (b.toNat % 16) :: rest) = _
  rw [percentDecode, hexValue?_hexDigitUpper hhigh, hexValue?_hexDigitUpper hlow]
  simp only [hsplit, UInt8.ofNat_toNat]

/-- Octets that are encoded are decoded as they were. -/
theorem percentDecode_bytes (bs : Bytes) (rest : List Char) :
    percentDecode (bs.flatMap percentByte ++ rest) = bs ++ percentDecode rest := by
  induction bs with
  | nil => rfl
  | cons b bs ih =>
    rw [List.flatMap_cons, List.append_assoc, percentDecode_byte, ih, List.cons_append]

theorem percentDecode_of_ne {c : Char} (hc : c ≠ '%') (rest : List Char) :
    percentDecode (c :: rest) = Utf8.encodeChar c ++ percentDecode rest := by
  rw [percentDecode]
  rintro a b more rfl
  exact absurd rfl hc

/-! ### Texts -/

/-- **Decoding.** A text that is encoded with its percent signs stands for its own octets. -/
theorem percentDecode_percentEncode {inSet : Char → Bool} (hset : inSet '%' = true)
    (cs : List Char) : percentDecode (percentEncode inSet cs) = Utf8.encodeChars cs := by
  induction cs with
  | nil => rfl
  | cons c cs ih =>
    rw [percentEncode, List.flatMap_cons, ← percentEncode, Utf8.encodeChars_cons, ← ih]
    by_cases hc : alwaysEncoded c || inSet c
    · rw [if_pos hc, percentDecode_bytes]
    · rw [if_neg hc, List.singleton_append, percentDecode_of_ne]
      rintro rfl
      exact hc (by rw [hset, Bool.or_true])

/-- Where the percent sign itself is encoded, different texts are encoded differently. -/
theorem percentEncode_injective {inSet : Char → Bool} (hset : inSet '%' = true) {cs ds : List Char}
    (h : percentEncode inSet cs = percentEncode inSet ds) : cs = ds := by
  apply Utf8.encodeChars_injective
  rw [← percentDecode_percentEncode hset, h, percentDecode_percentEncode hset]

/-! ### Dots -/

/-- A character is written in lower case as itself, or as a letter. -/
theorem asciiLowerChar_cases (c : Char) :
    asciiLowerChar c = c ∨
      (0x41 ≤ c.toNat ∧ c.toNat ≤ 0x5A) ∧ (asciiLowerChar c).toNat = c.toNat + 32 := by
  rw [asciiLowerChar]
  split
  · rename_i hupper
    have hrange : 0x41 ≤ c.toNat ∧ c.toNat ≤ 0x5A := hupper
    exact .inr ⟨hrange, toNat_ofNat (by omega)⟩
  · exact .inl rfl

theorem eq_of_asciiLowerChar {c d : Char} (hd : d.toNat < 0x61) (h : asciiLowerChar c = d) :
    c = d := by
  rcases asciiLowerChar_cases c with hsame | ⟨hrange, hlower⟩
  · rw [← hsame, h]
  · rw [h] at hlower
    omega

/-- A dot, encoded or not, stands for the octet of a dot. -/
theorem percentDecode_of_dot {cs dot more : List Char} (hdot : dot = ['.'] ∨ dot = ['%', '2', 'e'])
    (h : cs.map asciiLowerChar = dot ++ more) :
    ∃ rest, percentDecode cs = 0x2E :: percentDecode rest ∧ rest.map asciiLowerChar = more := by
  rcases hdot with rfl | rfl
  · obtain ⟨c, rest, rfl, hc, hrest⟩ := List.map_eq_cons_iff.mp h
    obtain rfl := eq_of_asciiLowerChar (by decide) hc
    exact ⟨rest, percentDecode_of_ne (by decide) rest, hrest⟩
  · obtain ⟨a, tail, rfl, ha, htail⟩ := List.map_eq_cons_iff.mp h
    obtain ⟨b, tail, rfl, hb, htail⟩ := List.map_eq_cons_iff.mp htail
    obtain ⟨c, rest, rfl, hc, hrest⟩ := List.map_eq_cons_iff.mp htail
    obtain rfl := eq_of_asciiLowerChar (by decide) ha
    obtain rfl := eq_of_asciiLowerChar (by decide) hb
    refine ⟨rest, ?_, hrest⟩
    -- the letter of the octet is of either case
    rcases asciiLowerChar_cases c with hsame | ⟨_, hlower⟩
    · obtain rfl : 'e' = c := hc.symm.trans hsame
      rfl
    · rw [hc] at hlower
      have hletter : 0x45 + 32 = c.toNat + 32 := hlower
      obtain rfl : 'E' = c := Char.toNat_inj.mp (Nat.add_right_cancel hletter)
      rfl

/-- A segment that moves within a path stands for a dot or for two. -/
theorem percentDecode_of_isDots {segment : String} (h : isDots segment = true) :
    percentDecode segment.toList = [0x2E] ∨ percentDecode segment.toList = [0x2E, 0x2E] := by
  have hspelled {cs : List Char} (h : asciiLower segment = String.ofList cs) :
      segment.toList.map asciiLowerChar = cs := String.ofList_injective h
  have hone {cs dot : List Char} (hdot : dot = ['.'] ∨ dot = ['%', '2', 'e'])
      (h : cs.map asciiLowerChar = dot) : percentDecode cs = [0x2E] := by
    rw [← List.append_nil dot] at h
    obtain ⟨rest, hdecode, hrest⟩ := percentDecode_of_dot hdot h
    obtain rfl := List.map_eq_nil_iff.mp hrest
    exact hdecode
  have htwo {first second : List Char} (hfirst : first = ['.'] ∨ first = ['%', '2', 'e'])
      (hsecond : second = ['.'] ∨ second = ['%', '2', 'e'])
      (h : asciiLower segment = String.ofList (first ++ second)) :
      percentDecode segment.toList = [0x2E, 0x2E] := by
    obtain ⟨rest, hdecode, hrest⟩ := percentDecode_of_dot hfirst (hspelled h)
    rw [hdecode, hone hsecond hrest]
  simp only [isDots, isSingleDot, isDoubleDot, Bool.or_eq_true, beq_iff_eq] at h
  rcases h with (hdot | hdot) | ((hdots | hdots) | hdots) | hdots
  · exact .inl (hone (.inl rfl) (hspelled hdot))
  · exact .inl (hone (.inr rfl) (hspelled hdot))
  · exact .inr (htwo (.inl rfl) (.inl rfl) hdots)
  · exact .inr (htwo (.inr rfl) (.inr rfl) hdots)
  · exact .inr (htwo (.inr rfl) (.inl rfl) hdots)
  · exact .inr (htwo (.inl rfl) (.inr rfl) hdots)

/-- Only the dots themselves are encoded as a segment that moves within a path. -/
theorem isDots_percentEncode {inSet : Char → Bool} (hset : inSet '%' = true) {cs : List Char}
    (h : isDots (String.ofList (percentEncode inSet cs)) = true) : cs = ['.'] ∨ cs = ['.', '.'] := by
  have hdots := percentDecode_of_isDots h
  rw [String.toList_ofList, percentDecode_percentEncode hset] at hdots
  rcases hdots with hdots | hdots
  · exact .inl (Utf8.encodeChars_injective hdots)
  · exact .inr (Utf8.encodeChars_injective hdots)

end DropRoom.Url
