import DropRoom.Bytes.Utf8
import Mathlib.Tactic.IntervalCases

namespace DropRoom.Utf8

/-!
# Texts as octets and back

* `front_two`, `front_three`, `front_four` — which octets may follow the first octet of a character;
* `front_encodeChar` — the octets of a character are read as that character, whatever follows;
* `decode?_encode` — the octets of a text are read as that text;
* `encodeChars_injective` — so different texts have different octets.
-/

theorem toNat_octet {n : Nat} (h : n < 0x100) : (UInt8.ofNat n).toNat = n :=
  UInt8.toNat_ofNat_of_lt' h

/-! ### The first octet -/

/-- A first octet below 128 is a character. -/
theorem front_one {n : Nat} (h : n < 0x80) (more : Bytes) :
    front (UInt8.ofNat n :: more) = .char (Char.ofNat n) more := by
  have hlead : UInt8.ofNat n < 0x80 := by
    rw [UInt8.lt_iff_toNat_lt, toNat_octet (by omega)]
    exact h
  rw [front, if_pos hlead, toNat_octet (by omega)]

/-- A first octet in this range is that of a character of two octets. -/
theorem front_two {lead : Nat} (hleast : 2 ≤ lead) (hlead : lead < 0x20) (more : Bytes) :
    front (UInt8.ofNat (0xC0 + lead) :: more) = front2 (UInt8.ofNat (0xC0 + lead)) more := by
  interval_cases lead <;> rfl

/-- A first octet leaves out what two octets can say, and another the surrogates. -/
theorem front_three {lead : Nat} (hlead : lead < 0x10) (more : Bytes) :
    front (UInt8.ofNat (0xE0 + lead) :: more) =
      front3 (UInt8.ofNat (0xE0 + lead)) (if lead = 0 then 0xA0 else 0x80)
        (if lead = 0xD then 0x9F else 0xBF) more := by
  interval_cases lead <;> rfl

/-- A first octet leaves out what three octets can say, and another what is beyond all characters. -/
theorem front_four {lead : Nat} (hlead : lead < 5) (more : Bytes) :
    front (UInt8.ofNat (0xF0 + lead) :: more) =
      front4 (UInt8.ofNat (0xF0 + lead)) (if lead = 0 then 0x90 else 0x80)
        (if lead = 4 then 0x8F else 0xBF) more := by
  interval_cases lead <;> rfl

/-! ### The other octets -/

/-- An octet after the first, in a range. -/
theorem tail_between {n : Nat} (h : n < 0x40) {low high : UInt8} (hlow : low.toNat ≤ 0x80 + n)
    (hhigh : 0x80 + n ≤ high.toNat) :
    low ≤ UInt8.ofNat (0x80 + n) ∧ UInt8.ofNat (0x80 + n) ≤ high := by
  rw [UInt8.le_iff_toNat_le, UInt8.le_iff_toNat_le, toNat_octet (by omega)]
  exact ⟨hlow, hhigh⟩

/-- An octet with six bits of a character is one that others may follow. -/
theorem isTail_octet {n : Nat} (h : n < 0x40) : isTail (UInt8.ofNat (0x80 + n)) = true := by
  have hmost : 0x80 + n ≤ (0xBF : UInt8).toNat := by
    show _ ≤ 0xBF
    omega
  have hleast : (0x80 : UInt8).toNat ≤ 0x80 + n := Nat.le_add_right _ _
  obtain ⟨hlow, hhigh⟩ := tail_between h hleast hmost
  rw [isTail, Bool.and_eq_true]
  exact ⟨decide_eq_true hlow, decide_eq_true hhigh⟩

/-- It says these six bits. -/
theorem toNat_tail {n : Nat} (h : n < 0x40) : (UInt8.ofNat (0x80 + n)).toNat - 0x80 = n := by
  rw [toNat_octet (by omega), Nat.add_sub_cancel_left]

/-- Two octets say the bits of both. -/
theorem front2_octets {lead second : Nat} (hlead : lead < 0x20) (hsecond : second < 0x40)
    (rest : Bytes) :
    front2 (UInt8.ofNat (0xC0 + lead)) (UInt8.ofNat (0x80 + second) :: rest) =
      .char (Char.ofNat (lead * 0x40 + second)) rest := by
  have hread : (UInt8.ofNat (0xC0 + lead)).toNat - 0xC0 = lead := by
    rw [toNat_octet (by omega), Nat.add_sub_cancel_left]
  rw [front2, if_pos (isTail_octet hsecond), hread, toNat_tail hsecond]

/-- Three octets say the bits of all three, where the second is within its limits. -/
theorem front3_octets {lead second third : Nat} (hlead : lead < 0x10) (hsecond : second < 0x40)
    (hthird : third < 0x40) {low high : UInt8} (hlow : low.toNat ≤ 0x80 + second)
    (hhigh : 0x80 + second ≤ high.toNat) (rest : Bytes) :
    front3 (UInt8.ofNat (0xE0 + lead)) low high
        (UInt8.ofNat (0x80 + second) :: UInt8.ofNat (0x80 + third) :: rest) =
      .char (Char.ofNat (lead * 0x1000 + second * 0x40 + third)) rest := by
  have hread : (UInt8.ofNat (0xE0 + lead)).toNat - 0xE0 = lead := by
    rw [toNat_octet (by omega), Nat.add_sub_cancel_left]
  rw [front3, if_neg (not_not.mpr (tail_between hsecond hlow hhigh))]
  simp only [if_pos (isTail_octet hthird), hread, toNat_tail hsecond, toNat_tail hthird]

/-- Four octets say the bits of all four, where the second is within its limits. -/
theorem front4_octets {lead second third fourth : Nat} (hlead : lead < 5) (hsecond : second < 0x40)
    (hthird : third < 0x40) (hfourth : fourth < 0x40) {low high : UInt8}
    (hlow : low.toNat ≤ 0x80 + second) (hhigh : 0x80 + second ≤ high.toNat) (rest : Bytes) :
    front4 (UInt8.ofNat (0xF0 + lead)) low high
        (UInt8.ofNat (0x80 + second) :: UInt8.ofNat (0x80 + third) ::
          UInt8.ofNat (0x80 + fourth) :: rest) =
      .char (Char.ofNat (lead * 0x40000 + second * 0x1000 + third * 0x40 + fourth)) rest := by
  have hread : (UInt8.ofNat (0xF0 + lead)).toNat - 0xF0 = lead := by
    rw [toNat_octet (by omega), Nat.add_sub_cancel_left]
  rw [front4, if_neg (not_not.mpr (tail_between hsecond hlow hhigh))]
  simp only [if_neg (not_not.mpr (isTail_octet hthird)), if_pos (isTail_octet hfourth), hread,
    toNat_tail hsecond, toNat_tail hthird, toNat_tail hfourth]

/-! ### Characters -/

/-- A character is before or after the halves of pairs. -/
theorem toNat_lt (c : Char) : c.toNat < 0xD800 ∨ 0xDFFF < c.toNat ∧ c.toNat < 0x110000 :=
  c.valid

/-- The octets of a character are read as that character, whatever follows. -/
theorem front_encodeChar (c : Char) (rest : Bytes) : front (encodeChar c ++ rest) = .char c rest := by
  have hvalid := toNat_lt c
  rw [encodeChar]
  split
  · rename_i hone
    show front (UInt8.ofNat c.toNat :: rest) = _
    rw [front_one hone, Char.ofNat_toNat]
  · split
    · rename_i htwo
      show front (UInt8.ofNat (0xC0 + c.toNat / 0x40) ::
        UInt8.ofNat (0x80 + c.toNat % 0x40) :: rest) = _
      have hsplit : c.toNat / 0x40 * 0x40 + c.toNat % 0x40 = c.toNat := by omega
      rw [front_two (by omega) (by omega), front2_octets (by omega) (by omega), hsplit,
        Char.ofNat_toNat]
    · split
      · show front (UInt8.ofNat (0xE0 + c.toNat / 0x1000) ::
          UInt8.ofNat (0x80 + c.toNat / 0x40 % 0x40) :: UInt8.ofNat (0x80 + c.toNat % 0x40) ::
            rest) = _
        have hsplit : c.toNat / 0x1000 * 0x1000 + c.toNat / 0x40 % 0x40 * 0x40 +
          c.toNat % 0x40 = c.toNat := by omega
        -- the octet after the first of all is large enough, and below the surrogates
        have hlow : (if c.toNat / 0x1000 = 0 then 0xA0 else 0x80 : UInt8).toNat ≤
            0x80 + c.toNat / 0x40 % 0x40 := by
          split
          · show 0xA0 ≤ _
            omega
          · exact Nat.le_add_right _ _
        have hhigh : 0x80 + c.toNat / 0x40 % 0x40 ≤
            (if c.toNat / 0x1000 = 0xD then 0x9F else 0xBF : UInt8).toNat := by
          split
          · show _ ≤ 0x9F
            omega
          · show _ ≤ 0xBF
            omega
        rw [front_three (by omega), front3_octets (by omega) (by omega) (by omega) hlow hhigh,
          hsplit, Char.ofNat_toNat]
      · show front (UInt8.ofNat (0xF0 + c.toNat / 0x40000) ::
          UInt8.ofNat (0x80 + c.toNat / 0x1000 % 0x40) ::
            UInt8.ofNat (0x80 + c.toNat / 0x40 % 0x40) ::
              UInt8.ofNat (0x80 + c.toNat % 0x40) :: rest) = _
        have hsplit : c.toNat / 0x40000 * 0x40000 + c.toNat / 0x1000 % 0x40 * 0x1000 +
          c.toNat / 0x40 % 0x40 * 0x40 + c.toNat % 0x40 = c.toNat := by omega
        have hlow : (if c.toNat / 0x40000 = 0 then 0x90 else 0x80 : UInt8).toNat ≤
            0x80 + c.toNat / 0x1000 % 0x40 := by
          split
          · show 0x90 ≤ _
            omega
          · exact Nat.le_add_right _ _
        have hhigh : 0x80 + c.toNat / 0x1000 % 0x40 ≤
            (if c.toNat / 0x40000 = 4 then 0x8F else 0xBF : UInt8).toNat := by
          split
          · show _ ≤ 0x8F
            omega
          · show _ ≤ 0xBF
            omega
        rw [front_four (by omega), front4_octets (by omega) (by omega) (by omega) (by omega) hlow
          hhigh, hsplit, Char.ofNat_toNat]

/-! ### Texts -/

/-- No character is without octets. -/
theorem length_encodeChar_pos (c : Char) : 0 < (encodeChar c).length := by
  rw [encodeChar]
  split
  · exact Nat.zero_lt_succ _
  · split
    · exact Nat.zero_lt_succ _
    · split <;> exact Nat.zero_lt_succ _

theorem encodeChars_cons (c : Char) (cs : List Char) :
    encodeChars (c :: cs) = encodeChar c ++ encodeChars cs := rfl

/-- A text has at least as many octets as characters. -/
theorem length_le_length_encodeChars (cs : List Char) : cs.length ≤ (encodeChars cs).length := by
  induction cs with
  | nil => exact Nat.zero_le _
  | cons c cs ih =>
    have hpos := length_encodeChar_pos c
    rw [encodeChars_cons, List.length_append, List.length_cons]
    omega

/-- A scan that may take all characters of a text takes them. -/
theorem scanUpTo_encodeChars {fuel : Nat} (cs : List Char) (h : cs.length < fuel) :
    scanUpTo fuel (encodeChars cs) = (cs, [], .finished) := by
  induction cs generalizing fuel with
  | nil =>
    obtain _ | fuel := fuel
    · cases h
    · rfl
  | cons c cs ih =>
    obtain _ | fuel := fuel
    · cases h
    · rw [encodeChars_cons, scanUpTo, front_encodeChar]
      simp only [ih (Nat.lt_of_succ_lt_succ h)]

/-- All characters of an encoded text are found, and nothing is left. -/
theorem scan_encodeChars (cs : List Char) :
    scan (encodeChars cs) = (cs, [], .finished) :=
  scanUpTo_encodeChars cs (Nat.lt_succ_of_le (length_le_length_encodeChars cs))

/-- The octets of a text are read as that text. -/
theorem decode?_encode (s : String) : decode? (encode s) = some s := by
  rw [decode?, encode, scan_encodeChars]
  simp only [String.ofList_toList]

/-- Different texts have different octets. -/
theorem encodeChars_injective {cs ds : List Char} (h : encodeChars cs = encodeChars ds) : cs = ds := by
  have hscan := scan_encodeChars ds
  rw [← h, scan_encodeChars] at hscan
  exact congrArg (·.1) hscan

end DropRoom.Utf8
