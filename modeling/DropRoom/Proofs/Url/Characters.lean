import DropRoom.Url.Reader

namespace DropRoom.Url

/-!
# What the parts of addresses are made of

The marks between the parts of an address do not occur within the parts that stand before them.

* `not_mem_percentEncode` — an encoded text holds none of the characters that are encoded in it;
* `slash_not_mem_chars_of_readHost` — the text of a host that was read holds no slash;
* `slash_not_mem_portChars` — nor does the text of a port.
-/

open DropRoom.Text

/-! ### Encoded texts -/

/-- A character that encoded octets are written with. -/
def isEncodingChar (c : Char) : Bool :=
  c == '%' || isDigit c || ('A' ≤ c && c ≤ 'F')

theorem isEncodingChar_hexDigitUpper {n : Nat} (hn : n < 16) :
    isEncodingChar (hexDigitUpper n) = true := by
  have hall : ∀ d : Fin 16, isEncodingChar (hexDigitUpper d) = true := by decide
  exact hall ⟨n, hn⟩

theorem isEncodingChar_of_mem_percentByte {b : UInt8} {c : Char} (h : c ∈ percentByte b) :
    isEncodingChar c = true := by
  have hbyte : b.toNat < 256 := b.toNat_lt
  have hhigh : b.toNat / 16 < 16 := by omega
  have hlow : b.toNat % 16 < 16 := by omega
  simp only [percentByte, List.mem_cons, List.not_mem_nil, or_false] at h
  rcases h with rfl | rfl | rfl
  · decide
  · exact isEncodingChar_hexDigitUpper hhigh
  · exact isEncodingChar_hexDigitUpper hlow

/-- A character of an encoded text is written for an octet, or stands for itself. -/
theorem mem_percentEncode {inSet : Char → Bool} {cs : List Char} {c : Char}
    (h : c ∈ percentEncode inSet cs) :
    isEncodingChar c = true ∨ c ∈ cs ∧ (alwaysEncoded c || inSet c) = false := by
  obtain ⟨d, hmem, hd⟩ := List.mem_flatMap.mp h
  by_cases hset : alwaysEncoded d || inSet d
  · rw [if_pos hset] at hd
    obtain ⟨b, _, hb⟩ := List.mem_flatMap.mp hd
    exact .inl (isEncodingChar_of_mem_percentByte hb)
  · rw [if_neg hset, List.mem_singleton] at hd
    rw [Bool.not_eq_true] at hset
    exact .inr (hd ▸ ⟨hmem, hset⟩)

/-- **Encoded texts.** An encoded text holds none of the characters that are encoded in it. -/
theorem not_mem_percentEncode {inSet : Char → Bool} {mark : Char} (hset : inSet mark = true)
    (hmark : isEncodingChar mark = false) (cs : List Char) : mark ∉ percentEncode inSet cs := by
  intro h
  rcases mem_percentEncode h with hencoding | ⟨_, hplain⟩
  · rw [hmark] at hencoding
    cases hencoding
  · rw [hset, Bool.or_true] at hplain
    cases hplain

/-! ### Numbers -/

theorem digitChar_ne_slash {n : Nat} (hn : n < 16) : Nat.digitChar n ≠ '/' := by
  have hdigits : ∀ d : Fin 16, Nat.digitChar d ≠ '/' := by decide
  exact hdigits ⟨n, hn⟩

section Digits

variable {base : Nat} (hpos : 0 < base) (hbase : base ≤ 16)
include hpos hbase

theorem slash_not_mem_toDigitsCore (fuel n : Nat) {digits : List Char} (h : '/' ∉ digits) :
    '/' ∉ Nat.toDigitsCore base fuel n digits := by
  induction fuel generalizing n digits with
  | zero => exact h
  | succ fuel ih =>
    have hdigit : n % base < 16 := Nat.lt_of_lt_of_le (Nat.mod_lt n hpos) hbase
    have hcons : '/' ∉ Nat.digitChar (n % base) :: digits := by
      rw [List.mem_cons, not_or]
      exact ⟨(digitChar_ne_slash hdigit).symm, h⟩
    rw [Nat.toDigitsCore]
    by_cases hn : n / base = 0
    · rw [if_pos hn]
      exact hcons
    · rw [if_neg hn]
      exact ih _ hcons

/-- No number holds a slash, in decimal or in base 16. -/
theorem slash_not_mem_toDigits (n : Nat) : '/' ∉ Nat.toDigits base n :=
  slash_not_mem_toDigitsCore hpos hbase (n + 1) n List.not_mem_nil

end Digits

theorem slash_not_mem_portChars (url : Url) : '/' ∉ url.portChars := by
  rw [portChars]
  cases url.port with
  | none => exact List.not_mem_nil
  | some port =>
    rw [List.mem_cons, not_or]
    exact ⟨by decide, slash_not_mem_toDigits (by decide) (by decide) port⟩

/-! ### Hosts -/

theorem slash_not_mem_ipv4Chars (address : Nat) : '/' ∉ ipv4Chars address := by
  have hdigits (n : Nat) : '/' ∉ digitsOf n := slash_not_mem_toDigits (by decide) (by decide) n
  simp [ipv4Chars, hdigits]

theorem slash_not_mem_colonSeparated (pieces : List Nat) : '/' ∉ colonSeparated pieces := by
  have hdigits (n : Nat) : '/' ∉ hexChars n := slash_not_mem_toDigits (by decide) (by decide) n
  induction pieces with
  | nil => exact List.not_mem_nil
  | cons n rest ih =>
    cases rest with
    | nil => exact hdigits n
    | cons m rest => simp [colonSeparated, hdigits, ih]

theorem slash_not_mem_ipv6Chars (pieces : List Nat) : '/' ∉ ipv6Chars pieces := by
  unfold ipv6Chars
  dsimp only
  split
  · exact slash_not_mem_colonSeparated pieces
  · simp [slash_not_mem_colonSeparated]

theorem slash_not_mem_chars_of_bracketed {cs : List Char} {host : Host}
    (h : bracketed cs = .ok host) : '/' ∉ host.chars := by
  rw [bracketed] at h
  repeat' split at h
  · cases h
    simp [Host.chars, slash_not_mem_ipv6Chars]
  · cases h
  · cases h

/-- The host of a special scheme holds no slash, whichever names there are. -/
theorem slash_not_mem_chars_of_readSpecial [DomainNames] {cs : List Char} {host : Host}
    (h : Host.readSpecial cs = .ok host) : '/' ∉ host.chars := by
  unfold Host.readSpecial at h
  split at h
  · exact slash_not_mem_chars_of_bracketed h
  · split at h
    · cases h
    · split at h
      · cases h
      · rename_i name hname
        -- a slash is one of the characters that no name may hold
        have hslash : '/' ∉ name := by
          intro hmem
          exact absurd (DomainNames.allowed hname '/' hmem) (by decide)
        repeat' split at h
        · cases h
        · cases h
          exact slash_not_mem_ipv4Chars _
        · cases h
        · cases h
          rw [Host.chars, String.toList_ofList]
          exact hslash

/-- **Hosts.** The text of a host of a special scheme that was read holds no slash. -/
theorem slash_not_mem_chars_of_readHost [DomainNames] {scheme : String}
    (hspecial : isSpecial scheme = true)
    {cs : List Char} {host : Host} (h : readHost scheme cs = .ok host) : '/' ∉ host.chars := by
  rw [readHost, if_pos hspecial] at h
  split at h
  · cases h
  · exact slash_not_mem_chars_of_readSpecial h

end DropRoom.Url
