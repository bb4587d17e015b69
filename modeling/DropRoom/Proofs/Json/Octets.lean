import DropRoom.Json.Octets
import DropRoom.Proofs.Bytes.Utf8

namespace DropRoom.Json

/-!
# Documents in octets

The octets of a text are read as that text.  Octets that belong to no character do not stop a text
that is passed over, and no text that is read holds them.

* `charsOfOctets_encodeChars`, `decodeOctets?_encode` — the octets of a text;
* `skipText_noCharacter`, `scanTextChars_noCharacter` — octets that belong to no character, between
  quotes.
-/

open Utf8 (encode encodeChars encodeChars_cons front_encodeChar)

/-- The octets of characters stand for these characters, between quotes or not. -/
theorem charsOfOctets_encodeChars {cs : List Char} {most : Nat} (h : cs.length ≤ most)
    (quoted escaped : Bool) : charsOfOctets quoted escaped most (encodeChars cs) = cs := by
  induction cs generalizing most quoted escaped with
  | nil =>
    cases most with
    | zero => rfl
    | succ most => rfl
  | cons c cs ih =>
    cases most with
    | zero => exact absurd h (Nat.not_succ_le_zero _)
    | succ most =>
      rw [encodeChars_cons, charsOfOctets, front_encodeChar]
      simp only [ih (Nat.le_of_succ_le_succ h)]

/-- The document of the octets of a text is that of the text. -/
theorem decodeOctets?_encode {α : Type} (decode : Decoder α) (text : String) :
    decodeOctets? decode (encode text) = (decodeText decode text).toOption := by
  have hchars := charsOfOctets_encodeChars (Utf8.length_le_length_encodeChars text.toList) false false
  rw [decodeOctets?, encode, hchars, String.ofList_toList]

/-- A text is passed over alike with and without octets that belong to no character. -/
theorem skipText_noCharacter (cs : List Char) :
    skipText (noCharacter true false ++ cs) = skipText cs := by
  show skipText ('\\' :: 'u' :: '0' :: '0' :: '0' :: '0' :: '\\' :: 'u' :: 'd' :: 'c' :: '0' :: '0' ::
    cs) = _
  have hnull : hex4? '0' '0' '0' '0' = some 0 := by decide
  have hhalf : hex4? 'd' 'c' '0' '0' = some 0xDC00 := by decide
  rw [skipText, hnull]
  simp only
  rw [skipText, hhalf]

/-- No text that is read holds octets that belong to no character. -/
theorem scanTextChars_noCharacter (cs chars rest : List Char) :
    scanTextChars (noCharacter true false ++ cs) ≠ .ok (.inl (chars, rest)) := by
  show scanTextChars ('\\' :: 'u' :: '0' :: '0' :: '0' :: '0' :: '\\' :: 'u' :: 'd' :: 'c' :: '0' ::
    '0' :: cs) ≠ _
  have hnull : hex4? '0' '0' '0' '0' = some 0 := by decide
  have hhalf : hex4? 'd' 'c' '0' '0' = some 0xDC00 := by decide
  have hunpaired : ∃ text after, unpairedText cs = .ok (text, after) := by
    rw [unpairedText]
    split
    · exact ⟨_, _, rfl⟩
    · exact ⟨_, _, rfl⟩
  obtain ⟨text, after, htext⟩ := hunpaired
  rw [scanTextChars, hnull]
  simp only
  rw [if_neg (by decide), if_neg (by decide), scanTextChars, hhalf]
  simp only
  rw [if_pos (by decide), htext]
  intro h
  cases h

end DropRoom.Json
