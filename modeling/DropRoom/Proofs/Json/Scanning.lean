import DropRoom.Proofs.Json.Grammar
import DropRoom.Proofs.Text.Digits

namespace DropRoom.Json

/-!
# Texts and numbers are read

The reader finds the end of a text and of a number, and what it makes of them does not depend on what
follows.

* `scanTextChars_of_spells` — the characters that a text spells are read;
* `textOf`, `IsText.scanText` — every text between quotes is read, or passed over;
* `Ends` — what may follow a value;
* `numeralOf`, `scanNumber_append` — a number is what its parts denote;
* `exists_scanNumber` — every number is read.
-/

open DropRoom.Text

/-! ### Texts -/

/-- A character that needs no escape stands for itself. -/
theorem scanTextChars_of_plain {c : Char} (hquote : c ≠ '"') (hslash : c ≠ '\\')
    (hlow : ¬ c.toNat < 32) (rest : List Char) :
    scanTextChars (c :: rest) = consText c (scanTextChars rest) := by
  rw [scanTextChars]
  · rw [if_neg hlow]
  · exact hquote
  · exact fun _ _ _ _ _ heq _ => hslash heq
  · exact fun _ heq _ => hslash heq
  · exact fun heq _ => hslash heq
  · exact fun _ _ heq _ => hslash heq

/-- A plain character is passed over. -/
theorem skipText_of_plain {c : Char} (hquote : c ≠ '"') (hslash : c ≠ '\\') (hlow : 32 ≤ c.toNat)
    (rest : List Char) : skipText (c :: rest) = skipText rest := by
  rw [skipText]
  · rw [if_neg (by omega)]
  · exact hquote
  · exact fun _ _ _ _ _ heq _ => hslash heq
  · exact fun _ heq _ => hslash heq
  · exact fun heq _ => hslash heq
  · exact fun _ _ heq _ => hslash heq

/-- The escape of four digits is none of the short ones. -/
theorem ne_of_shortEscape? {e c : Char} (h : shortEscape? e = some c) : e ≠ 'u' := by
  rintro rfl
  cases h

/-- So is a short escape. -/
theorem skipText_of_short {e c : Char} (he : shortEscape? e = some c) (rest : List Char) :
    skipText ('\\' :: e :: rest) = skipText rest := by
  have hcode := ne_of_shortEscape? he
  rw [skipText, he]
  · exact fun _ _ _ _ _ heq _ => hcode heq
  · exact hcode

/-- All that makes a text is passed over, up to its closing quote. -/
theorem skipText_of_isText {cs : List Char} (h : IsText cs) (rest : List Char) :
    skipText (cs ++ '"' :: rest) = .ok rest := by
  induction h with
  | nil => rfl
  | plain hquote hslash hlow _ ih => rw [List.cons_append, skipText_of_plain hquote hslash hlow, ih]
  | short he _ ih =>
    obtain ⟨c, hc⟩ := Option.isSome_iff_exists.mp he
    rw [List.cons_append, List.cons_append, skipText_of_short hc, ih]
  | code hcode _ ih =>
    obtain ⟨n, hn⟩ := Option.isSome_iff_exists.mp hcode
    simp only [List.cons_append]
    rw [skipText, hn]
    exact ih

/-- A short escape stands for its character. -/
theorem scanTextChars_of_short {e c : Char} (he : shortEscape? e = some c) (rest : List Char) :
    scanTextChars ('\\' :: e :: rest) = consText c (scanTextChars rest) := by
  have hcode := ne_of_shortEscape? he
  rw [scanTextChars, he]
  · exact fun _ _ _ _ _ heq _ => hcode heq
  · exact hcode

/-- The characters that a text spells are read. -/
theorem scanTextChars_of_spells {cs s : List Char} (h : Spells cs s) (rest : List Char) :
    scanTextChars (cs ++ '"' :: rest) = .ok (.inl (s, rest)) := by
  induction h with
  | nil => rfl
  | plain hquote hslash hlow _ ih =>
    rw [List.cons_append, scanTextChars_of_plain hquote hslash (by omega), ih]
    rfl
  | short he _ ih =>
    rw [List.cons_append, List.cons_append, scanTextChars_of_short he, ih]
    rfl
  | code hn hrange _ ih =>
    simp only [List.cons_append]
    rw [scanTextChars, hn]
    simp only [ih]
    rw [if_neg (by omega), if_neg (by omega)]
    rfl
  | pair hn hhigh hm hlow _ ih =>
    simp only [List.cons_append]
    rw [scanTextChars, hn]
    simp only [hm, ih]
    rw [if_neg (by omega), if_pos hhigh, if_pos hlow]
    rfl

/-- The outcome of reading a text does not depend on what follows it: its characters, or that one of
its escapes is half of a pair. -/
def ScansAs (cs : List Char) (chars : Option (List Char)) : Prop :=
  ∀ rest, scanTextChars (cs ++ '"' :: rest) = .ok
    (match chars with
    | some chars => .inl (chars, rest)
    | none => .inr (.unpaired none, rest))

/-- A text with half of a pair is passed over up to its closing quote, too. -/
theorem unpairedText_of_isText {cs : List Char} (h : IsText cs) (rest : List Char) :
    unpairedText (cs ++ '"' :: rest) = .ok (.unpaired none, rest) := by
  rw [unpairedText, skipText_of_isText h]

/-- A character may be put in front of what is scanned. -/
theorem ScansAs.cons {cs : List Char} {chars : Option (List Char)} (h : ScansAs cs chars)
    (front : List Char) (c : Char)
    (hfront : ∀ rest, scanTextChars (front ++ rest) = consText c (scanTextChars rest)) :
    ScansAs (front ++ cs) (chars.map (c :: ·)) := by
  intro rest
  rw [List.append_assoc, hfront, h rest]
  cases chars <;> rfl

/-- Half of a pair is passed over with what follows it. -/
theorem scansAs_of_unpaired {cs : List Char} (h : IsText cs) (front : List Char)
    (hfront : ∀ rest, scanTextChars (front ++ (cs ++ '"' :: rest)) =
      (unpairedText (cs ++ '"' :: rest)).map .inr) : ScansAs (front ++ cs) none := by
  intro rest
  rw [List.append_assoc, hfront, unpairedText_of_isText h]
  rfl

/-- The second half of a pair at the front of a text. -/
def StartsLow (cs : List Char) : Prop :=
  ∃ a b c d m more, cs = '\\' :: 'u' :: a :: b :: c :: d :: more ∧ hex4? a b c d = some m ∧
    0xDC00 ≤ m ∧ m ≤ 0xDFFF

/-- The first half of a pair without the second. -/
theorem scansAs_of_high {a b c d : Char} {n : Nat} {cs : List Char} (hn : hex4? a b c d = some n)
    (hhigh : 0xD800 ≤ n ∧ n ≤ 0xDBFF) (h : IsText cs) (hsecond : ¬ StartsLow cs) :
    ScansAs (['\\', 'u', a, b, c, d] ++ cs) none := by
  refine scansAs_of_unpaired h _ fun rest => ?_
  show scanTextChars ('\\' :: 'u' :: a :: b :: c :: d :: (cs ++ '"' :: rest)) = _
  rw [scanTextChars, hn]
  dsimp only
  rw [if_neg (by omega), if_pos hhigh]
  -- only an escape of four digits right behind the first half could be the second
  cases h with
  | nil => rfl
  | plain hquote hslash hlow h =>
    rw [List.cons_append]
    split
    · rename_i heq
      cases heq
    · rename_i heq
      exact absurd (List.cons.inj heq).1 hslash
    · rename_i heq
      exact absurd (List.cons.inj heq).1 hslash
    · rename_i heq
      exact absurd (List.cons.inj heq).1 hslash
    · rfl
  | short he h =>
    obtain ⟨c, hc⟩ := Option.isSome_iff_exists.mp he
    have hcode := ne_of_shortEscape? hc
    rw [List.cons_append, List.cons_append]
    split
    · rename_i heq
      cases heq
    · rename_i heq
      exact absurd (List.cons.inj heq).2 (List.cons_ne_nil _ _)
    · rename_i heq
      exact absurd (List.cons.inj (List.cons.inj heq).2).1 hcode
    · rename_i heq
      exact absurd (List.cons.inj (List.cons.inj heq).2).1 hcode
    · rfl
  | code hm h =>
    obtain ⟨m, hm⟩ := Option.isSome_iff_exists.mp hm
    simp only [List.cons_append, hm]
    rw [if_neg fun hlow => hsecond ⟨_, _, _, _, m, _, rfl, hm, hlow⟩]

/-- What follows an escape of four digits is a text. -/
theorem IsText.of_code {a b c d : Char} {cs : List Char}
    (h : IsText ('\\' :: 'u' :: a :: b :: c :: d :: cs)) : IsText cs := by
  cases h with
  | plain hquote hslash hlow h => exact absurd rfl hslash
  | short he h => cases he
  | code hcode h => exact h

/-- Every text is read, or passed over.  A pair takes two escapes at once, so that the recursion is
on the length and not on the derivation. -/
theorem exists_scansAs : (cs : List Char) → IsText cs → ∃ chars, ScansAs cs chars
  | _, .nil => ⟨some [], fun _ => rfl⟩
  | _, @IsText.plain c cs hquote hslash hlow h => by
    obtain ⟨chars, hchars⟩ := exists_scansAs cs h
    exact ⟨_, hchars.cons [c] c (scanTextChars_of_plain hquote hslash (by omega))⟩
  | _, @IsText.short e cs he h => by
    obtain ⟨c, hc⟩ := Option.isSome_iff_exists.mp he
    obtain ⟨chars, hchars⟩ := exists_scansAs cs h
    exact ⟨_, hchars.cons ['\\', e] c (scanTextChars_of_short hc)⟩
  | _, @IsText.code a b c d cs hcode h => by
    obtain ⟨n, hn⟩ := Option.isSome_iff_exists.mp hcode
    -- the number may be a second half, a first half with or without the second, or a character
    by_cases hlow : 0xDC00 ≤ n ∧ n ≤ 0xDFFF
    · refine ⟨none, scansAs_of_unpaired h ['\\', 'u', a, b, c, d] fun rest => ?_⟩
      show scanTextChars ('\\' :: 'u' :: a :: b :: c :: d :: (cs ++ '"' :: rest)) = _
      rw [scanTextChars, hn]
      dsimp only
      rw [if_pos hlow]
    · by_cases hhigh : 0xD800 ≤ n ∧ n ≤ 0xDBFF
      · by_cases hsecond : StartsLow cs
        · obtain ⟨a', b', c', d', m, more, rfl, hm, hrange⟩ := hsecond
          obtain ⟨chars, hchars⟩ := exists_scansAs more h.of_code
          refine ⟨_, hchars.cons ['\\', 'u', a, b, c, d, '\\', 'u', a', b', c', d']
            (Char.ofNat (0x10000 + (n - 0xD800) * 0x400 + (m - 0xDC00))) fun rest => ?_⟩
          show scanTextChars ('\\' :: 'u' :: a :: b :: c :: d :: '\\' :: 'u' :: a' :: b' :: c' :: d' ::
            rest) = _
          rw [scanTextChars, hn]
          simp only [hm]
          rw [if_neg (by omega), if_pos hhigh, if_pos hrange]
        · exact ⟨none, scansAs_of_high hn hhigh h hsecond⟩
      · obtain ⟨chars, hchars⟩ := exists_scansAs cs h
        refine ⟨_, hchars.cons ['\\', 'u', a, b, c, d] (Char.ofNat n) fun rest => ?_⟩
        show scanTextChars ('\\' :: 'u' :: a :: b :: c :: d :: rest) = _
        rw [scanTextChars, hn]
        dsimp only
        rw [if_neg hlow, if_neg hhigh]
termination_by cs => cs.length

/-- What the reader makes of the characters between two quotes. -/
def textOf (cs : List Char) : Text :=
  match scanText (cs ++ ['"']) with
  | .ok (t, _) => t
  | .error f => .unpaired (some f)

/-- The text of an outcome of reading. -/
def textOfChars : Option (List Char) → Text
  | some chars => .plain (String.ofList chars)
  | none => .unpaired none

/-- A text is scanned up to its quote. -/
theorem ScansAs.scanText {cs : List Char} {chars : Option (List Char)} (h : ScansAs cs chars)
    (rest : List Char) : scanText (cs ++ '"' :: rest) = .ok (textOfChars chars, rest) := by
  rw [Json.scanText, h rest]
  cases chars <;> rfl

/-- What it says is what is scanned. -/
theorem ScansAs.textOf {cs : List Char} {chars : Option (List Char)} (h : ScansAs cs chars) :
    textOf cs = textOfChars chars := by
  rw [Json.textOf, h.scanText []]

/-- **Texts.** Every text is read in one way, whatever follows it. -/
theorem IsText.scanText {cs : List Char} (h : IsText cs) (rest : List Char) :
    scanText (cs ++ '"' :: rest) = .ok (textOf cs, rest) := by
  obtain ⟨chars, hchars⟩ := exists_scansAs cs h
  rw [hchars.scanText rest, hchars.textOf]

/-- Every text can be passed over. -/
theorem IsText.skip_textOf {cs : List Char} (h : IsText cs) : (textOf cs).skip = .ok () := by
  obtain ⟨chars, hchars⟩ := exists_scansAs cs h
  rw [hchars.textOf]
  cases chars <;> rfl

/-- What the characters between two quotes spell is the text. -/
theorem Spells.textOf {cs s : List Char} (h : Spells cs s) :
    textOf cs = .plain (String.ofList s) := by
  have hscans : ScansAs cs (some s) := scanTextChars_of_spells h
  exact hscans.textOf

/-! ### Ends -/

/-- What may follow a value: its end, a blank, or a mark. -/
def Ends (rest : List Char) : Prop :=
  ∀ c ∈ rest.head?, isSpace c = true ∨ c = ',' ∨ c = ']' ∨ c = '}'

/-- A number may end at the end of the document. -/
theorem ends_nil : Ends [] := by
  intro c hc
  cases hc

/-- It may end at blanks. -/
theorem Ends.append {blanks rest : List Char} (hblanks : Blank blanks) (h : Ends rest) :
    Ends (blanks ++ rest) := by
  intro c hc
  cases blanks with
  | nil => exact h c hc
  | cons blank blanks =>
    obtain rfl := Option.some.inj hc
    exact .inl (hblanks _ List.mem_cons_self)

/-- A mark that is none of those that end a value does not follow it. -/
theorem Ends.head_ne {rest : List Char} (h : Ends rest) {mark : Char} (hspace : isSpace mark = false)
    (hmark : mark ≠ ',' ∧ mark ≠ ']' ∧ mark ≠ '}') : ∀ c ∈ rest.head?, c ≠ mark := by
  rintro c hc rfl
  rcases h c hc with hblank | rfl | rfl | rfl
  · rw [hspace] at hblank
    cases hblank
  · exact hmark.1 rfl
  · exact hmark.2.1 rfl
  · exact hmark.2.2 rfl

/-- Nothing that begins a number is a blank. -/
theorem isSpace_of_number {c : Char} (hc : c = '-' ∨ isDigit c = true) : isSpace c = false := by
  have hne (mark : Char) (hmark : ¬ (mark = '-' ∨ isDigit mark = true)) : c ≠ mark := by
    rintro rfl
    exact hmark hc
  simp [isSpace, hne ' ' (by decide), hne '\n' (by decide), hne '\t' (by decide),
    hne '\r' (by decide)]

/-- Where a number ends no digit follows. -/
theorem Ends.not_isDigit {rest : List Char} (h : Ends rest) : ∀ c ∈ rest.head?, isDigit c = false := by
  intro c hc
  rcases h c hc with hblank | rfl | rfl | rfl
  · rw [Bool.eq_false_iff]
    intro hdigit
    rw [isSpace_of_number (.inr hdigit)] at hblank
    cases hblank
  · rfl
  · rfl
  · rfl

/-! ### Numbers -/

/-- Digits begin with one. -/
theorem IsDigits.front {cs : List Char} (h : IsDigits cs) :
    ∃ c more, cs = c :: more ∧ isDigit c = true := by
  obtain ⟨c, more, rfl⟩ := List.exists_cons_of_ne_nil h.ne_nil
  exact ⟨c, more, rfl, h.all c List.mem_cons_self⟩

/-- So does the whole part of a number. -/
theorem IsWhole.front {cs : List Char} (h : IsWhole cs) :
    ∃ c more, cs = c :: more ∧ isDigit c = true := by
  rcases h with rfl | ⟨hdigits, _⟩
  · exact ⟨'0', [], rfl, rfl⟩
  · exact hdigits.front

/-- A number starts with its sign or a digit. -/
theorem IsNumber.front {cs : List Char} (h : IsNumber cs) :
    ∃ c more, cs = c :: more ∧ (c = '-' ∨ isDigit c = true) := by
  obtain ⟨sign, whole, fraction, exponent, rfl, hsign, hwhole, _, _⟩ := h
  obtain ⟨c, more, rfl, hc⟩ := hwhole.front
  rcases hsign with rfl | rfl
  · exact ⟨c, _, rfl, .inr hc⟩
  · exact ⟨'-', _, rfl, .inl rfl⟩

/-- A run of digits ends where no digit follows. -/
theorem scanDigits_append {digits rest : List Char} (hne : digits ≠ [])
    (hdigits : ∀ c ∈ digits, isDigit c = true) (hrest : ∀ c ∈ rest.head?, isDigit c = false) :
    scanDigits (digits ++ rest) = .ok (digits, rest) := by
  have hnone : rest.takeWhile isDigit = [] ∧ rest.dropWhile isDigit = rest := by
    cases rest with
    | nil => exact ⟨rfl, rfl⟩
    | cons c rest => simp [hrest c rfl]
  obtain ⟨c, digits, rfl⟩ := List.exists_cons_of_ne_nil hne
  rw [scanDigits, List.takeWhile_append_of_pos hdigits, List.dropWhile_append_of_pos hdigits,
    hnone.1, hnone.2, List.append_nil]

/-- The whole part is read up to where no digit follows. -/
theorem scanWhole_append {whole rest : List Char} (h : IsWhole whole)
    (hrest : ∀ c ∈ rest.head?, isDigit c = false) :
    scanWhole (whole ++ rest) = .ok (whole, rest) := by
  rcases h with rfl | ⟨hdigits, hzero⟩
  · cases rest with
    | nil => rfl
    | cons c rest =>
      show (if isDigit c then _ else _) = _
      rw [hrest c rfl]
      rfl
  · obtain ⟨c, more, rfl, _⟩ := hdigits.front
    rw [← scanDigits_append hdigits.ne_nil hdigits.all hrest, List.cons_append, scanWhole]
    rintro d rest' heq
    exact hzero (congrArg some (List.cons.inj heq).1)

/-- So is the fraction, up to where neither a digit nor a point follows. -/
theorem scanFraction_append {fraction rest : List Char} (h : IsFraction fraction)
    (hdigit : ∀ c ∈ rest.head?, isDigit c = false) (hpoint : ∀ c ∈ rest.head?, c ≠ '.') :
    scanFraction (fraction ++ rest) = .ok (fraction.tail, rest) := by
  rcases h with rfl | ⟨digits, rfl, hdigits⟩
  · cases rest with
    | nil => rfl
    | cons c rest =>
      rw [List.nil_append, scanFraction]
      · rfl
      · rintro more heq
        exact hpoint c rfl (List.cons.inj heq).1
  · exact scanDigits_append hdigits.ne_nil hdigits.all hdigit

/-- The power that the text of an exponent denotes. -/
def power? : List Char → Option Int
  | _ :: '-' :: digits => some (-(digitsValue digits : Int))
  | _ :: '+' :: digits => some (digitsValue digits : Int)
  | _ :: digits => some (digitsValue digits : Int)
  | [] => none

/-- So is the exponent. -/
theorem scanExponent_append {exponent rest : List Char} (h : IsExponent exponent) (hrest : Ends rest) :
    scanExponent (exponent ++ rest) = .ok (power? exponent, rest) := by
  rcases h with rfl | ⟨mark, sign, digits, rfl, hmark, hsign, hdigits⟩
  · cases rest with
    | nil => rfl
    | cons c rest =>
      have hlower : c ≠ 'e' := hrest.head_ne rfl (by decide) c rfl
      have hupper : c ≠ 'E' := hrest.head_ne rfl (by decide) c rfl
      show (if c = 'e' ∨ c = 'E' then _ else _) = _
      rw [if_neg (not_or.mpr ⟨hlower, hupper⟩)]
      rfl
  · have hscan : scanDigits (digits ++ rest) = .ok (digits, rest) :=
      scanDigits_append hdigits.ne_nil hdigits.all hrest.not_isDigit
    rcases hsign with rfl | rfl | rfl
    · -- the first digit is no sign
      obtain ⟨c, more, rfl, hc⟩ := hdigits.front
      have hminus : c ≠ '-' := ne_of_isDigit hc rfl
      have hplus : c ≠ '+' := ne_of_isDigit hc rfl
      have hpower : power? (mark :: c :: more) = some (digitsValue (c :: more) : Int) := by
        rw [power?]
        · exact fun _ heq => hminus (List.cons.inj heq).1
        · exact fun _ heq => hplus (List.cons.inj heq).1
      show scanExponent (mark :: ((c :: more) ++ rest)) = .ok (power? (mark :: c :: more), rest)
      rw [scanExponent, if_pos hmark, hscan, hpower]
      · rfl
      · exact fun _ heq => hminus (List.cons.inj heq).1
      · exact fun _ heq => hplus (List.cons.inj heq).1
    · show scanExponent (mark :: '+' :: (digits ++ rest)) = _
      rw [scanExponent, if_pos hmark, hscan]
      rfl
    · show scanExponent (mark :: '-' :: (digits ++ rest)) = _
      rw [scanExponent, if_pos hmark, hscan]
      rfl

/-- What follows the digits before the point. -/
theorem head_exponent {exponent rest : List Char} (h : IsExponent exponent) (hrest : Ends rest) :
    ∀ c ∈ (exponent ++ rest).head?, isDigit c = false ∧ c ≠ '.' := by
  rcases h with rfl | ⟨mark, sign, digits, rfl, hmark, _, _⟩
  · exact fun c hc => ⟨hrest.not_isDigit c hc, hrest.head_ne rfl (by decide) c hc⟩
  · intro c hc
    obtain rfl := Option.some.inj hc
    rcases hmark with rfl | rfl
    · decide
    · decide

/-- The number that its parts denote.  Without a point and an exponent it is an integer, unless it is
the negative zero. -/
def numeralOf (negative : Bool) (whole fraction exponent : List Char) : Numeral :=
  if fraction = [] ∧ exponent = [] ∧ ¬ (negative = true ∧ digitsValue whole = 0) then
    .integer (if negative then -(digitsValue whole : Int) else digitsValue whole)
  else
    .decimal negative (digitsValue (whole ++ fraction.tail))
      ((power? exponent).getD 0 - (fraction.tail.length : Int))

/-- A fraction with a point has digits after it. -/
theorem tail_eq_nil_iff {fraction : List Char} (h : IsFraction fraction) :
    fraction.tail = [] ↔ fraction = [] := by
  rcases h with rfl | ⟨digits, rfl, hdigits⟩
  · exact Iff.rfl
  · exact iff_of_false hdigits.ne_nil (List.cons_ne_nil _ _)

/-- An exponent that is written has a value. -/
theorem power?_eq_none_iff {exponent : List Char} (h : IsExponent exponent) :
    power? exponent = none ↔ exponent = [] := by
  rcases h with rfl | ⟨mark, sign, digits, rfl, _⟩
  · exact iff_of_true rfl rfl
  · refine iff_of_false (fun hnone => ?_) (List.cons_ne_nil _ _)
    unfold power? at hnone
    split at hnone
    · cases hnone
    · cases hnone
    · cases hnone
    · rename_i heq
      cases heq

/-- A number without its sign is read as what its parts say. -/
theorem scanUnsigned_append (negative : Bool) {whole fraction exponent rest : List Char}
    (hwhole : IsWhole whole) (hfraction : IsFraction fraction) (hexponent : IsExponent exponent)
    (hrest : Ends rest) :
    scanUnsigned negative (whole ++ (fraction ++ (exponent ++ rest))) =
      .ok (numeralOf negative whole fraction exponent, rest) := by
  have hnext := head_exponent hexponent hrest
  have hpoint : ∀ c ∈ (fraction ++ (exponent ++ rest)).head?, isDigit c = false := by
    rcases hfraction with rfl | ⟨digits, rfl, _⟩
    · exact fun c hc => (hnext c hc).1
    · rintro c ⟨⟩
      rfl
  rw [scanUnsigned, scanWhole_append hwhole hpoint, numeralOf]
  simp only [scanFraction_append hfraction (fun c hc => (hnext c hc).1) (fun c hc => (hnext c hc).2),
    scanExponent_append hexponent hrest, tail_eq_nil_iff hfraction, power?_eq_none_iff hexponent]
  split
  · rfl
  · rfl

/-- A number that is written with or without a sign. -/
theorem scanNumber_append (negative : Bool) {whole fraction exponent rest : List Char}
    (hwhole : IsWhole whole) (hfraction : IsFraction fraction) (hexponent : IsExponent exponent)
    (hrest : Ends rest) :
    scanNumber ((if negative then ['-'] else []) ++ (whole ++ (fraction ++ (exponent ++ rest)))) =
      .ok (numeralOf negative whole fraction exponent, rest) := by
  have hscan := scanUnsigned_append negative hwhole hfraction hexponent hrest
  cases negative with
  | true => exact hscan
  | false =>
    obtain ⟨c, more, rfl, hc⟩ := hwhole.front
    rw [← hscan]
    show scanNumber (c :: (more ++ _)) = _
    rw [scanNumber]
    · rfl
    · exact fun _ heq => ne_of_isDigit hc rfl (List.cons.inj heq).1

/-- **Numbers.** A number is read up to its end. -/
theorem exists_scanNumber {cs : List Char} (h : IsNumber cs) :
    ∃ n, ∀ rest, Ends rest → scanNumber (cs ++ rest) = .ok (n, rest) := by
  obtain ⟨sign, whole, fraction, exponent, rfl, hsign, hwhole, hfraction, hexponent⟩ := h
  have hnegative : ∃ negative : Bool, sign = if negative then ['-'] else [] := by
    rcases hsign with rfl | rfl
    · exact ⟨false, rfl⟩
    · exact ⟨true, rfl⟩
  obtain ⟨negative, rfl⟩ := hnegative
  refine ⟨numeralOf negative whole fraction exponent, fun rest hrest => ?_⟩
  rw [List.append_assoc, List.append_assoc, List.append_assoc]
  exact scanNumber_append negative hwhole hfraction hexponent hrest

end DropRoom.Json
