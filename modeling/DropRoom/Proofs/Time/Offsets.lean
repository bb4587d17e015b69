import DropRoom.Proofs.Time.RoundTrip

namespace DropRoom

/-!
# Offsets are dropped

A local point in time is read alike whether or not an offset from universal time follows it: the
offset is read, but the time is not moved.

* `Digits`, `LocalForm`, `Offset` — the texts that RFC 3339 lays out: numbers of fixed width, a
  fraction of any length, and an offset below a day;
* `LocalForm.meaning?` — the point in time of a text, where the calendar and the clock have it;
* `LocalForm.local?_chars`, `LocalForm.local?_chars_offset` — what the local form makes of it;
* `LocalForm.strict?_chars_offset` — what the strict form makes of it;
* `DateTime.reads_without_offset` — what is read.
-/

open DropRoom.Text

/-! ### Texts -/

/-- A number of so many digits, as it is written. -/
structure Digits (width : Nat) where
  chars : List Char
  length_eq : chars.length = width
  isDigit : ∀ c ∈ chars, Text.isDigit c = true

/-- The number that the digits denote. -/
def Digits.value {width : Nat} (digits : Digits width) : Nat :=
  digitsValue digits.chars

/-- A fraction of a second: a point and at least one digit. -/
structure Fraction where
  digits : List Char
  ne_nil : digits ≠ []
  isDigit : ∀ c ∈ digits, Text.isDigit c = true

/-- The nanoseconds of a fraction, without what is less than one of them. -/
def Fraction.nanosecond (fraction : Fraction) : Nat :=
  digitsValue (fraction.digits.take 9) * 10 ^ (9 - fraction.digits.length)

/-- A local point in time as RFC 3339 lays it out.  Its numbers need not be in range. -/
structure LocalForm where
  year : Digits 4
  month : Digits 2
  day : Digits 2
  hour : Digits 2
  minute : Digits 2
  second : Digits 2
  fraction : Option Fraction

/-- An offset from universal time as RFC 3339 lays it out. -/
inductive Offset where
  | none
  | hours (negative : Bool) (hour minute : Digits 2) (hour_lt : hour.value < 24)
    (minute_lt : minute.value < 60)

namespace LocalForm

/-- The fraction of a second, if there is one. -/
def fractionChars (text : LocalForm) : List Char :=
  match text.fraction with
  | .none => []
  | some fraction => '.' :: fraction.digits

/-- The nanoseconds of the fraction. -/
def nanosecond (text : LocalForm) : Nat :=
  match text.fraction with
  | .none => 0
  | some fraction => fraction.nanosecond

/-- The characters of a local point in time. -/
def chars (text : LocalForm) : List Char :=
  text.year.chars ++ '-' :: (text.month.chars ++ '-' :: (text.day.chars ++ 'T' ::
    (text.hour.chars ++ ':' :: (text.minute.chars ++ ':' ::
      (text.second.chars ++ text.fractionChars)))))

/-- The point in time that a text stands for, if its numbers are in range. -/
def meaning? (text : LocalForm) : Option DateTime :=
  DateTime.assemble? text.year.value text.month.value text.day.value text.hour.value
    text.minute.value text.second.value text.nanosecond

end LocalForm

namespace Offset

/-- The characters of an offset. -/
def chars : Offset → List Char
  | none => ['Z']
  | hours negative hour minute _ _ =>
    (if negative then '-' else '+') :: (hour.chars ++ ':' :: minute.chars)

/-- The minutes of an offset. -/
def minutes : Offset → Int
  | none => 0
  | hours negative hour minute _ _ =>
    if negative then -(60 * hour.value + minute.value : Int) else 60 * hour.value + minute.value

end Offset

/-! ### Numbers -/

namespace Digits

variable {width : Nat}

theorem takeWhile_take (digits : Digits width) (rest : List Char) :
    ((digits.chars ++ rest).take width).takeWhile Text.isDigit = digits.chars :=
  DateTime.takeWhile_take_digits digits.isDigit (.inl digits.length_eq)

theorem drop_chars (digits : Digits width) (rest : List Char) :
    (digits.chars ++ rest).drop width = rest :=
  List.drop_left' digits.length_eq

theorem exists_cons (digits : Digits (width + 1)) :
    ∃ c cs, digits.chars = c :: cs ∧ Text.isDigit c = true := by
  obtain ⟨c, cs, hcs⟩ := List.exists_cons_of_length_eq_add_one digits.length_eq
  exact ⟨c, cs, hcs, digits.isDigit c (hcs ▸ List.mem_cons_self)⟩

/-- Digits of the width that is allowed at most are all taken. -/
theorem number?_chars (digits : Digits (width + 1)) (rest : List Char) :
    DateTime.number? (width + 1) (digits.chars ++ rest) = some (digits.value, rest) := by
  have htake := digits.takeWhile_take rest
  have hdrop := digits.drop_chars rest
  have hlength := digits.length_eq
  obtain ⟨c, cs, hcs, _⟩ := digits.exists_cons
  rw [DateTime.number?, htake, value]
  rw [hcs] at hdrop hlength ⊢
  simp only [hlength, hdrop]

theorem fixed?_chars (digits : Digits width) (rest : List Char) :
    DateTime.fixed? width (digits.chars ++ rest) = some (digits.value, rest) := by
  rw [DateTime.fixed?, digits.takeWhile_take]
  simp only [digits.length_eq, if_true, digits.drop_chars]
  rfl

theorem trimStart_chars (digits : Digits (width + 1)) (rest : List Char) :
    trimStart (digits.chars ++ rest) = digits.chars ++ rest := by
  obtain ⟨c, cs, hcs, hc⟩ := digits.exists_cons
  rw [hcs, List.cons_append, DateTime.trimStart_cons (DateTime.isBlankChar_of_isDigit hc)]

/-- A year of four digits has no sign. -/
theorem year?_chars (digits : Digits 4) (rest : List Char) :
    DateTime.year? (digits.chars ++ rest) = some ((digits.value : Int), rest) := by
  have hnumber := digits.number?_chars rest
  obtain ⟨c, cs, hcs, hc⟩ := digits.exists_cons
  rw [DateTime.year?, digits.trimStart_chars]
  rw [hcs, List.cons_append] at hnumber ⊢
  split
  · rename_i heq
    exact absurd (List.cons.inj heq).1 (ne_of_isDigit hc rfl)
  · rename_i heq
    exact absurd (List.cons.inj heq).1 (ne_of_isDigit hc rfl)
  · rw [hnumber]
    rfl

end Digits

/-- The digits of a fraction are all taken, and those after the ninth dropped. -/
theorem Fraction.nanoseconds?_digits (fraction : Fraction) {rest : List Char}
    (hrest : DateTime.EndsTime rest) :
    DateTime.nanoseconds? (fraction.digits ++ rest) = some (fraction.nanosecond, rest) := by
  have hsplit : fraction.digits ++ rest = fraction.digits.take 9 ++ (fraction.digits.drop 9 ++ rest) := by
    rw [← List.append_assoc, List.take_append_drop]
  have hfirst : ∀ c ∈ fraction.digits.take 9, Text.isDigit c = true :=
    fun c hc => fraction.isDigit c (List.mem_of_mem_take hc)
  have hlast : ∀ c ∈ fraction.digits.drop 9, Text.isDigit c = true :=
    fun c hc => fraction.isDigit c (List.mem_of_mem_drop hc)
  have hlength : (fraction.digits.take 9).length = min 9 fraction.digits.length := List.length_take
  -- either nine digits are there, or no further one follows
  have hends : (fraction.digits.take 9).length = 9 ∨ (fraction.digits.take 9).length ≤ 9 ∧
      ∀ c ∈ (fraction.digits.drop 9 ++ rest).head?, Text.isDigit c = false := by
    by_cases hnine : 9 ≤ fraction.digits.length
    · left
      omega
    · refine .inr ⟨by omega, fun c hc => ?_⟩
      rw [List.drop_of_length_le (by omega), List.nil_append] at hc
      exact (hrest c hc).1
  have htake := DateTime.takeWhile_take_digits hfirst hends
  have hdrop : (fraction.digits.drop 9 ++ rest).dropWhile Text.isDigit = rest := by
    rw [List.dropWhile_append_of_pos hlast, hrest.dropWhile]
  have hwidth : 9 - (fraction.digits.take 9).length = 9 - fraction.digits.length := by omega
  obtain ⟨c, cs, hcs⟩ := List.exists_cons_of_ne_nil fraction.ne_nil
  have hnonempty : fraction.digits.take 9 = c :: cs.take 8 := by rw [hcs, List.take_succ_cons]
  rw [hsplit, DateTime.nanoseconds?, htake, Fraction.nanosecond, ← hwidth]
  rw [hnonempty] at *
  simp only [List.drop_left, hdrop]
  rfl

namespace LocalForm

variable (text : LocalForm)

theorem fraction?_chars {rest : List Char} (hrest : DateTime.EndsTime rest) :
    DateTime.fraction? (text.fractionChars ++ rest) = some (text.nanosecond, rest) := by
  rw [fractionChars, nanosecond]
  cases text.fraction with
  | none =>
    rw [List.nil_append, DateTime.fraction?]
    rintro more rfl
    exact (hrest '.' rfl).2.1 rfl
  | some fraction => exact fraction.nanoseconds?_digits hrest

/-! ### The two forms -/

/-- The local form reads a text up to what follows it. -/
theorem local?_append {rest : List Char} (hrest : DateTime.EndsTime rest) :
    DateTime.local? (text.chars ++ rest) = if rest.isEmpty then text.meaning? else none := by
  -- the marks between the numbers are no blanks, and are there
  have hdash (cs : List Char) : DateTime.char? '-' (trimStart ('-' :: cs)) = some cs := rfl
  have hcolon (cs : List Char) : DateTime.char? ':' (trimStart (':' :: cs)) = some cs := rfl
  have hmark (cs : List Char) : DateTime.char? 'T' (trimStart ('T' :: cs)) = some cs := rfl
  rw [DateTime.local?, chars]
  simp only [DateTime.looseDate?, DateTime.looseTime?, List.append_assoc, List.cons_append,
    Digits.year?_chars, Digits.trimStart_chars, Digits.number?_chars, hdash, hcolon, hmark,
    text.fraction?_chars hrest, hrest.trimStart, Option.bind_eq_bind, Option.bind_some,
    Option.pure_def]
  rfl

/-- The strict form reads a text up to the offset that follows it. -/
theorem strict?_append {rest : List Char} (hrest : DateTime.EndsTime rest) :
    DateTime.strict? (text.chars ++ rest) =
      (DateTime.offset? (DateTime.char? ':') rest).bind fun read =>
        text.meaning?.bind fun t => if read.2.isEmpty then some (t, read.1) else none := by
  have hdash (cs : List Char) : DateTime.char? '-' ('-' :: cs) = some cs := rfl
  have hcolon (cs : List Char) : DateTime.char? ':' (':' :: cs) = some cs := rfl
  have hmark (cs : List Char) : DateTime.separator? ('T' :: cs) = some cs := rfl
  rw [DateTime.strict?, chars]
  simp only [List.append_assoc, List.cons_append, Option.bind_eq_bind, Option.pure_def]
  simp only [Digits.fixed?_chars, hdash, hcolon, hmark, text.fraction?_chars hrest, Option.bind_some]
  rfl

end LocalForm

/-! ### Offsets -/

namespace Offset

/-- An offset is told from the time before it by its first character. -/
theorem endsTime_chars (offset : Offset) : DateTime.EndsTime offset.chars := by
  cases offset with
  | none =>
    rintro c ⟨⟩
    decide
  | hours negative hour minute _ _ =>
    cases negative with
    | false =>
      rintro c ⟨⟩
      decide
    | true =>
      rintro c ⟨⟩
      decide

theorem chars_ne_nil (offset : Offset) : offset.chars ≠ [] := by
  cases offset <;> exact List.cons_ne_nil _ _

/-- An offset is read as its minutes. -/
theorem offset?_chars (offset : Offset) :
    DateTime.offset? (DateTime.char? ':') offset.chars = some (offset.minutes, []) := by
  have hcolon (cs : List Char) : DateTime.char? ':' (':' :: cs) = some cs := rfl
  cases offset with
  | none => rfl
  | hours negative hour minute hour_lt minute_lt =>
    have hrange : minute.value < 60 ∧ 60 * hour.value + minute.value < 1440 := by omega
    have hminute := minute.fixed?_chars []
    rw [List.append_nil] at hminute
    have hsigned (sign : Char) (hsign : ∀ cs, DateTime.offsetSign? (sign :: cs) = some (negative, cs)) :
        DateTime.signedOffset? (DateTime.char? ':') (sign :: (hour.chars ++ ':' :: minute.chars)) =
          some ((hours negative hour minute hour_lt minute_lt).minutes, []) := by
      simp only [DateTime.signedOffset?, hsign, Digits.fixed?_chars, hcolon, hminute,
        Option.bind_eq_bind, Option.bind_some, Option.pure_def, if_pos hrange]
      rfl
    cases negative with
    | false => exact hsigned '+' fun _ => rfl
    | true => exact hsigned '-' fun _ => rfl

end Offset

namespace DateTime

/-- Without an offset, a text is read by the local form alone. -/
theorem timestamp?_chars (text : LocalForm) :
    timestamp? (String.ofList text.chars) = text.meaning? := by
  have hends : EndsTime [] := by
    intro c hc
    cases hc
  have hlocal := text.local?_append hends
  have hstrict := text.strict?_append hends
  have hnone : offset? (char? ':') [] = none := rfl
  rw [List.append_nil] at hlocal hstrict
  rw [timestamp?, String.toList_ofList, hlocal, hstrict, hnone]
  cases text.meaning? <;> rfl

/-- With an offset, a text is read by the strict form alone. -/
theorem timestamp?_chars_offset (text : LocalForm) (offset : Offset) :
    timestamp? (String.ofList (text.chars ++ offset.chars)) = text.meaning? := by
  have hlocal := text.local?_append offset.endsTime_chars
  have hstrict := text.strict?_append offset.endsTime_chars
  have hrest : offset.chars.isEmpty = false := by
    rw [List.isEmpty_eq_false_iff]
    exact offset.chars_ne_nil
  rw [offset.offset?_chars] at hstrict
  rw [timestamp?, String.toList_ofList, hlocal, hstrict, hrest]
  cases text.meaning? <;> rfl

/-- **Offsets are dropped.** A local point in time that is laid out as RFC 3339 has it is accepted
exactly if its numbers are in range, and so it is with any offset after it: it is read as the same
point in time, which the offset does not move.  And whatever text is accepted, in whatever form, what
it is read as is read again from its own text in a document. -/
theorem reads_without_offset :
    (∀ (text : LocalForm) (offset : Offset),
      timestamp? (String.ofList (text.chars ++ offset.chars)) =
          timestamp? (String.ofList text.chars) ∧
        timestamp? (String.ofList text.chars) = text.meaning?) ∧
    ∀ (s : String) (t : DateTime), timestamp? s = some t →
      Json.decodeText timestamp t.toJson.render = .ok t := by
  refine ⟨fun text offset => ?_, fun s t hread => ?_⟩
  · exact ⟨(timestamp?_chars_offset text offset).trans (timestamp?_chars text).symm,
      timestamp?_chars text⟩
  · have hnesting : Json.nesting t.toJson < Json.depthLimit := by
      show 0 < Json.depthLimit
      decide
    -- what was read from a text is told as it is
    have htold : t.asTold = t := t.asTold_eq_iff.mpr (leapsAtMinuteEnd_of_timestamp? hread)
    have hreads := t.reads_timestamp
    rw [htold] at hreads
    exact Json.decodeText_render hreads hnesting

/-- A leap second at the end of a year, with more digits than nanoseconds have and an offset that
leads into another day. -/
theorem reads_without_offset_of_leap_second :
    ∃ t, timestamp? "2016-12-31T23:59:60.1234567899-23:59" = some t ∧
      timestamp? "2016-12-31T23:59:60.1234567899" = some t ∧
      t.render = "2016-12-31T23:59:60.123456789" ∧
      Json.decodeText timestamp t.toJson.render = .ok t := by
  let text : LocalForm :=
    { year := ⟨"2016".toList, rfl, List.all_eq_true.mp (by decide)⟩
      month := ⟨"12".toList, rfl, List.all_eq_true.mp (by decide)⟩
      day := ⟨"31".toList, rfl, List.all_eq_true.mp (by decide)⟩
      hour := ⟨"23".toList, rfl, List.all_eq_true.mp (by decide)⟩
      minute := ⟨"59".toList, rfl, List.all_eq_true.mp (by decide)⟩
      second := ⟨"60".toList, rfl, List.all_eq_true.mp (by decide)⟩
      fraction := some ⟨"1234567899".toList, by decide, List.all_eq_true.mp (by decide)⟩ }
  let offset : Offset :=
    .hours true ⟨"23".toList, rfl, List.all_eq_true.mp (by decide)⟩
      ⟨"59".toList, rfl, List.all_eq_true.mp (by decide)⟩ (by decide) (by decide)
  have hread : timestamp? "2016-12-31T23:59:60.1234567899" = some
      ⟨⟨2016, 12, 31, by decide⟩, ⟨23, 59, 59, 1123456789, by decide, by decide, by decide, by decide⟩⟩ := by
    decide +kernel
  obtain ⟨hforms, hagain⟩ := reads_without_offset
  exact ⟨_, (hforms text offset).1.trans hread, hread, by decide +kernel, hagain _ _ hread⟩

end DateTime

end DropRoom
