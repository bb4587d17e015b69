import DropRoom.Proofs.Json.Decoding
import DropRoom.Proofs.Text.Digits
import DropRoom.Time.Json
import DropRoom.Time.Printer
import DropRoom.Time.Reader

namespace DropRoom

/-!
# Points in time are read as they are written

The form of documents is one of the local form, and with a `Z` one of the lenient form: years
outside of 0 to 9999 have a sign, and a fraction has zero, three, six or nine digits.  The text of a
leap second is one of its own only at the end of a minute; anywhere else it is that of the next
second.

* `TimeOfDay.asTold` — the time that a text tells, and `TimeOfDay.asTold_eq_iff`, when it is the one
  that was written;
* `DateTime.number?_padded` — a padded number is read back;
* `DateTime.looseDate?_chars`, `DateTime.looseTime?_chars` — a day, and a time of day with its
  fraction;
* `DateTime.timestamp?_render` — a local point in time is read back as it is told;
* `DateTime.universal?_renderUtc` — and so is one in universal time;
* `DateTime.reads_timestamp`, `DateTime.reads_universal` — both within documents;
* `DateTime.leapsAtMinuteEnd_of_timestamp?` — what is read is told as it is.
-/

open DropRoom.Text

/-! ### Leap seconds -/

namespace TimeOfDay

/-- A leap second that a time is within is the last one of its minute. -/
def LeapsAtMinuteEnd (t : TimeOfDay) : Prop :=
  1000000000 ≤ t.nanosecond → t.second = 59

instance (t : TimeOfDay) : Decidable t.LeapsAtMinuteEnd := by
  unfold LeapsAtMinuteEnd; infer_instance

/-- The time that the text of a time tells.  Before the last second of a minute the text of a leap
second is that of the second after it. -/
def asTold (t : TimeOfDay) : TimeOfDay :=
  if h : t.second < 59 then
    have hnanosecond := t.nanosecond_lt
    ⟨t.hour, t.minute, t.second + t.nanosecond / 1000000000, t.nanosecond % 1000000000,
      t.hour_lt, t.minute_lt, by omega, by omega⟩
  else t

/-- A time is told as another one exactly within a leap second that does not end its minute. -/
theorem asTold_eq_iff (t : TimeOfDay) : t.asTold = t ↔ t.LeapsAtMinuteEnd := by
  have hrange := t.second_lt
  rw [asTold, LeapsAtMinuteEnd]
  split
  · rename_i hsecond
    constructor
    · intro h hleap
      -- the time that is told is not within a leap second
      have hnanosecond : t.nanosecond % 1000000000 = t.nanosecond := congrArg nanosecond h
      omega
    · intro h
      have hordinary : t.nanosecond < 1000000000 := by omega
      have hsame : t.second + t.nanosecond / 1000000000 = t.second := by omega
      simp only [hsame, Nat.mod_eq_of_lt hordinary]
  · exact ⟨fun _ _ => by omega, fun _ => rfl⟩

/-- What is written for a time is in range, and stands for the time that is told. -/
theorem of?_written (t : TimeOfDay) :
    of? t.hour t.minute t.writtenSecond t.writtenNanosecond = some t.asTold := by
  have hhour := t.hour_lt
  have hminute := t.minute_lt
  have hsecond := t.second_lt
  have hnanosecond := t.nanosecond_lt
  have hrange : t.hour < 24 ∧ t.minute < 60 ∧ t.second + t.nanosecond / 1000000000 ≤ 60 ∧
      t.nanosecond % 1000000000 < 1000000000 := by omega
  rw [of?, writtenSecond, writtenNanosecond, dif_pos hrange, asTold]
  by_cases hlast : t.second < 59
  · rw [dif_pos (by omega), dif_pos hlast]
  · rw [dif_neg hlast]
    by_cases hleap : t.nanosecond < 1000000000
    · have hsame : t.second + t.nanosecond / 1000000000 = t.second := by omega
      simp only [hsame, Nat.mod_eq_of_lt hleap, dif_pos hsecond]
    · -- the last second of the minute, and a leap second after it
      have hfiftyNine : 59 = t.second := by omega
      have hmore : 1000000000 + t.nanosecond % 1000000000 = t.nanosecond := by omega
      rw [dif_neg (by omega)]
      simp only [hfiftyNine, hmore]

/-- A time that was read from numbers in range leaps at the end of a minute only. -/
theorem leapsAtMinuteEnd_of_of? {hour minute second nanosecond : Nat} {t : TimeOfDay}
    (h : of? hour minute second nanosecond = some t) : t.LeapsAtMinuteEnd := by
  rw [of?] at h
  split at h
  · rename_i hrange
    split at h
    · cases h
      intro hleap
      exact absurd hrange.2.2.2 (Nat.not_lt.mpr hleap)
    · cases h
      exact fun _ => rfl
  · cases h

end TimeOfDay

namespace DateTime

/-- The point in time that the text of a point in time tells. -/
def asTold (t : DateTime) : DateTime :=
  ⟨t.date, t.time.asTold⟩

/-- A point in time is told as it is exactly if it leaps at the end of a minute only. -/
theorem asTold_eq_iff (t : DateTime) : t.asTold = t ↔ t.time.LeapsAtMinuteEnd := by
  rw [← t.time.asTold_eq_iff]
  constructor
  · exact fun h => congrArg time h
  · intro h
    rw [asTold, h]

/-! ### Numbers -/

/-- What is not blank is not trimmed. -/
theorem trimStart_cons {c : Char} (hc : isBlankChar c = false) (cs : List Char) :
    trimStart (c :: cs) = c :: cs := by
  rw [trimStart, List.dropWhile_cons_of_neg (by rw [hc]; exact Bool.false_ne_true)]

theorem isBlankChar_of_isDigit {c : Char} (hc : isDigit c = true) : isBlankChar c = false := by
  have hrange := isDigit_iff.mp hc
  simp only [isBlankChar, Bool.or_eq_false_iff, Bool.and_eq_false_iff, decide_eq_false_iff_not,
    beq_eq_false_iff_ne]
  omega

theorem padded_eq_cons (width n : Nat) : ∃ c cs, padded width n = c :: cs ∧ isDigit c = true := by
  have hne : padded width n ≠ [] := by
    rw [padded]
    exact List.append_ne_nil_of_right_ne_nil _ (digitsOf_ne_nil n)
  obtain ⟨c, cs, hcs⟩ := List.exists_cons_of_ne_nil hne
  have hmem : c ∈ padded width n := by
    rw [hcs]
    exact List.mem_cons_self
  exact ⟨c, cs, hcs, isDigit_of_mem_padded hmem⟩

theorem trimStart_padded (width n : Nat) (rest : List Char) :
    trimStart (padded width n ++ rest) = padded width n ++ rest := by
  obtain ⟨c, cs, hcs, hc⟩ := padded_eq_cons width n
  rw [hcs, List.cons_append, trimStart_cons (isBlankChar_of_isDigit hc)]

/-- A run of digits is taken up to a width, or up to where it ends. -/
theorem takeWhile_take_digits {width : Nat} {digits rest : List Char}
    (hdigits : ∀ c ∈ digits, isDigit c = true)
    (h : digits.length = width ∨ digits.length ≤ width ∧ ∀ c ∈ rest.head?, isDigit c = false) :
    ((digits ++ rest).take width).takeWhile isDigit = digits := by
  have hwidth : digits.length ≤ width := h.elim Nat.le_of_eq And.left
  have hnone : (rest.take (width - digits.length)).takeWhile isDigit = [] := by
    rcases h with hfull | ⟨_, hrest⟩
    · rw [hfull, Nat.sub_self]
      rfl
    · cases rest with
      | nil => rw [List.take_nil]; rfl
      | cons c rest =>
        cases width - digits.length with
        | zero => rfl
        | succ k => rw [List.take_succ_cons, List.takeWhile_cons_of_neg (by simp [hrest c rfl])]
  rw [List.take_append, List.take_of_length_le hwidth, List.takeWhile_append_of_pos hdigits, hnone,
    List.append_nil]

/-- A padded number is read back up to where it has to end. -/
theorem number?_padded {width most n : Nat} {rest : List Char}
    (h : (padded width n).length = most ∨
      (padded width n).length ≤ most ∧ ∀ c ∈ rest.head?, isDigit c = false) :
    number? most (padded width n ++ rest) = some (n, rest) := by
  obtain ⟨c, cs, hcs, _⟩ := padded_eq_cons width n
  have htake := takeWhile_take_digits (fun _ => isDigit_of_mem_padded) h
  have hvalue := digitsValue_padded width n
  rw [number?, htake]
  rw [hcs] at hvalue ⊢
  simp only [hvalue, List.drop_left]

/-- A number of the width that it is padded to. -/
theorem number?_of_fits {width n : Nat} (hwidth : 0 < width) (h : n < 10 ^ width)
    (rest : List Char) : number? width (padded width n ++ rest) = some (n, rest) :=
  number?_padded (.inl (length_padded hwidth h))

/-! ### Days -/

/-- A year is read back before a dash. -/
theorem year?_yearChars (year : Int) (rest : List Char) :
    year? (Date.yearChars year ++ '-' :: rest) = some (year, '-' :: rest) := by
  -- with a sign in front, as many digits are taken as there are
  have hsigned (n : Nat) : number? (padded 4 n ++ '-' :: rest).length (padded 4 n ++ '-' :: rest) =
      some (n, '-' :: rest) := by
    refine number?_padded (.inr ⟨?_, ?_⟩)
    · rw [List.length_append]
      omega
    · rintro c ⟨⟩
      rfl
  rw [Date.yearChars]
  split
  · have hyear : -(year.natAbs : Int) = year := by omega
    show (number? (padded 4 year.natAbs ++ '-' :: rest).length
      (padded 4 year.natAbs ++ '-' :: rest)).map _ = _
    rw [hsigned]
    simp only [Option.map_some, hyear]
  · split
    · -- without a sign the year has four digits, and starts with one
      have hyear : (year.natAbs : Int) = year := by omega
      have hfits : year.natAbs < 10 ^ 4 := by omega
      obtain ⟨c, cs, hcs, hc⟩ := padded_eq_cons 4 year.natAbs
      have hnumber := number?_of_fits (by decide) hfits ('-' :: rest)
      rw [year?, trimStart_padded]
      rw [hcs] at hnumber ⊢
      rw [List.cons_append] at hnumber ⊢
      split
      · rename_i heq
        exact absurd (List.cons.inj heq).1 (ne_of_isDigit hc rfl)
      · rename_i heq
        exact absurd (List.cons.inj heq).1 (ne_of_isDigit hc rfl)
      · rw [hnumber]
        simp only [Option.map_some, hyear]
    · have hyear : (year.natAbs : Int) = year := by omega
      show (number? (padded 4 year.natAbs ++ '-' :: rest).length
        (padded 4 year.natAbs ++ '-' :: rest)).map _ = _
      rw [hsigned]
      simp only [Option.map_some, hyear]

theorem month_lt (d : Date) : d.month < 10 ^ 2 := by
  have hvalid := d.valid.2.2.2.1
  omega

theorem day_lt (d : Date) : d.day < 10 ^ 2 := by
  have hvalid := d.valid.2.2.2.2.2
  have hmonth : Date.daysInMonth d.year d.month ≤ 31 := by
    rw [Date.daysInMonth]
    split
    · split <;> omega
    · split <;> omega
  omega

/-- A day is read back. -/
theorem looseDate?_chars (d : Date) (rest : List Char) :
    looseDate? (d.chars ++ rest) = some ((d.year, d.month, d.day), rest) := by
  have hdash (cs : List Char) : char? '-' (trimStart ('-' :: cs)) = some cs := rfl
  rw [looseDate?, Date.chars]
  simp only [List.append_assoc, List.cons_append, year?_yearChars, hdash, trimStart_padded,
    number?_of_fits (by decide) (month_lt d), number?_of_fits (by decide) (day_lt d),
    Option.bind_eq_bind, Option.bind_some, Option.pure_def]

/-! ### Times of day -/

/-- What follows a time of day has no more digits and is no point. -/
def EndsTime (rest : List Char) : Prop :=
  ∀ c ∈ rest.head?, isDigit c = false ∧ c ≠ '.' ∧ isBlankChar c = false

theorem EndsTime.trimStart {rest : List Char} (h : EndsTime rest) : trimStart rest = rest := by
  cases rest with
  | nil => rfl
  | cons c rest => exact trimStart_cons (h c rfl).2.2 rest

theorem EndsTime.dropWhile {rest : List Char} (h : EndsTime rest) :
    rest.dropWhile isDigit = rest := by
  cases rest with
  | nil => rfl
  | cons c rest =>
    rw [List.dropWhile_cons_of_neg]
    simp [(h c rfl).1]

/-- A fraction of so many digits is read back as nanoseconds. -/
theorem nanoseconds?_padded {width n : Nat} (hwidth : 0 < width) (hmost : width ≤ 9)
    (h : n < 10 ^ width) {rest : List Char} (hrest : EndsTime rest) :
    nanoseconds? (padded width n ++ rest) = some (n * 10 ^ (9 - width), rest) := by
  obtain ⟨c, cs, hcs, _⟩ := padded_eq_cons width n
  have hlength := length_padded hwidth h
  have hmany : (padded width n).length ≤ 9 := by omega
  have htake := takeWhile_take_digits (fun _ => isDigit_of_mem_padded)
    (.inr ⟨hmany, fun c hc => (hrest c hc).1⟩)
  have hdrop : (padded width n ++ rest).drop width = rest := List.drop_left' hlength
  have hvalue := digitsValue_padded width n
  rw [nanoseconds?, htake]
  rw [hcs] at hlength hvalue hdrop ⊢
  simp only [hvalue, hlength, hdrop, hrest.dropWhile]
  rfl

/-- The fraction of a second is read back. -/
theorem fraction?_fractionChars {nanosecond : Nat} (h : nanosecond < 1000000000) {rest : List Char}
    (hrest : EndsTime rest) :
    fraction? (TimeOfDay.fractionChars nanosecond ++ rest) = some (nanosecond, rest) := by
  rw [TimeOfDay.fractionChars]
  split
  · rename_i hzero
    rw [hzero, List.nil_append, fraction?]
    rintro more rfl
    exact (hrest '.' rfl).2.1 rfl
  · split
    · have hvalue : nanosecond / 1000000 * 10 ^ (9 - 3) = nanosecond := by omega
      show nanoseconds? (padded 3 (nanosecond / 1000000) ++ rest) = _
      rw [nanoseconds?_padded (by decide) (by decide) (by omega) hrest, hvalue]
    · split
      · have hvalue : nanosecond / 1000 * 10 ^ (9 - 6) = nanosecond := by omega
        show nanoseconds? (padded 6 (nanosecond / 1000) ++ rest) = _
        rw [nanoseconds?_padded (by decide) (by decide) (by omega) hrest, hvalue]
      · have hvalue : nanosecond * 10 ^ (9 - 9) = nanosecond := by omega
        show nanoseconds? (padded 9 nanosecond ++ rest) = _
        rw [nanoseconds?_padded (by decide) (by decide) (by omega) hrest, hvalue]

/-- The numbers of a time of day are read back as they are written. -/
theorem looseTime?_chars (t : TimeOfDay) {rest : List Char} (hrest : EndsTime rest) :
    looseTime? (t.chars ++ rest) =
      some ((t.hour, t.minute, t.writtenSecond, t.writtenNanosecond), rest) := by
  have hcolon (cs : List Char) : char? ':' (trimStart (':' :: cs)) = some cs := rfl
  have hhour : t.hour < 10 ^ 2 := by have hvalid := t.hour_lt; omega
  have hminute : t.minute < 10 ^ 2 := by have hvalid := t.minute_lt; omega
  have hsecond : t.writtenSecond < 10 ^ 2 := by
    have hvalid := t.second_lt
    have hleap := t.nanosecond_lt
    rw [TimeOfDay.writtenSecond]
    omega
  have hnanosecond : t.writtenNanosecond < 1000000000 := Nat.mod_lt _ (by decide)
  rw [looseTime?, TimeOfDay.chars]
  simp only [List.append_assoc, List.cons_append, hcolon, trimStart_padded,
    number?_of_fits (by decide) hhour, number?_of_fits (by decide) hminute,
    number?_of_fits (by decide) hsecond, fraction?_fractionChars hnanosecond hrest,
    hrest.trimStart, Option.bind_eq_bind, Option.bind_some, Option.pure_def]

/-! ### Points in time -/

/-- The numbers that are written for a point in time are in range. -/
theorem assemble?_written (t : DateTime) :
    assemble? t.date.year t.date.month t.date.day t.time.hour t.time.minute t.time.writtenSecond
      t.time.writtenNanosecond = some t.asTold := by
  have hdate : Date.of? t.date.year t.date.month t.date.day = some t.date := dif_pos t.date.valid
  rw [assemble?, hdate, t.time.of?_written]
  rfl

/-- **Local time.** A local point in time is read back as it is told, whatever its year. -/
theorem timestamp?_render (t : DateTime) : timestamp? t.render = some t.asTold := by
  have hends : EndsTime [] := by
    intro c hc
    cases hc
  have hlocal : local? (t.date.chars ++ 'T' :: t.time.chars) = some t.asTold := by
    have htime := looseTime?_chars t.time hends
    have hmark (cs : List Char) : char? 'T' (trimStart ('T' :: cs)) = some cs := rfl
    rw [List.append_nil] at htime
    rw [local?]
    simp only [looseDate?_chars, hmark, htime, assemble?_written, Option.bind_eq_bind,
      Option.bind_some, List.isEmpty_nil, if_true]
  rw [timestamp?, render, String.toList_ofList, chars, hlocal]

/-- No minutes are taken off. -/
theorem minusMinutes?_zero (t : DateTime) : t.minusMinutes? 0 = some t := by
  have hhour := t.time.hour_lt
  have hminute := t.time.minute_lt
  have hnat : (60 * (t.time.hour : Int) + t.time.minute - 0).toNat =
      60 * t.time.hour + t.time.minute := by omega
  have hsame : t.time.atMinute (60 * t.time.hour + t.time.minute) = t.time := by
    have hhours : (60 * t.time.hour + t.time.minute) / 60 % 24 = t.time.hour := by omega
    have hminutes : (60 * t.time.hour + t.time.minute) % 60 = t.time.minute := by omega
    rw [TimeOfDay.atMinute]
    simp only [hhours, hminutes]
  rw [minusMinutes?]
  simp only [hnat, hsame]
  rw [if_neg (by omega), if_pos (by omega)]

/-- **Universal time.** A point in universal time is read back as it is told, whatever its year. -/
theorem universal?_renderUtc (t : DateTime) : universal? t.renderUtc = some t.asTold := by
  have hends : EndsTime ['Z'] := by
    rintro c ⟨⟩
    decide
  have htime := looseTime?_chars t.time hends
  have hmark (cs : List Char) : separator? ('T' :: cs) = some cs := rfl
  have hoffset : lenientOffset? ['Z'] = some (0, []) := by decide
  rw [universal?, renderUtc, String.toList_ofList, chars, List.append_assoc, List.cons_append]
  simp only [looseDate?_chars, hmark, htime, hoffset, assemble?_written, Option.bind_eq_bind,
    Option.bind_some, minusMinutes?_zero]
  rfl

/-! ### What is read -/

/-- What is assembled from parts leaps only at the end of a minute. -/
theorem leapsAtMinuteEnd_of_assemble? {year : Int} {month day hour minute second nanosecond : Nat}
    {t : DateTime} (h : assemble? year month day hour minute second nanosecond = some t) :
    t.time.LeapsAtMinuteEnd := by
  simp only [assemble?, Option.bind_eq_bind, Option.pure_def, Option.bind_eq_some_iff] at h
  obtain ⟨date, _, time, htime, hsame⟩ := h
  cases hsame
  exact TimeOfDay.leapsAtMinuteEnd_of_of? htime

/-- What is true of all that may be made of a part is true of what is made of it. -/
theorem of_bind_eq_some {α β : Type} {P : β → Prop} {part : Option α} {next : α → Option β}
    (hnext : ∀ a b, next a = some b → P b) (b : β) (h : part.bind next = some b) : P b := by
  obtain ⟨a, _, ha⟩ := Option.bind_eq_some_iff.mp h
  exact hnext a b ha

/-- What the loose form tells leaps only at the end of a minute. -/
theorem leapsAtMinuteEnd_of_local? (cs : List Char) :
    ∀ t, local? cs = some t → t.time.LeapsAtMinuteEnd := by
  -- the parts before the last do not count: in the end the point is assembled
  iterate 2 refine of_bind_eq_some fun _ => ?_
  refine of_bind_eq_some fun ((hour, minute, second, nanosecond), rest) t h => ?_
  simp only at h
  split at h
  · exact leapsAtMinuteEnd_of_assemble? h
  · cases h

/-- Nor does what the strict form tells. -/
theorem leapsAtMinuteEnd_of_strict? (cs : List Char) :
    ∀ read, strict? cs = some read → read.1.time.LeapsAtMinuteEnd := by
  iterate 13 refine of_bind_eq_some fun _ => ?_
  intro read h
  obtain ⟨t, htime, hends⟩ := Option.bind_eq_some_iff.mp h
  split at hends
  · cases hends
    exact leapsAtMinuteEnd_of_assemble? htime
  · cases hends

/-- Whatever text is read as a local point in time, a leap second of it ends a minute. -/
theorem leapsAtMinuteEnd_of_timestamp? {s : String} {t : DateTime} (h : timestamp? s = some t) :
    t.time.LeapsAtMinuteEnd := by
  rw [timestamp?] at h
  split at h
  · rename_i found hlocal
    cases h
    exact leapsAtMinuteEnd_of_local? _ _ hlocal
  · obtain ⟨read, hstrict, hsame⟩ := Option.map_eq_some_iff.mp h
    cases hsame
    exact leapsAtMinuteEnd_of_strict? _ _ hstrict

/-- Within the leap second that follows the fourth second of a minute. -/
def leaping : DateTime :=
  ⟨⟨2026, 10, 21, by decide⟩, ⟨12, 15, 4, 1333000000, by decide, by decide, by decide, by decide⟩⟩

/-! ### Documents -/

/-- A local point in time is read from its document as it is told. -/
theorem reads_timestamp (t : DateTime) : Json.Reads timestamp t.toJson t.asTold := by
  refine (Json.reads_string t.render).bind ?_
  rw [t.timestamp?_render]

/-- A point in universal time is read from its document as it is told. -/
theorem reads_universal (t : DateTime) : Json.Reads universal t.toJsonUtc t.asTold := by
  refine (Json.reads_string t.renderUtc).bind ?_
  rw [t.universal?_renderUtc]

end DateTime

end DropRoom
