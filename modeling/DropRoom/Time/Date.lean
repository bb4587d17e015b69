namespace DropRoom

/-!
# Days and points in time

Dates of the proleptic Gregorian calendar and times of day, the pair of which is
a point in local time.  A leap second may follow any second: it is told by more
nanoseconds than a second has.

* `Date`, `TimeOfDay`, `DateTime` — the types, with their ranges;
* `Date.next?`, `Date.previous?` — the neighbours of a day;
* `DateTime.minusMinutes?` — an earlier point in time, less than a day away;
* `DateTime.sinceEpoch` — the point so many milliseconds after 1970 began.
-/

namespace Date

/-- The years that dates reach. -/
def leastYear : Int := -262143

/-- The years that dates reach. -/
def greatestYear : Int := 262142

/-- Every fourth year is a leap year, except the centuries that 400 does not divide. -/
def isLeapYear (year : Int) : Bool :=
  year % 4 == 0 && (year % 100 != 0 || year % 400 == 0)

/-- The number of days of a month. -/
def daysInMonth (year : Int) (month : Nat) : Nat :=
  if month = 2 then (if isLeapYear year then 29 else 28)
  else if month = 4 ∨ month = 6 ∨ month = 9 ∨ month = 11 then 30
  else 31

/-- The days that the calendar has. -/
def Valid (year : Int) (month day : Nat) : Prop :=
  leastYear ≤ year ∧ year ≤ greatestYear ∧ 1 ≤ month ∧ month ≤ 12 ∧
    1 ≤ day ∧ day ≤ daysInMonth year month

instance (year : Int) (month day : Nat) : Decidable (Valid year month day) := by
  unfold Valid; infer_instance

end Date

/-- A day of the proleptic Gregorian calendar. -/
structure Date where
  year : Int
  month : Nat
  day : Nat
  valid : Date.Valid year month day
  deriving DecidableEq, Repr

namespace Date

/-- The day of a year, month and day, where the calendar has it. -/
def of? (year : Int) (month day : Nat) : Option Date :=
  if h : Valid year month day then some ⟨year, month, day, h⟩ else none

/-- The day after. -/
def next? (d : Date) : Option Date :=
  match of? d.year d.month (d.day + 1) with
  | some next => some next
  | none =>
    match of? d.year (d.month + 1) 1 with
    | some next => some next
    | none => of? (d.year + 1) 1 1

/-- The day before. -/
def previous? (d : Date) : Option Date :=
  if 1 < d.day then of? d.year d.month (d.day - 1)
  else if 1 < d.month then of? d.year (d.month - 1) (daysInMonth d.year (d.month - 1))
  else of? (d.year - 1) 12 31

/-- The day that so many days later than the first day of 1970, where the calendar reaches it.
Days are counted from 1 March of year 0, so that the leap day ends its year, in periods of 400
years of 146097 days each. -/
def sinceEpoch? (days : Nat) : Option Date :=
  let fromMarch := days + 719468
  let era := fromMarch / 146097
  let dayOfEra := fromMarch % 146097
  let yearOfEra := (dayOfEra - dayOfEra / 1460 + dayOfEra / 36524 - dayOfEra / 146096) / 365
  let dayOfYear := dayOfEra - (365 * yearOfEra + yearOfEra / 4 - yearOfEra / 100)
  let monthFromMarch := (5 * dayOfYear + 2) / 153
  let day := dayOfYear - (153 * monthFromMarch + 2) / 5 + 1
  let month := if monthFromMarch < 10 then monthFromMarch + 3 else monthFromMarch - 9
  let year := yearOfEra + era * 400 + (if month ≤ 2 then 1 else 0)
  of? year month day

end Date

/-- A time of day to the nanosecond. -/
structure TimeOfDay where
  hour : Nat
  minute : Nat
  second : Nat
  /-- The nanoseconds since the second began: from 1000000000 on they are those of a leap second
  that follows it. -/
  nanosecond : Nat
  hour_lt : hour < 24
  minute_lt : minute < 60
  second_lt : second < 60
  nanosecond_lt : nanosecond < 2000000000
  deriving DecidableEq, Repr

namespace TimeOfDay

/-- The time of an hour, minute, second and nanosecond as they are written, where they are in
range.  Second 60 is the leap second that follows second 59. -/
def of? (hour minute second nanosecond : Nat) : Option TimeOfDay :=
  if h : hour < 24 ∧ minute < 60 ∧ second ≤ 60 ∧ nanosecond < 1000000000 then
    if hsecond : second < 60 then
      some ⟨hour, minute, second, nanosecond, h.1, h.2.1, hsecond, by omega⟩
    else some ⟨hour, minute, 59, 1000000000 + nanosecond, h.1, h.2.1, by decide, by omega⟩
  else none

/-- The second as it is written: a leap second has the number after that of the second that it
follows. -/
def writtenSecond (t : TimeOfDay) : Nat :=
  t.second + t.nanosecond / 1000000000

/-- The nanoseconds since the second began that is written. -/
def writtenNanosecond (t : TimeOfDay) : Nat :=
  t.nanosecond % 1000000000

/-- Another hour and minute of the day, with the same second. -/
def atMinute (t : TimeOfDay) (minuteOfDay : Nat) : TimeOfDay :=
  ⟨minuteOfDay / 60 % 24, minuteOfDay % 60, t.second, t.nanosecond,
    Nat.mod_lt _ (by decide), Nat.mod_lt _ (by decide), t.second_lt, t.nanosecond_lt⟩

end TimeOfDay

/-- A point in local time. -/
structure DateTime where
  date : Date
  time : TimeOfDay
  deriving DecidableEq, Repr

namespace DateTime

/-- The point in time so many minutes earlier, or later where the number is negative; less than
a day away, and within the calendar. -/
def minusMinutes? (t : DateTime) (minutes : Int) : Option DateTime :=
  let minuteOfDay : Int := 60 * t.time.hour + t.time.minute - minutes
  if minuteOfDay < 0 then
    t.date.previous?.map fun date => ⟨date, t.time.atMinute (minuteOfDay + 1440).toNat⟩
  else if minuteOfDay < 1440 then some ⟨t.date, t.time.atMinute minuteOfDay.toNat⟩
  else t.date.next?.map fun date => ⟨date, t.time.atMinute (minuteOfDay - 1440).toNat⟩

/-- The last day that dates reach. -/
def lastDay : Date :=
  ⟨262142, 12, 31, by decide⟩

/-- The point in time so many milliseconds after 1970 began; the last day of the calendar where
it is beyond. -/
def sinceEpoch (milliseconds : Nat) : DateTime :=
  let seconds := milliseconds / 1000
  let time : TimeOfDay :=
    ⟨seconds / 3600 % 24, seconds / 60 % 60, seconds % 60, milliseconds % 1000 * 1000000,
      Nat.mod_lt _ (by decide), Nat.mod_lt _ (by decide), Nat.mod_lt _ (by decide),
      by have := Nat.mod_lt milliseconds (show 1000 > 0 by decide); omega⟩
  ⟨(Date.sinceEpoch? (seconds / 86400)).getD lastDay, time⟩

end DateTime

end DropRoom
