import DropRoom.Time.Date
import DropRoom.Text.Ascii

namespace DropRoom

/-!
# Writing points in time

* `DateTime.render` — the form of documents, `2026-10-19T15:04:05.123`: a fraction
  of three, six or nine digits where there is one, and a signed year outside of
  the four-digit years;
* `DateTime.renderUtc` — the same, as a point in universal time;
* `Date.longLabel` — `October 19, 2026`;
* `DateTime.uploadLabel` — `Oct 19, 2026 at 3:04 PM`.
-/

open DropRoom.Text

/-- The digits of a year: at least four, and a sign outside of 0 to 9999. -/
def Date.yearChars (year : Int) : List Char :=
  if year < 0 then '-' :: padded 4 year.natAbs
  else if year ≤ 9999 then padded 4 year.natAbs
  else '+' :: padded 4 year.natAbs

/-- Year, month and day with dashes. -/
def Date.chars (d : Date) : List Char :=
  Date.yearChars d.year ++ '-' :: padded 2 d.month ++ '-' :: padded 2 d.day

/-- The fraction of a second, in the fewest of zero, three, six or nine digits. -/
def TimeOfDay.fractionChars (nanosecond : Nat) : List Char :=
  if nanosecond = 0 then []
  else if nanosecond % 1000000 = 0 then '.' :: padded 3 (nanosecond / 1000000)
  else if nanosecond % 1000 = 0 then '.' :: padded 6 (nanosecond / 1000)
  else '.' :: padded 9 nanosecond

/-- Hour, minute and second with colons, and the fraction. -/
def TimeOfDay.chars (t : TimeOfDay) : List Char :=
  padded 2 t.hour ++ ':' :: padded 2 t.minute ++ ':' :: padded 2 t.writtenSecond ++
    fractionChars t.writtenNanosecond

/-- The form of documents. -/
def DateTime.chars (t : DateTime) : List Char :=
  t.date.chars ++ 'T' :: t.time.chars

/-- The form of documents. -/
def DateTime.render (t : DateTime) : String :=
  String.ofList t.chars

/-- The form of documents for a point in universal time. -/
def DateTime.renderUtc (t : DateTime) : String :=
  String.ofList (t.chars ++ ['Z'])

/-- The English name of a month. -/
def Date.monthName (month : Nat) : String :=
  match month with
  | 1 => "January"
  | 2 => "February"
  | 3 => "March"
  | 4 => "April"
  | 5 => "May"
  | 6 => "June"
  | 7 => "July"
  | 8 => "August"
  | 9 => "September"
  | 10 => "October"
  | 11 => "November"
  | _ => "December"

/-- The first three letters of the name of a month. -/
def Date.shortMonthName (month : Nat) : String :=
  String.ofList ((monthName month).toList.take 3)

/-- A day with its month in words, such as `October 19, 2026`. -/
def Date.longLabel (d : Date) : String :=
  monthName d.month ++ " " ++ String.ofList (digitsOf d.day) ++ ", "
    ++ String.ofList (yearChars d.year)

/-- The hour on a clock of twelve hours. -/
def TimeOfDay.hourOfTwelve (t : TimeOfDay) : Nat :=
  if t.hour % 12 = 0 then 12 else t.hour % 12

/-- A point in time with its month in words, such as `Oct 19, 2026 at 3:04 PM`. -/
def DateTime.uploadLabel (t : DateTime) : String :=
  Date.shortMonthName t.date.month ++ " " ++ String.ofList (digitsOf t.date.day) ++ ", "
    ++ String.ofList (Date.yearChars t.date.year) ++ " at "
    ++ String.ofList (digitsOf t.time.hourOfTwelve) ++ ":"
    ++ String.ofList (padded 2 t.time.minute) ++ (if t.time.hour < 12 then " AM" else " PM")

end DropRoom
