/-!
# Calendar

Dates of the Gregorian calendar, also before its introduction, and moments in them.

* `Date`: year, month and day; `Date.dayNumber` counts the days from the first one of the year zero.
* `Date.ofDayNumber`: the date of a day.
* `Date.weekday`, `Date.isoWeek`: weekdays and weeks.
* `Moment`: a date with a time of the day; a leap second is the second sixty.
* `Moment.timestamp`, `Moment.ofTimestamp?`: seconds from the beginning of 1970.
-/

namespace LiquidTemplate

/-- **Date.** Months and days are counted from one. -/
structure Date where
  year : Int
  month : Nat
  day : Nat
deriving DecidableEq, Repr

namespace Date

/-- Whether a year has 366 days. -/
def isLeapYear (year : Int) : Bool :=
  year % 4 == 0 && (year % 100 != 0 || year % 400 == 0)

/-- The lengths of the months of a year. -/
def monthLengths (year : Int) : List Nat :=
  [31, if isLeapYear year then 29 else 28, 31, 30, 31, 30, 31, 31, 30, 31, 30, 31]

/-- The length of a month; zero if there is no such month. -/
def monthLength (year : Int) : (month : Nat) → Nat
  | 0 => 0
  | index + 1 => (monthLengths year)[index]?.getD 0

/-- The first and the last year of the calendar. -/
def firstYear : Int := -262143

@[inherit_doc firstYear] def lastYear : Int := 262142

/-- **Date of its parts**, if there is such a day. -/
def ofParts? (year : Int) (month day : Nat) : Option Date :=
  if firstYear ≤ year ∧ year ≤ lastYear ∧ 0 < day ∧ day ≤ monthLength year month then
    some ⟨year, month, day⟩
  else none

/-- The number of days before a year: 365 for each year since the year zero, and one more for each
leap year among them. -/
def daysBeforeYear (year : Int) : Int :=
  365 * year + (year + 3) / 4 - (year + 99) / 100 + (year + 399) / 400

/-- **Day of the year**, counted from one. -/
def ordinal (d : Date) : Nat :=
  ((monthLengths d.year).take (d.month - 1)).foldl (· + ·) d.day

/-- **Number of a day.** -/
def dayNumber (d : Date) : Int :=
  daysBeforeYear d.year + d.ordinal - 1

/-- The year of a day. The estimate by the mean length of a year is off by one at most. -/
def yearOfDay (n : Int) : Int :=
  let estimate := n * 400 / 146097
  if n < daysBeforeYear estimate then estimate - 1
  else if daysBeforeYear (estimate + 1) ≤ n then estimate + 1
  else estimate

/-- The month, counted from `month` on, and the day in it of the day with an index that is counted
from zero. -/
def splitIndex (month index : Nat) : List Nat → Nat × Nat
  | [] => (month, index + 1)
  | length :: lengths =>
    if index < length then (month, index + 1) else splitIndex (month + 1) (index - length) lengths

/-- **Date of a day.** -/
def ofDayNumber (n : Int) : Date :=
  let year := yearOfDay n
  let (month, day) := splitIndex 1 (n - daysBeforeYear year).toNat (monthLengths year)
  ⟨year, month, day⟩

/-- The weekday of a day, with zero for Monday. -/
def weekdayOfDay (n : Int) : Nat :=
  ((n + 5) % 7).toNat

/-- **Weekday**, with zero for Monday. -/
def weekday (d : Date) : Nat :=
  weekdayOfDay d.dayNumber

/-- **Week with its year.** The week of a day is that of its Thursday. -/
def isoWeek (d : Date) : Int × Nat :=
  let thursday := d.dayNumber - d.weekday + 3
  let year := yearOfDay thursday
  (year, ((thursday - daysBeforeYear year) / 7).toNat + 1)

/-- **Week of the year** when weeks begin on a weekday. The days before the first such day are in
the week zero. -/
def weekFrom (d : Date) (first : Nat) : Nat :=
  (d.ordinal + 6 - (d.weekday + 7 - first) % 7) / 7

/-- The quarter of the year. -/
def quarter (d : Date) : Nat :=
  (d.month + 2) / 3

/-- The names of the months. -/
def monthNames : List String :=
  ["January", "February", "March", "April", "May", "June", "July", "August", "September", "October",
    "November", "December"]

/-- The names of the weekdays. -/
def weekdayNames : List String :=
  ["Monday", "Tuesday", "Wednesday", "Thursday", "Friday", "Saturday", "Sunday"]

/-- The short form of a name. -/
def shortName (name : String) : String :=
  String.ofList (name.toList.take 3)

/-- The name of the month. -/
def monthName (d : Date) : String :=
  monthNames[d.month - 1]?.getD ""

/-- The name of the weekday. -/
def weekdayName (d : Date) : String :=
  weekdayNames[d.weekday]?.getD ""

end Date

/-- **Moment.** The second is sixty in a leap second. -/
structure Moment where
  date : Date
  hour : Nat := 0
  minute : Nat := 0
  second : Nat := 0
  nanosecond : Nat := 0
deriving DecidableEq, Repr

namespace Moment

/-- The number of the first day of 1970. -/
def epoch : Int :=
  Date.daysBeforeYear 1970

/-- **Timestamp**: the seconds since the beginning of 1970. A leap second has that of the second
before. -/
def timestamp (m : Moment) : Int :=
  (m.date.dayNumber - epoch) * 86400 + m.hour * 3600 + m.minute * 60 + min m.second 59

/-- **Moment of a timestamp**, if it is in the calendar. -/
def ofTimestamp? (seconds : Int) : Option Moment :=
  let date := Date.ofDayNumber (seconds / 86400 + epoch)
  let rest := (seconds % 86400).toNat
  if Date.firstYear ≤ date.year ∧ date.year ≤ Date.lastYear then
    some { date, hour := rest / 3600, minute := rest / 60 % 60, second := rest % 60 }
  else none

/-- The hour on a clock with twelve hours. -/
def hour12 (m : Moment) : Nat :=
  (m.hour + 11) % 12 + 1

/-- Whether the moment is in the second half of the day. -/
def isAfternoon (m : Moment) : Bool :=
  12 ≤ m.hour

end Moment

end LiquidTemplate
