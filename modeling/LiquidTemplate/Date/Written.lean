import LiquidTemplate.Date.Calendar
import LiquidTemplate.Date.Pattern
import LiquidTemplate.Number.Text

/-!
# Written dates

* `Moment.write?`: a moment in the form of a pattern.
-/

namespace LiquidTemplate

open Number

/-- A numeral filled up to a width; zeros go behind the sign. -/
def Padding.fill (pad : Padding) (width : Nat) (sign digits : List Char) : List Char :=
  match pad with
  | none => sign ++ digits
  | zero => sign ++ padLeft (width - sign.length) '0' digits
  | space => padLeft width ' ' (sign ++ digits)

/-- Two digits for a number below a hundred. Beyond it the first one counts on through the
characters behind the nine. -/
def twoDigits (pad : Padding) (n : Nat) : List Char :=
  let tens :=
    match n / 10, pad with
    | 0, .none => []
    | 0, .space => [' ']
    | t, _ => [Char.ofNat ('0'.toNat + t)]
  tens ++ [Char.ofNat ('0'.toNat + n % 10)]

/-- A year. Those that do not have one to four digits have a sign, and those from 1000 on need no
padding. -/
def yearText (pad : Padding) (year : Int) : List Char :=
  let signed := year < 0 ∨ 9999 < year
  pad.fill (if signed then 5 else 4) (signText signed year) (natText year.natAbs)

namespace Moment

/-- A number of a moment. A century is taken modulo 256. -/
def numberText (m : Moment) (pad : Padding) : DateField → List Char
  | .year => yearText pad m.date.year
  | .century => twoDigits pad (m.date.year / 100 % 256).toNat
  | .yearOfCentury => twoDigits pad (m.date.year % 100).toNat
  | .isoYear => yearText pad m.date.isoWeek.1
  | .isoYearOfCentury => twoDigits pad (m.date.isoWeek.1 % 100).toNat
  | .quarter => natText m.date.quarter
  | .month => twoDigits pad m.date.month
  | .day => twoDigits pad m.date.day
  | .weekFromSunday => twoDigits pad (m.date.weekFrom 6)
  | .weekFromMonday => twoDigits pad (m.date.weekFrom 0)
  | .isoWeek => twoDigits pad m.date.isoWeek.2
  | .weekdayFromSunday => natText ((m.date.weekday + 1) % 7)
  | .weekdayFromMonday => natText (m.date.weekday + 1)
  | .ordinal => pad.fill 3 [] (natText m.date.ordinal)
  | .hour => twoDigits pad m.hour
  | .hour12 => twoDigits pad m.hour12
  | .minute => twoDigits pad m.minute
  | .second => twoDigits pad m.second
  | .nanosecond => pad.fill 9 [] (natText m.nanosecond)
  | .timestamp => pad.fill 9 (signText false m.timestamp) (natText m.timestamp.natAbs)

/-- The first `places` digits of the fraction of the second. -/
def fractionDigits (m : Moment) (places : Nat) : List Char :=
  padLeft places '0' (natText (m.nanosecond / tenTo (9 - places)))

/-- The fraction of the second with a point: three, six or nine places, as many as it needs, and
nothing for a whole second. -/
def shortestFraction (m : Moment) : List Char :=
  if m.nanosecond = 0 then []
  else if m.nanosecond % 1000000 = 0 then '.' :: m.fractionDigits 3
  else if m.nanosecond % 1000 = 0 then '.' :: m.fractionDigits 6
  else '.' :: m.fractionDigits 9

/-- The text of an item; there is none about time zones. -/
def itemText? (m : Moment) : DateItem → Option (List Char)
  | .char c | .blank c => some [c]
  | .number field pad => some (m.numberText pad field)
  | .monthName short =>
    let name := m.date.monthName
    some (if short then Date.shortName name else name).toList
  | .weekdayName short =>
    let name := m.date.weekdayName
    some (if short then Date.shortName name else name).toList
  | .dayHalf upper =>
    some (match m.isAfternoon, upper with
      | true, true => ['P', 'M']
      | true, false => ['p', 'm']
      | false, true => ['A', 'M']
      | false, false => ['a', 'm'])
  | .fraction (some places) point =>
    some (if point then '.' :: m.fractionDigits places else m.fractionDigits places)
  | .fraction none _ => some m.shortestFraction
  | .zone => none

/-- **Moment in the form of a pattern**, if the pattern is known and does not ask for more than a
moment has. -/
def write? (m : Moment) (pattern : List Char) : Option (List Char) := do
  let items ← DateItem.ofPattern? pattern
  let texts ← items.mapM m.itemText?
  return texts.flatten

end Moment

end LiquidTemplate
