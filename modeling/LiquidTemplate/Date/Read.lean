import LiquidTemplate.Date.Calendar
import LiquidTemplate.Date.Pattern
import LiquidTemplate.Number.Power
import LiquidTemplate.Number.Read
import LiquidTemplate.Text.Basic

/-!
# Reading dates

* `ReadDate.ofLayout?`: the parts of a date in the form of a pattern.
* `Moment.ofInternet?`: a moment with an offset from the time of the world.
* `Moment.ofText?`: a moment in any of the forms that are read.
-/

namespace LiquidTemplate

open Number

/-- **Parts of a date** as far as they have been read. The weekday begins with zero for Monday. -/
structure ReadDate where
  year : Option Int := none
  month : Option Nat := none
  day : Option Nat := none
  weekday : Option Nat := none
  hour : Option Nat := none
  minute : Option Nat := none
  second : Option Nat := none

namespace ReadDate

/-- A number of at most `width` digits. -/
def digits? (width : Nat) (cs : List Char) : Option (Nat × List Char) :=
  let ds := (cs.take width).takeWhile Text.isAsciiDigit
  if ds.isEmpty then none else some (digitsValue ds, cs.drop ds.length)

/-- A number of exactly two or four digits. -/
def exactDigits? (width : Nat) (cs : List Char) : Option (Nat × List Char) :=
  let ds := cs.take width
  (if ds.length = width then readDigits? ds else none).map fun n => (n, cs.drop width)

/-- A year: with a sign of any length, else at most four digits. -/
def year? (cs : List Char) : Option (Int × List Char) :=
  match cs with
  | '-' :: cs => (digits? cs.length cs).map fun (n, rest) => (-(n : Int), rest)
  | '+' :: cs => (digits? cs.length cs).map fun (n, rest) => ((n : Int), rest)
  | cs => (digits? 4 cs).map fun (n, rest) => ((n : Int), rest)

/-- A number of at most two digits between two bounds. -/
def small? (lo hi : Nat) (cs : List Char) : Option (Nat × List Char) := do
  let (n, rest) ← digits? 2 cs
  if lo ≤ n ∧ n ≤ hi then return (n, rest) else none

/-- What follows a word, in any case of its letters. -/
def afterWord? (word : String) (cs : List Char) : Option (List Char) :=
  let size := word.length
  if (cs.take size).map Char.toLower = word.toList.map Char.toLower then some (cs.drop size)
  else none

/-- The index of a name, by its first three letters, and what follows them. -/
def shortName? (names : List String) (cs : List Char) : Option (Nat × List Char) :=
  names.zipIdx.findSome? fun (name, index) =>
    (afterWord? (Date.shortName name) cs).map fun rest => (index, rest)

/-- The index of a name, short or in full, and what follows it. -/
def anyName? (names : List String) (cs : List Char) : Option (Nat × List Char) := do
  let (index, rest) ← shortName? names cs
  match names[index]?.bind fun name => afterWord? name cs with
  | some rest => return (index, rest)
  | none => return (index, rest)

/-- Reads a number of a date. -/
def readField? (d : ReadDate) (field : DateField) (cs : List Char) :
    Option (ReadDate × List Char) :=
  let cs := Text.trimStart cs
  match field with
  | .year => (year? cs).map fun (n, rest) => ({ d with year := some n }, rest)
  | .month => (small? 1 12 cs).map fun (n, rest) => ({ d with month := some n }, rest)
  | .day => (small? 1 31 cs).map fun (n, rest) => ({ d with day := some n }, rest)
  | .hour => (small? 0 23 cs).map fun (n, rest) => ({ d with hour := some n }, rest)
  | .minute => (small? 0 59 cs).map fun (n, rest) => ({ d with minute := some n }, rest)
  | .second => (small? 0 60 cs).map fun (n, rest) => ({ d with second := some n }, rest)
  | _ => none

/-- Reads an item. A blank stands for any number of them, also for none. -/
def readItem? (d : ReadDate) (item : DateItem) (cs : List Char) : Option (ReadDate × List Char) :=
  match item with
  | .char c => (Text.after? [c] cs).map fun rest => (d, rest)
  | .blank _ => some (d, Text.trimStart cs)
  | .number field _ => d.readField? field cs
  | .monthName short =>
    let read := if short then shortName? Date.monthNames cs else anyName? Date.monthNames cs
    read.map fun (index, rest) => ({ d with month := some (index + 1) }, rest)
  | .weekdayName short =>
    let read := if short then shortName? Date.weekdayNames cs else anyName? Date.weekdayNames cs
    read.map fun (index, rest) => ({ d with weekday := some index }, rest)
  | _ => none

/-- Reads items up to the end of the text. -/
def readItems? (d : ReadDate) : List DateItem → List Char → Option ReadDate
  | [], cs => if cs.isEmpty then some d else none
  | item :: items, cs => do
    let (d, rest) ← d.readItem? item cs
    d.readItems? items rest

/-- **Parts of a date in the form of a layout.** -/
def ofLayout? (layout : String) (cs : List Char) : Option ReadDate := do
  readItems? {} (← DateItem.ofPattern? layout.toList) cs

/-- **Date of its parts**, if there is such a day and it has the weekday that was read. -/
def date? (d : ReadDate) : Option Date := do
  let date ← Date.ofParts? (← d.year) (← d.month) (← d.day)
  if (d.weekday.map fun w => w == date.weekday).getD true then return date else none

/-- **Moment of its parts.** The second can be missing. -/
def moment? (d : ReadDate) : Option Moment := do
  let date ← d.date?
  return { date, hour := ← d.hour, minute := ← d.minute, second := d.second.getD 0 }

end ReadDate

namespace Moment

open ReadDate

/-- The fraction of a second, if there is a point: at least one digit, of which nine count. -/
def readFraction? : List Char → Option (Nat × List Char)
  | '.' :: cs =>
    let ds := cs.takeWhile Text.isAsciiDigit
    if ds.isEmpty then none
    else
      let used := ds.take 9
      some (digitsValue used * tenTo (9 - used.length), cs.drop ds.length)
  | cs => some (0, cs)

/-- Whether a text is an offset from the time of the world: a letter, or a sign with hours and
minutes of less than a day. -/
def isOffset : List Char → Bool
  | ['Z'] | ['z'] => true
  | s :: cs =>
    ['+', '-', '−'].contains s &&
      match exactDigits? 2 cs with
      | some (hours, ':' :: cs) =>
        match exactDigits? 2 cs with
        | some (minutes, []) => hours ≤ 23 && minutes ≤ 59
        | _ => false
      | _ => false
  | [] => false

/-- Two digits and what follows a character behind them. -/
def twoBefore? (c : Char) (cs : List Char) : Option (Nat × List Char) := do
  let (n, rest) ← exactDigits? 2 cs
  return (n, ← Text.after? [c] rest)

/-- **Moment with an offset.** The offset has to be there, but the local time counts. -/
def ofInternet? (cs : List Char) : Option Moment := do
  let (year, cs) ← exactDigits? 4 cs
  let (month, cs) ← twoBefore? '-' (← Text.after? ['-'] cs)
  let (day, cs) ← exactDigits? 2 cs
  match cs with
  | c :: cs => do
    if ['t', 'T', ' '].contains c then
      let (hour, cs) ← twoBefore? ':' cs
      let (minute, cs) ← twoBefore? ':' cs
      let (second, cs) ← exactDigits? 2 cs
      let (nanosecond, cs) ← readFraction? cs
      let date ← Date.ofParts? year month day
      if hour ≤ 23 ∧ minute ≤ 59 ∧ second ≤ 60 ∧ isOffset cs then
        return { date, hour, minute, second, nanosecond }
      else none
    else none
  | [] => none

/-- The layouts of moments that are read, in order. -/
def layouts : List String :=
  ["%Y-%m-%d %H:%M:%S", "%Y-%m-%dT%H:%M:%S", "%Y-%m-%d %H:%M", "%a %b %d %H:%M:%S %Y",
    "%a, %d %b %Y %H:%M:%S", "%B %d, %Y %H:%M:%S"]

/-- The layouts of dates that are read, in order. -/
def dateLayouts : List String :=
  ["%Y-%m-%d", "%m/%d/%Y", "%B %d, %Y", "%d %B %Y"]

/-- **Moment of a text**: a timestamp, or one of the forms of moments and dates. A date is its
beginning. -/
def ofText? (cs : List Char) : Option Moment :=
  match readWord? cs with
  | some seconds => ofTimestamp? seconds.toInt
  | none =>
    ofInternet? cs
      <|> layouts.findSome? (fun layout => (ofLayout? layout cs).bind ReadDate.moment?)
      <|> dateLayouts.findSome? fun layout =>
        ((ofLayout? layout cs).bind ReadDate.date?).map fun date => { date }

end Moment

end LiquidTemplate
