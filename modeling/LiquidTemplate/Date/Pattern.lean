import LiquidTemplate.Text.Blank

/-!
# Patterns of dates

A pattern is a text in which a percent sign and the characters behind it stand for a part of a
moment.

* `DateField`: the parts that are numbers.
* `DateItem`: characters, numbers, names and fractions.
* `DateItem.ofPattern?`: the items of a pattern.
-/

namespace LiquidTemplate

/-- **Part of a moment** that is a number. -/
inductive DateField where
  | year | century | yearOfCentury | isoYear | isoYearOfCentury | quarter | month | day
  | weekFromSunday | weekFromMonday | isoWeek | weekdayFromSunday | weekdayFromMonday | ordinal
  | hour | hour12 | minute | second | nanosecond | timestamp
deriving DecidableEq, Repr

/-- **Padding** of a number. -/
inductive Padding where
  | none | zero | space
deriving DecidableEq, Repr

/-- **Item of a pattern.** -/
inductive DateItem where
  | char (c : Char)
  | blank (c : Char)
  | number (field : DateField) (pad : Padding)
  | monthName (short : Bool)
  | weekdayName (short : Bool)
  | dayHalf (upper : Bool)
  /-- The fraction of the second, with a number of places or as many as it needs. -/
  | fraction (places : Option Nat) (point : Bool)
  /-- Something about the time zone, which a moment does not know. -/
  | zone
deriving DecidableEq, Repr

namespace DateItem

/-- A number with leading zeros. -/
def zeros (field : DateField) : DateItem :=
  number field .zero

/-- A number with leading spaces. -/
def spaces (field : DateField) : DateItem :=
  number field .space

/-- A number without padding. -/
def bare (field : DateField) : DateItem :=
  number field .none

/-- The items with a character between neighbours. -/
def separated (c : Char) (items : List DateItem) : List DateItem :=
  items.intersperse (char c)

/-- Hours, minutes and seconds. -/
def clock : List DateItem :=
  separated ':' [zeros .hour, zeros .minute, zeros .second]

/-- Month, day and year with slashes. -/
def slashed : List DateItem :=
  separated '/' [zeros .month, zeros .day, zeros .yearOfCentury]

/-- **Items of a letter** behind a percent sign. -/
def ofLetter? : Char → Option (List DateItem)
  | 'A' => some [weekdayName false]
  | 'B' => some [monthName false]
  | 'C' => some [zeros .century]
  | 'D' | 'x' => some slashed
  | 'F' => some (separated '-' [zeros .year, zeros .month, zeros .day])
  | 'G' => some [zeros .isoYear]
  | 'H' => some [zeros .hour]
  | 'I' => some [zeros .hour12]
  | 'M' => some [zeros .minute]
  | 'P' => some [dayHalf false]
  | 'R' => some (separated ':' [zeros .hour, zeros .minute])
  | 'S' => some [zeros .second]
  | 'T' | 'X' => some clock
  | 'U' => some [zeros .weekFromSunday]
  | 'V' => some [zeros .isoWeek]
  | 'W' => some [zeros .weekFromMonday]
  | 'Y' => some [zeros .year]
  | 'Z' | 'z' | '+' => some [zone]
  | 'a' => some [weekdayName true]
  | 'b' | 'h' => some [monthName true]
  | 'c' =>
    some ([weekdayName true, blank ' ', monthName true, blank ' ', spaces .day, blank ' '] ++ clock
      ++ [blank ' ', zeros .year])
  | 'd' => some [zeros .day]
  | 'e' => some [spaces .day]
  | 'f' => some [zeros .nanosecond]
  | 'g' => some [zeros .isoYearOfCentury]
  | 'j' => some [zeros .ordinal]
  | 'k' => some [spaces .hour]
  | 'l' => some [spaces .hour12]
  | 'm' => some [zeros .month]
  | 'n' => some [blank '\n']
  | 'p' => some [dayHalf true]
  | 'q' => some [bare .quarter]
  | 'r' =>
    some (separated ':' [zeros .hour12, zeros .minute, zeros .second] ++ [blank ' ', dayHalf true])
  | 's' => some [bare .timestamp]
  | 't' => some [blank '\t']
  | 'u' => some [bare .weekdayFromMonday]
  | 'v' => some (separated '-' [spaces .day, monthName true, zeros .year])
  | 'w' => some [bare .weekdayFromSunday]
  | 'y' => some [zeros .yearOfCentury]
  | '%' => some [char '%']
  | _ => none

/-- The number of places that a digit stands for. -/
def places? : Char → Option Nat
  | '3' => some 3
  | '6' => some 6
  | '9' => some 9
  | _ => none

/-- The fraction without a point, of which `c` and `f` tell the places. -/
def bareFraction? (c f : Char) : Option DateItem :=
  if f = 'f' then (places? c).map fun n => fraction (some n) false else none

/-- **Items of a conversion**, after the percent sign and the padding, and what follows. -/
def conversion? : List Char → Option (List DateItem × List Char)
  | '.' :: 'f' :: cs => some ([fraction none true], cs)
  | '.' :: c :: f :: cs =>
    (bareFraction? c f).map fun _ => ([fraction (places? c) true], cs)
  | ':' :: ':' :: ':' :: 'z' :: cs => some ([zone], cs)
  | ':' :: ':' :: 'z' :: cs => some ([zone], cs)
  | ':' :: 'z' :: cs => some ([zone], cs)
  | '3' :: f :: cs => (bareFraction? '3' f).map fun item => ([item], cs)
  | '6' :: f :: cs => (bareFraction? '6' f).map fun item => ([item], cs)
  | '9' :: f :: cs => (bareFraction? '9' f).map fun item => ([item], cs)
  | c :: cs => (ofLetter? c).map fun items => (items, cs)
  | [] => none

/-- The padding that a character asks for. -/
def padding? : Char → Option Padding
  | '-' => some .none
  | '0' => some .zero
  | '_' => some .space
  | _ => Option.none

/-- Only a single number can be padded. -/
def padded? (pad : Padding) : List DateItem → Option (List DateItem)
  | [number field _] => some [number field pad]
  | _ => none

/-- Items behind a percent sign, and what follows. -/
def directive? : List Char → Option (List DateItem × List Char)
  | '#' :: 'z' :: cs => some ([zone], cs)
  | c :: cs =>
    match padding? c with
    | some pad => do
      let (items, rest) ← conversion? cs
      return (← padded? pad items, rest)
    | none => conversion? (c :: cs)
  | [] => none

/-- **Items of a pattern**, if all of its directives are known. -/
def ofPattern? : List Char → Option (List DateItem)
  | [] => some []
  | '%' :: cs => do
    let (items, rest) ← directive? cs
    if _h : rest.length ≤ cs.length then
      return items ++ (← ofPattern? rest)
    else
      none
  | c :: cs => (ofPattern? cs).map fun items => (if Text.isBlank c then blank c else char c) :: items
termination_by cs => cs.length

end DateItem

end LiquidTemplate
