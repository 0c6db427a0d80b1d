import LiquidTemplate.Json.Reader
import LiquidTemplate.Number.Read

/-!
# Numbers in JSON text

* `Json.Numeral`: an integer of at most 64 bits or a double.
* `Json.readNumber`: the number at a place.
* `Json.skipNumber`: goes over a number without its value.
* `Json.scale?`: a 64-bit integer times a power of ten as a double.
-/

namespace LiquidTemplate.Json

open Text Number

/-- **Number** as it is written: an integer in the range of 64 bits, with or without a sign, or a
double. -/
inductive Numeral where
  | integer (n : Int)
  | float (x : Float)

/-- **Digits up to a limit.** The value of the digits behind those with the value `n`, and the rest
from the first one on that would make the value greater than `limit`. -/
def accumulate (limit : Nat) (n : Nat) : List Char → Nat × List Char
  | [] => (n, [])
  | c :: cs =>
    if 10 * n + digitValue c ≤ limit then accumulate limit (10 * n + digitValue c) cs
    else (n, c :: cs)

/-- The greatest whole number whose digits are all kept: that of 64 bits. -/
def maxWhole : Nat :=
  0xFFFFFFFFFFFFFFFF

/-- A power of ten as a double. -/
def powerOfTen (n : Nat) : Float :=
  Float.ofScientific 1 false n

/-- **Scaling** by a power of ten, in one step or, below the least double, in steps of `10 ^ 308`;
`none` where the result is too large. -/
def scaleFrom? (x : Float) (exponent : Int) : Option Float :=
  if exponent.natAbs ≤ 308 then
    if 0 ≤ exponent then
      let y := x * powerOfTen exponent.natAbs
      if y.isInf then none else some y
    else some (x / powerOfTen exponent.natAbs)
  else if x == 0.0 then some x
  else if _h : 0 ≤ exponent then none
  else scaleFrom? (x / powerOfTen 308) (exponent + 308)
termination_by exponent.natAbs
decreasing_by omega

/-- The double `± n * 10 ^ exponent`. -/
def scale? (negative : Bool) (n : Nat) (exponent : Int) : Option Float :=
  (scaleFrom? (Float.ofNat n) exponent).map fun x => if negative then -x else x

/-- The number `± n * 10 ^ exponent`, which has been read. -/
def scaled (negative : Bool) (n : Nat) (exponent : Int) : Reader Numeral :=
  match scale? negative n exponent with
  | some x => return .float x
  | none => fail .numberTooLarge

/-- The next characters if they are digits; they are not consumed. -/
def peekDigits : Reader (List Char) :=
  return (← get).rest.takeWhile isAsciiDigit

/-- A sign before an exponent: whether it is negative. -/
def readExponentSign : Reader Bool := do
  match ← peek with
  | some '-' =>
    skip 1
    return true
  | some '+' =>
    skip 1
    return false
  | _ => return false

/-- **Exponent** from its mark on, of a number with the digits `n` and the exponent `exponent` so
far. An exponent beyond 32 bits makes the number zero or too large. -/
def readExponent (negative : Bool) (n : Nat) (exponent : Int) : Reader Numeral := do
  skip 1
  let down ← readExponentSign
  let digits ← peekDigits
  if digits.isEmpty then
    failNext (if (← peek).isNone then .endInValue else .malformedNumber)
  else
    match accumulate 0x7FFFFFFF 0 digits with
    | (e, []) =>
      skip digits.length
      scaled negative n (if down then exponent - e else exponent + e)
    | (_, _ :: later) =>
      skip (digits.length - later.length)
      if n ≠ 0 ∧ !down then fail .numberTooLarge
      else
        skip later.length
        return .float (if negative then -0.0 else 0.0)

/-- What follows the digits of a number: an exponent or nothing. -/
def finishNumber (negative : Bool) (n : Nat) (exponent : Int) : Reader Numeral := do
  match ← peek with
  | some 'e' | some 'E' => readExponent negative n exponent
  | _ => scaled negative n exponent

/-- **Fraction** from its point on. Digits that do not fit into 64 bits are dropped. -/
def readFraction (negative : Bool) (n : Nat) (exponent : Int) : Reader Numeral := do
  skip 1
  let digits ← takeWhile isAsciiDigit
  if digits.isEmpty then
    failNext (if (← peek).isNone then .endInValue else .malformedNumber)
  else
    let (n, later) := accumulate maxWhole n digits
    finishNumber negative n (exponent - (digits.length - later.length : Nat))

/-- An integer without fraction and exponent; zero with a sign and what is too small are doubles. -/
def integerOf (negative : Bool) (n : Nat) : Numeral :=
  if !negative then .integer n
  else if n = 0 ∨ 0x8000000000000000 < n then .float (-Float.ofNat n)
  else .integer (-n)

/-- The digits before the point: a zero, or digits that begin with another one. -/
def readWhole : Reader (List Char) := do
  match ← peek with
  | none => failNext .endInValue
  | some c =>
    if !isAsciiDigit c then failNext .malformedNumber
    else if c = '0' then
      skip 1
      if ((← peek).map isAsciiDigit).getD false then failNext .malformedNumber
      return [c]
    else takeWhile isAsciiDigit

/-- **Number** behind its sign. Digits that do not fit into 64 bits count as zeros. -/
def readNumber (negative : Bool) : Reader Numeral := do
  let (n, later) := accumulate maxWhole 0 (← readWhole)
  let exponent : Int := later.length
  match ← peek with
  | some '.' => readFraction negative n exponent
  | some 'e' | some 'E' => readExponent negative n exponent
  | _ => if later.isEmpty then return integerOf negative n else scaled negative n exponent

/-! ### Skipping -/

/-- Goes over an exponent from its mark on. -/
def skipExponent : Reader Unit := do
  skip 1
  let _ ← readExponentSign
  if (← takeWhile isAsciiDigit).isEmpty then failNext .malformedNumber

/-- Goes over an exponent if there is one. -/
def skipExponentIfAny : Reader Unit := do
  match ← peek with
  | some 'e' | some 'E' => skipExponent
  | _ => return

/-- **Goes over a number** behind its sign. -/
def skipNumber : Reader Unit := do
  if (← peek).isNone then failNext .malformedNumber
  let _ ← readWhole
  if (← peek) = some '.' then
    skip 1
    if (← takeWhile isAsciiDigit).isEmpty then failNext .malformedNumber
  skipExponentIfAny

end LiquidTemplate.Json
