import LiquidTemplate.Number.Power
import LiquidTemplate.Number.Word

/-!
# Doubles as exact numbers

A finite double is a sign and a natural number times a power of two. Rounding, remainders and
comparisons are computed exactly on these parts.

* `Parts`, `parts`: a double taken apart.
* `Parts.scaled`: the value of a finite double as a multiple of the smallest positive one.
* `orderKey?`: an integer that orders all doubles but NaN by their value.
* `keyOfInt`: the same key for the double nearest to an integer.
* `truncate`, `roundToInt`: a finite double as an integer.
* `toWord`: the 64-bit integer nearest to a double.
* `roundHalfAway`: rounding to a whole number, halves away from zero.
* `remainder`: the remainder of a truncated division.
-/

namespace LiquidTemplate.Number

/-- **A double taken apart.** -/
inductive Parts where
  | nan
  | infinity (negative : Bool)
  /-- The number `± mantissa * 2 ^ exponent`. -/
  | finite (negative : Bool) (mantissa : Nat) (exponent : Int)
deriving DecidableEq

/-- The parts of a double. -/
def parts (x : Float) : Parts :=
  let bits := x.toBits.toNat
  let negative := 0x8000000000000000 ≤ bits
  let biased := bits / 0x10000000000000 % 0x800
  let fraction := bits % 0x10000000000000
  if biased = 2047 then
    if fraction = 0 then .infinity negative else .nan
  else if biased = 0 then .finite negative fraction (-1074)
  else .finite negative (0x10000000000000 + fraction) (Int.ofNat biased - 1075)

/-- Whether the double is a number and not infinite. -/
def isFinite (x : Float) : Bool :=
  match parts x with
  | .finite .. => true
  | _ => false

/-- An integer with a sign. -/
def withSign (negative : Bool) (n : Nat) : Int :=
  if negative then -n else n

/-- **Order key.** The value of a double in units of the smallest positive double; infinity lies
beyond all others. NaN has no place in the order. -/
def orderKey? (x : Float) : Option Int :=
  match parts x with
  | .nan => none
  | .infinity negative => some (withSign negative (twoTo 2100))
  | .finite negative mantissa exponent =>
    some (withSign negative (mantissa * twoTo (exponent + 1074).toNat))

/-- **Nearest with 53 bits.** The natural number nearest to `n` that has at most 53 significant
bits, a tie going to the even one. -/
def nearest53 (n : Nat) : Nat :=
  let excess := n.log2 - 52
  let unit := twoTo excess
  let low := n / unit
  let rest := n % unit
  if unit < 2 * rest ∨ (2 * rest = unit ∧ low % 2 = 1) then (low + 1) * unit else low * unit

/-- **Order key of an integer**, as the double nearest to it has it. -/
def keyOfInt (n : Int) : Int :=
  withSign (n < 0) (nearest53 n.natAbs * twoTo 1074)

/-- **Whole part** of a number given by its parts, without the sign. -/
def wholePart (mantissa : Nat) (exponent : Int) : Nat :=
  if 0 ≤ exponent then mantissa * twoTo exponent.toNat else mantissa / twoTo (-exponent).toNat

/-- **Truncation** of a finite double to an integer; zero for the others. -/
def truncate (x : Float) : Int :=
  match parts x with
  | .finite negative mantissa exponent => withSign negative (wholePart mantissa exponent)
  | _ => 0

/-- **Floor** of a finite double; zero for the others. -/
def floor (x : Float) : Int :=
  match parts x with
  | .finite negative mantissa exponent =>
    if 0 ≤ exponent then withSign negative (mantissa * twoTo exponent.toNat)
    else Int.fdiv (withSign negative mantissa) (twoTo (-exponent).toNat)
  | _ => 0

/-- **Ceiling** of a finite double; zero for the others. -/
def ceiling (x : Float) : Int :=
  -floor (-x)

/-- The whole number nearest to `mantissa * 2 ^ exponent`, a half going up. -/
def halfUp (mantissa : Nat) (exponent : Int) : Nat :=
  if 0 ≤ exponent then mantissa * twoTo exponent.toNat
  else
    let unit := twoTo (-exponent).toNat
    (2 * mantissa + unit) / (2 * unit)

/-- **Rounding** of a finite double to the nearest integer, halves away from zero; zero for the
others. -/
def roundToInt (x : Float) : Int :=
  match parts x with
  | .finite negative mantissa exponent => withSign negative (halfUp mantissa exponent)
  | _ => 0

/-- **Rounding** of a double to a whole double, halves away from zero. Zero keeps its sign, and what
is not finite or has no fraction stays as it is. -/
def roundHalfAway (x : Float) : Float :=
  match parts x with
  | .finite negative mantissa exponent =>
    if 0 ≤ exponent then x
    else
      let whole := Float.ofNat (halfUp mantissa exponent)
      if negative then -whole else whole
  | _ => x

/-- **Double to integer.** The 64-bit integer nearest to the truncated value; zero for NaN. -/
def toWord (x : Float) : Int64 :=
  match parts x with
  | .nan => 0
  | .infinity negative => if negative then Int64.minValue else Int64.maxValue
  | .finite .. => clamp (truncate x)

/-- The double `± mantissa * 2 ^ exponent`, for a mantissa of at most 53 bits. -/
def ofParts (negative : Bool) (mantissa : Nat) (exponent : Int) : Float :=
  let fraction := mantissa % 0x10000000000000
  let bits :=
    if mantissa = 0 then 0
    else if 0x10000000000000 ≤ mantissa then (exponent + 1075).toNat * 0x10000000000000 + fraction
    else fraction
  Float.ofBits (UInt64.ofNat (if negative then 0x8000000000000000 + bits else bits))

/-- Brings `n`, in units of the smallest positive double, to a mantissa below `2 ^ 53` and an
exponent; no bit is lost when `n` has at most 53 significant bits. -/
def ofUnits (negative : Bool) (n : Nat) : Float :=
  let excess := n.log2 - 52
  ofParts negative (n / twoTo excess) (Int.ofNat excess - 1074)

/-- **Remainder** of the truncated division of two doubles: it has the sign of the dividend and is
exact. -/
def remainder (x y : Float) : Float :=
  match parts x, parts y with
  | .finite negative m e, .finite _ n f =>
    let a := m * twoTo (e + 1074).toNat
    let b := n * twoTo (f + 1074).toNat
    if b = 0 then 0.0 / 0.0 else ofUnits negative (a % b)
  | .finite .., .infinity _ => x
  | _, _ => 0.0 / 0.0

end LiquidTemplate.Number
