import LiquidTemplate.Value.Coercion

/-!
# Arithmetic of filters

Whole numbers are added, subtracted and multiplied exactly; a result out of range is a double.

* `Quantity.plus`, `minus`, `times`: sums, differences and products.
* `Quantity.divide?`, `modulo?`: quotients and remainders, floored; none for a zero divisor.
* `Quantity.absolute`, `floor`, `ceiling`, `round`: changes of one number.
-/

namespace LiquidTemplate.Quantity

/-- **Absolute value.** -/
def absolute : Quantity → Quantity
  | int n => exact n.toInt.natAbs (Float.ofInt n.toInt.natAbs)
  | float x => float x.abs

/-- **Sum.** -/
def plus : Quantity → Quantity → Quantity
  | int m, int n => exact (m.toInt + n.toInt) (Float.ofInt m.toInt + Float.ofInt n.toInt)
  | a, b => float (a.toFloat + b.toFloat)

/-- **Difference.** -/
def minus : Quantity → Quantity → Quantity
  | int m, int n => exact (m.toInt - n.toInt) (Float.ofInt m.toInt - Float.ofInt n.toInt)
  | a, b => float (a.toFloat - b.toFloat)

/-- A product of doubles, rounded to ten decimals. -/
def timesFloat (x y : Float) : Float :=
  Number.roundHalfAway (x * y * 1e10) / 1e10

/-- **Product.** -/
def times : Quantity → Quantity → Quantity
  | int m, int n => exact (m.toInt * n.toInt) (timesFloat (Float.ofInt m.toInt) (Float.ofInt n.toInt))
  | a, b => float (timesFloat a.toFloat b.toFloat)

/-- **Quotient**, for whole numbers the greatest one that is not above it. -/
def divide? (a b : Quantity) : Option Quantity :=
  if b.isZero then none
  else
    match a, b with
    | int m, int n =>
      match Number.floorQuotient? m n with
      | some (quotient, _) => some (int quotient)
      | none => some (float (Float.ofInt m.toInt / Float.ofInt n.toInt))
    | a, b => some (float (a.toFloat / b.toFloat))

/-- The remainder of doubles with the sign of the divisor. -/
def moduloFloat (x y : Float) : Float :=
  let r := Number.remainder x y
  if r != 0.0 && (r < 0.0) != (y < 0.0) then r + y else r

/-- **Remainder** with the sign of the divisor. -/
def modulo? (a b : Quantity) : Option Quantity :=
  if b.isZero then none
  else
    match a, b with
    | int m, int n => some (int (Number.floorRemainder m n).1)
    | a, b => some (float (moduloFloat a.toFloat b.toFloat))

/-- A whole number `n` that was made of the double `x`; what is too large for it, or no number,
stays a double. -/
def ofRounded (x : Float) (n : Int) : Quantity :=
  if Number.isFinite x && n.natAbs < 0x8000000000000000 then int (Int64.ofInt n) else float x

/-- **Floor.** -/
def floor : Quantity → Quantity
  | int n => int n
  | float x => ofRounded x (Number.floor x)

/-- **Ceiling.** -/
def ceiling : Quantity → Quantity
  | int n => int n
  | float x => ofRounded x (Number.ceiling x)

/-- The double `10 ^ places`. -/
def scale (places : Nat) : Float :=
  Float.ofNat (Number.tenTo places)

/-- **Rounding** to decimals, halves away from zero: to a whole number, or to at most fifteen
places. -/
def round (digits : Int) : Quantity → Quantity
  | int n => int n
  | float x =>
    if digits ≤ 0 then ofRounded x (Number.roundToInt x)
    else
      let scale := scale (min digits 15).toNat
      float (Number.roundHalfAway (x * scale) / scale)

end LiquidTemplate.Quantity
