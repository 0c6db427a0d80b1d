import LiquidTemplate.Number.Binary64
import LiquidTemplate.Number.Word

/-!
# Quantities

Numbers as templates know them: whole numbers of 64 bits and doubles.

* `Quantity`: a number of either kind.
* `Quantity.compare`, `Quantity.equal`: the order, also across the kinds; NaN is neither less nor
  greater than anything, and equals nothing.
* `Quantity.exact`: the result of an exact operation, as a double when it is out of range.
-/

namespace LiquidTemplate

/-- **Number** of either kind. -/
inductive Quantity where
  | int (n : Int64)
  | float (x : Float)

namespace Quantity

/-- The double nearest to the number. -/
def toFloat : Quantity → Float
  | int n => Float.ofInt n.toInt
  | float x => x

/-- The place of the number in the order of doubles; NaN has none. -/
def key? : Quantity → Option Int
  | int n => some (Number.keyOfInt n.toInt)
  | float x => Number.orderKey? x

/-- **Order.** Two whole numbers compare exactly, else the doubles compare. -/
def compare : Quantity → Quantity → Ordering
  | int m, int n => Ord.compare m.toInt n.toInt
  | a, b =>
    match a.key?, b.key? with
    | some x, some y => Ord.compare x y
    | _, _ => .eq

/-- **Equality** of the values. -/
def equal : Quantity → Quantity → Bool
  | int m, int n => m == n
  | a, b =>
    match a.key?, b.key? with
    | some x, some y => x == y
    | _, _ => false

/-- Whether the number is zero, of either sign. -/
def isZero : Quantity → Bool
  | int n => n == 0
  | float x => Number.orderKey? x == some 0

/-- **Truncation** to a whole number in range; zero for NaN. -/
def toWord : Quantity → Int64
  | int n => n
  | float x => Number.toWord x

/-- **Exact result.** The whole number `n`, or `otherwise` if it is out of range. -/
def exact (n : Int) (otherwise : Float) : Quantity :=
  match Number.word? n with
  | some w => int w
  | none => float otherwise

end Quantity

end LiquidTemplate
