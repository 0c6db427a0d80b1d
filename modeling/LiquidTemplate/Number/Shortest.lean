import LiquidTemplate.Number.Binary64

/-!
# The shortest decimal of a double

Among the decimal numbers that read back as a given double, those with the fewest digits are
looked for on the grids of one digit, two digits and so on; of two on the same grid the nearer one is
taken.

* `Decimal`: a natural number times a power of ten.
* `Tie`: which of two decimals is taken that are equally near.
* `Interval`: the numbers that are read as one double.
* `shortest`: the decimal that is looked for.
-/

namespace LiquidTemplate.Number

/-- **Decimal number** `digits * 10 ^ exponent`. -/
structure Decimal where
  digits : Nat
  exponent : Int
deriving DecidableEq

/-- **Tie**: of two equally near neighbours the larger one is taken, or the one that is even. -/
inductive Tie where
  | upward | toEven
deriving DecidableEq

/-- **What is read as one double.** The value `value / scale`, between the ends `low / scale` and
`high / scale`, which belong to the interval if it is `closed`. -/
structure Interval where
  low : Nat
  value : Nat
  high : Nat
  scale : Nat
  closed : Bool

/-- The numbers that are nearest to the double `mantissa * 2 ^ exponent`. Below a power of two the
neighbour is nearer; a tie between neighbours goes to the even mantissa. -/
def Interval.ofParts (mantissa : Nat) (exponent : Int) : Interval :=
  let up := twoTo exponent.toNat
  let below := if mantissa = 0x10000000000000 ∧ -1074 < exponent then 1 else 2
  { low := (4 * mantissa - below) * up
    value := 4 * mantissa * up
    high := (4 * mantissa + 2) * up
    scale := 4 * twoTo (-exponent).toNat
    closed := mantissa % 2 = 0 }

/-- A decimal number as a fraction. -/
def Decimal.fraction (d : Decimal) : Nat × Nat :=
  (d.digits * tenTo d.exponent.toNat, tenTo (-d.exponent).toNat)

/-- Whether the decimal number lies in the interval. -/
def Interval.contains (i : Interval) (d : Decimal) : Bool :=
  let (n, m) := d.fraction
  let low := i.low * m
  let high := i.high * m
  let at_ := n * i.scale
  if i.closed then low ≤ at_ && at_ ≤ high else low < at_ && at_ < high

/-- The largest `k` with `10 ^ k ≤ n`, for a positive `n`. -/
def log10 (n : Nat) : Nat :=
  (Nat.toDigits 10 n).length - 1

/-- The exponent `k` with `10 ^ k ≤ n / m < 10 ^ (k + 1)`, for positive `n` and `m`. -/
def magnitude (n m : Nat) : Int :=
  if m ≤ n then log10 (n / m) else -Int.ofNat (log10 ((m - 1) / n) + 1)

/-- The two neighbours of the value on the grid of the multiples of `10 ^ exponent`. -/
def Interval.neighbours (i : Interval) (exponent : Int) : Decimal × Decimal :=
  let low := i.value * tenTo (-exponent).toNat / (i.scale * tenTo exponent.toNat)
  (⟨low, exponent⟩, ⟨low + 1, exponent⟩)

/-- Whether the first of the neighbours `low` and `low + 1` of the value is taken. -/
def Interval.prefersLow (i : Interval) (tie : Tie) (low : Decimal) : Bool :=
  let unit := i.scale * tenTo low.exponent.toNat
  let rest := i.value * tenTo (-low.exponent).toNat - low.digits * unit
  2 * rest < unit || (2 * rest == unit && tie = .toEven && low.digits % 2 == 0)

/-- The decimal of the interval on one grid, if there is one. -/
def Interval.onGrid? (i : Interval) (tie : Tie) (exponent : Int) : Option Decimal :=
  let (low, high) := i.neighbours exponent
  match i.contains low, i.contains high with
  | true, true => some (if i.prefersLow tie low then low else high)
  | true, false => some low
  | false, true => some high
  | false, false => none

/-- Without the zeros at the end. -/
def Decimal.strip (d : Decimal) : Nat → Decimal
  | 0 => d
  | fuel + 1 =>
    if d.digits % 10 = 0 ∧ d.digits ≠ 0 then
      Decimal.strip ⟨d.digits / 10, d.exponent + 1⟩ fuel
    else d

/-- **Shortest decimal** of the positive double `mantissa * 2 ^ exponent`. -/
def shortest (tie : Tie) (mantissa : Nat) (exponent : Int) : Decimal :=
  let i := Interval.ofParts mantissa exponent
  let top := magnitude i.value i.scale
  let grids := (List.range 17).map fun (n : Nat) => top - Int.ofNat n
  let d := (grids.findSome? (i.onGrid? tie)).getD (i.neighbours (top - 16)).1
  d.strip 20

end LiquidTemplate.Number
