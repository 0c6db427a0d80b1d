import LiquidTemplate.Number.Shortest

/-!
# Written numbers

* `natText`, `intText`: decimal numerals.
* `positional`: a decimal number without an exponent.
* `plainFloat`: a double without an exponent and without a fraction that is zero.
* `templateFloat`: as templates show it, with one decimal for whole numbers of common size.
* `FloatFormat.write`: with an exponent for very small and very large ones.
* `dumpFloat`: as dumps show it.
-/

namespace LiquidTemplate.Number

/-- The numeral of a natural number. -/
def natText (n : Nat) : List Char :=
  Nat.toDigits 10 n

/-- The numeral of an integer. -/
def intText (n : Int) : List Char :=
  if n < 0 then '-' :: natText n.natAbs else natText n.natAbs

/-- The sign of an integer, which only negative ones have if it is not `always` there. -/
def signText (always : Bool) (n : Int) : List Char :=
  if n < 0 then ['-'] else if always then ['+'] else []

/-- `cs` filled up with `fill` on the left to `width` characters. -/
def padLeft (width : Nat) (fill : Char) (cs : List Char) : List Char :=
  List.replicate (width - cs.length) fill ++ cs

/-- **Positional form** of a decimal number, without zeros at the end of the fraction. -/
def positional (d : Decimal) : List Char :=
  let digits := natText d.digits
  if 0 ≤ d.exponent then digits ++ List.replicate d.exponent.toNat '0'
  else
    let places := (-d.exponent).toNat
    let padded := padLeft (places + 1) '0' digits
    padded.take (padded.length - places) ++ '.' :: padded.drop (padded.length - places)

/-- **Scientific form** of a decimal number: one digit before the point. The exponent has a sign
where it is negative or where the sign is `always` there. -/
def scientific (always : Bool) (d : Decimal) : List Char :=
  match natText d.digits with
  | [] => []
  | first :: others =>
    let fraction := if others.isEmpty then [] else '.' :: others
    let exponent := d.exponent + others.length
    first :: fraction ++ 'e' :: signText always exponent ++ natText exponent.natAbs

/-- A sign in front. -/
def signed (negative : Bool) (cs : List Char) : List Char :=
  if negative then '-' :: cs else cs

/-- **Plain text** of a double: the shortest decimal, positional. -/
def plainFloat (x : Float) : List Char :=
  match parts x with
  | .nan => ['N', 'a', 'N']
  | .infinity negative => signed negative ['i', 'n', 'f']
  | .finite negative mantissa exponent =>
    signed negative (if mantissa = 0 then ['0'] else positional (shortest .upward mantissa exponent))

/-- Whether the double `± mantissa * 2 ^ exponent` is a whole number below `10 ^ 16`. -/
def isCommonWhole (mantissa : Nat) (exponent : Int) : Bool :=
  (0 ≤ exponent || mantissa % twoTo (-exponent).toNat == 0) &&
    wholePart mantissa exponent < tenTo 16

/-- **Text in a template**: whole numbers below `10 ^ 16` have one decimal. -/
def templateFloat (x : Float) : List Char :=
  match parts x with
  | .finite negative mantissa exponent =>
    if isCommonWhole mantissa exponent then
      signed negative (natText (wholePart mantissa exponent) ++ ['.', '0'])
    else plainFloat x
  | _ => plainFloat x

/-- **Format** of a double that is written with an exponent where it is needed. -/
structure FloatFormat where
  /-- How far behind the point the first digit of a positional number may be. -/
  places : Nat
  tie : Tie
  /-- Whether positive exponents have a sign. -/
  exponentSign : Bool
deriving DecidableEq

/-- **Text with an exponent where it is needed.** The number is positional, with at least one
decimal, below `10 ^ 16` and from the one on whose first digit is the last of the places behind the
point; scientific beyond. -/
def FloatFormat.write (format : FloatFormat) (x : Float) : List Char :=
  match parts x with
  | .finite negative mantissa exponent =>
    if mantissa = 0 then signed negative ['0', '.', '0']
    else
      let d := shortest format.tie mantissa exponent
      let size := d.exponent + (natText d.digits).length
      if size + format.places < 1 ∨ 16 < size then
        signed negative (scientific format.exponentSign d)
      else
        let body := positional d
        signed negative (if body.contains '.' then body else body ++ ['.', '0'])
  | _ => plainFloat x

/-- **Text in a dump**: positional from `0.0001` up to `10 ^ 16`. -/
def dumpFloat (x : Float) : List Char :=
  FloatFormat.write ⟨4, .upward, false⟩ x

end LiquidTemplate.Number
