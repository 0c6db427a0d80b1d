import LiquidTemplate.Number.Word
import LiquidTemplate.Text.Property

/-!
# Reading numbers

* `digitsValue`: the value of a run of ASCII digits.
* `readWord?`: an optional sign and digits, within 64 bits.
* `ofDecimal`: the double nearest to a decimal number.
* `readFloat?`: a decimal number with an optional sign, fraction and exponent, or the name of an
  infinity or of NaN.
-/

namespace LiquidTemplate.Number

open Text

/-- The value of an ASCII digit. -/
def digitValue (c : Char) : Nat :=
  c.toNat - '0'.toNat

/-- **Value of digits**, most significant first. -/
def digitsValue (cs : List Char) : Nat :=
  cs.foldl (fun n c => 10 * n + digitValue c) 0

/-- A sign at the beginning, if there is one, and the rest. -/
def readSign : List Char → Bool × List Char
  | '-' :: cs => (true, cs)
  | '+' :: cs => (false, cs)
  | cs => (false, cs)

/-- A numeral that is not empty and holds only ASCII digits. -/
def readDigits? (cs : List Char) : Option Nat :=
  if cs.isEmpty || !cs.all isAsciiDigit then none else some (digitsValue cs)

/-- **64-bit integer.** An optional sign and digits; `none` for anything else and out of range. -/
def readWord? (cs : List Char) : Option Int64 :=
  let (negative, digits) := readSign cs
  (readDigits? digits).bind fun n => word? (if negative then -n else n)

/-- **Nearest double** to `± digits * 10 ^ exponent`. -/
def ofDecimal (negative : Bool) (digits : Nat) (exponent : Int) : Float :=
  let size := (Nat.toDigits 10 digits).length
  let magnitude : Float :=
    if digits = 0 ∨ exponent + size < -400 then 0.0
    else if 400 < exponent + size then 1.0 / 0.0
    else if exponent < 0 then Float.ofScientific digits true exponent.natAbs
    else Float.ofScientific digits false exponent.natAbs
  if negative then -magnitude else magnitude

/-- The digits at the beginning and the rest. -/
def spanDigits (cs : List Char) : List Char × List Char :=
  cs.span isAsciiDigit

/-- An exponent that ends the text: a mark, an optional sign and digits; nothing is zero. -/
def readExponent? : List Char → Option Int
  | [] => some 0
  | c :: cs =>
    if c = 'e' ∨ c = 'E' then
      let (negative, digits) := readSign cs
      (readDigits? digits).map fun n => if negative then -Int.ofNat n else n
    else none

/-- A decimal number without a sign: digits, a fraction and an exponent, with a digit before or
after the point. -/
def readDecimal? (cs : List Char) : Option (Nat × Int) :=
  let (whole, rest) := spanDigits cs
  let (fraction, rest) :=
    match rest with
    | '.' :: rest => spanDigits rest
    | rest => ([], rest)
  if whole.isEmpty && fraction.isEmpty then none
  else (readExponent? rest).map fun e => (digitsValue (whole ++ fraction), e - fraction.length)

/-- **Double.** An optional sign before a decimal number or, in any case, one of the names `inf`,
`infinity` and `nan`. -/
def readFloat? (cs : List Char) : Option Float :=
  let (negative, body) := readSign cs
  let name := String.ofList (body.map Char.toLower)
  if name = "inf" ∨ name = "infinity" then some (if negative then -1.0 / 0.0 else 1.0 / 0.0)
  else if name = "nan" then some (0.0 / 0.0)
  else (readDecimal? body).map fun (digits, exponent) => ofDecimal negative digits exponent

end LiquidTemplate.Number
