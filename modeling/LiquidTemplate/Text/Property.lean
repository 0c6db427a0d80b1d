import LiquidTemplate.Text.Ranges

/-!
# Character classes

* `inRanges`: membership of a code point in a table of ranges.
* `isDecimalDigit`, `isWordChar`: the digits and the word characters of all scripts.
* `isAsciiDigit`, `isNameStart`, `isNameChar`: the ASCII classes that names and numbers are made of.
* `isCased`, `isCaseIgnorable`, `isExtendingMark`, `isPrintable`: further Unicode properties.
-/

namespace LiquidTemplate.Text

/-- Whether `n` lies in one of the ranges. -/
def inRanges (ranges : Array (Nat × Nat)) (n : Nat) : Bool :=
  ranges.any fun r => r.1 ≤ n && n ≤ r.2

/-- **ASCII digit.** -/
def isAsciiDigit (c : Char) : Bool :=
  '0' ≤ c && c ≤ '9'

/-- **First character of a name**: an ASCII letter or an underscore. -/
def isNameStart (c : Char) : Bool :=
  ('a' ≤ c && c ≤ 'z') || ('A' ≤ c && c ≤ 'Z') || c == '_'

/-- **Later character of a name**: an ASCII letter, digit or an underscore. -/
def isNameChar (c : Char) : Bool :=
  isNameStart c || isAsciiDigit c

/-- **Decimal digit** of any script. -/
def isDecimalDigit (c : Char) : Bool :=
  if c.toNat < 128 then isAsciiDigit c else inRanges Ranges.decimalDigit c.toNat

/-- **Word character** of any script. -/
def isWordChar (c : Char) : Bool :=
  if c.toNat < 128 then isNameChar c else inRanges Ranges.wordCharacter c.toNat

/-- **Cased** character. -/
def isCased (c : Char) : Bool :=
  inRanges Ranges.cased c.toNat

/-- **Case-ignorable** character. -/
def isCaseIgnorable (c : Char) : Bool :=
  inRanges Ranges.caseIgnorable c.toNat

/-- **Extending mark**: a mark that joins the character before it. -/
def isExtendingMark (c : Char) : Bool :=
  0x300 ≤ c.toNat && inRanges Ranges.extendingMark c.toNat

/-- **Printable** character. -/
def isPrintable (c : Char) : Bool :=
  if c.toNat < 127 then 32 ≤ c.toNat else !inRanges Ranges.unprintable c.toNat

end LiquidTemplate.Text
