import LiquidTemplate.Text.Property
import LiquidTemplate.Text.Search
import LiquidTemplate.Text.Utf8

/-!
# Texts in addresses

* `Url.encode`: a text in the form that addresses allow: a space is a plus sign, and most other
  bytes are written as a percent sign with two digits.
* `Url.entries`: the names and values of a form, in which ampersands and equals signs separate them.
* `Url.decode`: the text of the form that addresses allow. It is read as the name of a form with a
  single entry, after the separators in it were written as percent signs with digits.
-/

namespace LiquidTemplate.Url

/-- A digit of the base sixteen, in upper case. -/
def hexDigit (n : Nat) : Char :=
  Char.ofNat (if n < 10 then n + '0'.toNat else n - 10 + 'A'.toNat)

/-- The value of a digit of the base sixteen. -/
def hexValue? (b : UInt8) : Option Nat :=
  let n := b.toNat
  if '0'.toNat ≤ n ∧ n ≤ '9'.toNat then some (n - '0'.toNat)
  else if 'A'.toNat ≤ n ∧ n ≤ 'F'.toNat then some (n - 'A'.toNat + 10)
  else if 'a'.toNat ≤ n ∧ n ≤ 'f'.toNat then some (n - 'a'.toNat + 10)
  else none

/-- Whether a byte stands for itself. -/
def isPlain (b : UInt8) : Bool :=
  let c := Char.ofNat b.toNat
  b < 0x80 && (c.isAlphanum || ['*', '-', '.', '_'].contains c)

/-- The form of a byte. -/
def encodeByte (b : UInt8) : List Char :=
  if isPlain b then [Char.ofNat b.toNat]
  else if b = 0x20 then ['+']
  else ['%', hexDigit (b.toNat / 16), hexDigit (b.toNat % 16)]

/-- **Form of a text.** -/
def encode (cs : List Char) : List Char :=
  (Text.encodeUtf8 cs).flatMap encodeByte

/-- Bytes with the percent forms in them replaced; a percent sign without two digits stays. -/
def decodePercent : List UInt8 → List UInt8
  | b :: h :: l :: bs =>
    match if b = 0x25 then hexValue? h else none, hexValue? l with
    | some high, some low => UInt8.ofNat (high * 16 + low) :: decodePercent bs
    | _, _ => b :: decodePercent (h :: l :: bs)
  | bs => bs

/-- A plus sign as a space. -/
def plusToSpace (b : UInt8) : UInt8 :=
  if b = 0x2B then 0x20 else b

/-- The text of a name or of a value in a form. -/
def decodePart (cs : List Char) : List Char :=
  Text.decodeUtf8 (decodePercent ((Text.encodeUtf8 cs).map plusToSpace))

/-- **Entries of a form**: names and values. Ampersands separate the entries, of which empty ones are
left out, and the first equals sign of an entry ends its name. -/
def entries (cs : List Char) : List (List Char × List Char) :=
  ((Text.split ['&'] cs).filter fun entry => !entry.isEmpty).map fun entry =>
    match Text.cut? ['='] entry with
    | some (name, value) => (decodePart name, decodePart value)
    | none => (decodePart entry, [])

/-- A text with its separators in percent forms. -/
def withoutSeparators (cs : List Char) : List Char :=
  Text.replace ['&'] "%26".toList (Text.replace ['='] "%3D".toList cs)

/-- **Text of a form** that is a single name. -/
def decode (cs : List Char) : List Char :=
  match entries (withoutSeparators cs) with
  | (name, _) :: _ => name
  | [] => []

end LiquidTemplate.Url
