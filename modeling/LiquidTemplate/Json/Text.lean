import LiquidTemplate.Json.Reader
import LiquidTemplate.Loop

/-!
# Strings in JSON text

* `Json.readText`: the text of a string, with its escapes resolved.
* `Json.skipText`: goes over a string without its text.
-/

namespace LiquidTemplate.Json

open Text

/-- The value of a hexadecimal digit. -/
def hexDigit? (c : Char) : Option Nat :=
  if '0' ≤ c ∧ c ≤ '9' then some (c.toNat - '0'.toNat)
  else if 'a' ≤ c ∧ c ≤ 'f' then some (c.toNat - 'a'.toNat + 10)
  else if 'A' ≤ c ∧ c ≤ 'F' then some (c.toNat - 'A'.toNat + 10)
  else none

/-- The value of four hexadecimal digits at the beginning. -/
def hexUnit? : List Char → Option Nat
  | a :: b :: c :: d :: _ => do
    pure (((← hexDigit? a) * 16 + (← hexDigit? b)) * 256 + (← hexDigit? c) * 16 + (← hexDigit? d))
  | _ => none

/-- **Unit of 16 bits** as four hexadecimal digits. Whether the text is long enough is a matter of
its bytes. -/
def readUnit : Reader Nat := do
  let cs := (← get).rest
  match hexUnit? cs with
  | some n =>
    skip 4
    return n
  | none =>
    if byteSize cs < 4 then failForward 4 .endInString else failForward 4 .unknownEscape

/-- Demand this character inside of a string. -/
def expectInPair (expected : Char) : Reader Unit := do
  match ← peek with
  | none => failNext .endInString
  | some c => if c = expected then skip 1 else failNext .brokenPair

/-- **Character of units**: one unit, or the two halves of a pair. -/
def readUnits : Reader Char := do
  let high ← readUnit
  if 0xDC00 ≤ high ∧ high ≤ 0xDFFF then fail .loneSurrogate
  else if 0xD800 ≤ high ∧ high ≤ 0xDBFF then
    expectInPair '\\'
    expectInPair 'u'
    let low ← readUnit
    if 0xDC00 ≤ low ∧ low ≤ 0xDFFF then
      return Char.ofNat ((high - 0xD800) * 1024 + (low - 0xDC00) + 0x10000)
    else fail .loneSurrogate
  else return Char.ofNat high

/-- The character of a short escape. -/
def shortEscape? : Char → Option Char
  | '"' => some '"'
  | '\\' => some '\\'
  | '/' => some '/'
  | 'b' => some '\x08'
  | 'f' => some '\x0c'
  | 'n' => some '\n'
  | 'r' => some '\r'
  | 't' => some '\t'
  | _ => none

/-- An escape behind its backslash; `units` reads what follows a `u`. -/
def readEscape (units : Reader Char) : Reader Char := do
  match ← peek with
  | none => failNext .endInString
  | some 'u' =>
    skip 1
    units
  | some c =>
    match shortEscape? c with
    | some e =>
      skip 1
      return e
    | none => failNext .unknownEscape

/-- A character that stands for itself inside of a string. -/
def isPlain (c : Char) : Bool :=
  c ≠ '"' && c ≠ '\\' && 0x20 ≤ c.toNat

/-- **Text behind the opening quote**, up to and with the closing one. `units` reads what follows
the mark of a code and `control` is what a control character leads to. -/
def readTextWith (units : Reader Char) (control : Reader (List Char)) : Reader String :=
  Loop.iterate Cursor.size (fail .endInString) (fun read => do
      let read := (← takeWhile isPlain).reverse ++ read
      match ← peek with
      | none => fail .endInString
      | some '"' =>
        skip 1
        return .inr (String.ofList read.reverse)
      | some '\\' =>
        skip 1
        return .inl ((← readEscape units) :: read)
      | some _ => .inl <$> control)
    []

/-- **Text of a string** behind its opening quote. -/
def readText : Reader String :=
  readTextWith readUnits (failNext .controlInString)

/-- **Goes over a string** behind its opening quote. Units need not form characters. -/
def skipText : Reader Unit := do
  let _ ← readTextWith (Char.ofNat <$> readUnit) (fail .controlInString)

end LiquidTemplate.Json
