import LiquidTemplate.Json.Number
import LiquidTemplate.Json.Text
import LiquidTemplate.Value.Basic

/-!
# Values in JSON text

* `Json.readList`, `Json.readObject`: lists and objects of whatever a reader reads.
* `Json.readNested`: a value with brackets up to a given depth.
* `Value.ofJson`: the value of a whole text.
-/

namespace LiquidTemplate

namespace Json

variable {α : Type}

/-- **Elements of a list** behind its opening bracket, up to and with the closing one. -/
def readList (element : Reader α) : Reader (List α) :=
  Loop.iterate Cursor.size (fail .missingValue) (fun read => do
      if ← nextElement read.isEmpty then return .inl ((← element) :: read)
      else
        skip 1
        return .inr read.reverse)
    []

/-- **Entries of an object** behind its opening bracket, up to and with the closing one. -/
def readObject (element : Reader α) : Reader (List (String × α)) :=
  Loop.iterate Cursor.size (fail .missingValue) (fun read => do
      if ← nextKey read.isEmpty then
        skip 1
        let key ← readText
        expectColon
        return .inl ((key, ← element) :: read)
      else
        skip 1
        return .inr read.reverse)
    []

/-- A number as a value; an integer beyond 64 bits with a sign is a double. -/
def Numeral.toValue : Numeral → Value
  | integer n =>
    match Number.word? n with
    | some w => .int w
    | none => .float (Float.ofInt n)
  | float x => .float x

/-- **Value**; `inner` reads the values between brackets, if brackets are still possible. -/
def readValueWith (inner : Option (Reader Value)) : Reader Value := do
  match ← demandPart .endInValue with
  | 'n' =>
    expectLetters "null".toList
    return .none
  | 't' =>
    expectLetters "true".toList
    return .bool true
  | 'f' =>
    expectLetters "false".toList
    return .bool false
  | '"' =>
    skip 1
    return .str (← readText)
  | '-' =>
    skip 1
    return (← readNumber true).toValue
  | '[' =>
    match inner with
    | none => failNext .nestedTooDeep
    | some inner =>
      skip 1
      return .list (← readList inner)
  | '\x7b' =>
    match inner with
    | none => failNext .nestedTooDeep
    | some inner =>
      skip 1
      return .ofEntries (← readObject inner)
  | c =>
    if Text.isAsciiDigit c then return (← readNumber false).toValue
    else failNext .missingValue

/-- **Value with brackets** nested at most `depth` times. -/
def readNested : (depth : Nat) → Reader Value
  | 0 => readValueWith none
  | depth + 1 => readValueWith (some (readNested depth))

/-- How deep brackets may be nested. -/
def maxDepth : Nat :=
  127

end Json

/-- **Value of a JSON text.** Integers beyond 64 bits are doubles, and of several entries with one
key the last one counts. -/
def Value.ofJson (text : String) : Except Json.Error Value :=
  Json.Reader.runOn (do
      let value ← Json.readNested Json.maxDepth
      Json.expectEnd
      return value)
    text.toList

end LiquidTemplate
