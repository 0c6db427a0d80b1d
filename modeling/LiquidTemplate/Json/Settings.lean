import LiquidTemplate.Delimiters
import LiquidTemplate.Json.Skip
import LiquidTemplate.Number.Text
import LiquidTemplate.Text.Quoted

/-!
# Settings in JSON text

The delimiters of a template as an object with a field for each setting, or as a list of the
settings in their order. Settings that are missing keep their defaults.

* `Setting`: the settings and their names.
* `Json.failType`: the error at a value of another type than the expected one.
* `Delimiters.ofJson`: the delimiters of a whole text.
-/

namespace LiquidTemplate

/-- **Setting.** -/
inductive Setting where
  | blockStart | blockEnd | variableStart | variableEnd | commentStart | commentEnd
  | trimBlocks | keepTrailingNewline
deriving DecidableEq, Repr

namespace Setting

/-- The settings in their order. -/
def all : List Setting :=
  [blockStart, blockEnd, variableStart, variableEnd, commentStart, commentEnd, trimBlocks,
    keepTrailingNewline]

/-- The name of a setting. -/
def name : Setting → String
  | blockStart => "block_start"
  | blockEnd => "block_end"
  | variableStart => "variable_start"
  | variableEnd => "variable_end"
  | commentStart => "comment_start"
  | commentEnd => "comment_end"
  | trimBlocks => "trim_blocks"
  | keepTrailingNewline => "keep_trailing_newline"

/-- The setting with a name. -/
def ofName? (name : String) : Option Setting :=
  all.find? fun s => s.name == name

/-- A setting is found by its name. -/
theorem ofName?_name (s : Setting) : ofName? s.name = some s := by
  cases s <;> decide

end Setting

namespace Json

variable {α : Type}

/-! ### Types -/

/-- Doubles in messages are positional from `0.00001` up to `10 ^ 16`, a tie goes to the even digit,
and exponents have a sign. -/
def messageFloat : Number.FloatFormat :=
  ⟨5, .toEven, true⟩

/-- What messages call a number. -/
def Numeral.describe : Numeral → String
  | integer n => "integer `" ++ toString n ++ "`"
  | float x => "floating point `" ++ String.ofList (messageFloat.write x) ++ "`"

/-- **What messages call the next value.** A value without parts is consumed for that. -/
def describeNext : Reader String := do
  match ← demandPart .endInValue with
  | 'n' =>
    expectLetters "null".toList
    return "null"
  | 't' =>
    expectLetters "true".toList
    return "boolean `true`"
  | 'f' =>
    expectLetters "false".toList
    return "boolean `false`"
  | '"' =>
    skip 1
    return "string " ++ Text.quoted (← readText)
  | '-' =>
    skip 1
    return (← readNumber true).describe
  | '[' => return "sequence"
  | '\x7b' => return "map"
  | c =>
    if Text.isAsciiDigit c then return (← readNumber false).describe
    else failNext .missingValue

/-- **Failure** at a value of another type. -/
def failType (expected : String) : Reader α := do
  fail (.wrongType (← describeNext) expected)

/-- A string. -/
def readString : Reader String := do
  match ← demandPart .endInValue with
  | '"' =>
    skip 1
    readText
  | _ => failType "a string"

/-- A truth value. -/
def readFlag : Reader Bool := do
  match ← demandPart .endInValue with
  | 't' =>
    expectLetters "true".toList
    return true
  | 'f' =>
    expectLetters "false".toList
    return false
  | _ => failType "a boolean"

/-! ### Settings -/

/-- The delimiters with one setting read. -/
def readSetting (d : Delimiters) : Setting → Reader Delimiters
  | .blockStart => return { d with blockStart := ← readString }
  | .blockEnd => return { d with blockEnd := ← readString }
  | .variableStart => return { d with variableStart := ← readString }
  | .variableEnd => return { d with variableEnd := ← readString }
  | .commentStart => return { d with commentStart := ← readString }
  | .commentEnd => return { d with commentEnd := ← readString }
  | .trimBlocks => return { d with trimBlocks := ← readFlag }
  | .keepTrailingNewline => return { d with keepTrailingNewline := ← readFlag }

/-- The end of the list behind the last setting. -/
def expectListEnd : Reader Unit := do
  let c ← demandPart .endInList
  if c = ']' then skip 1
  else if c = ',' then
    skip 1
    if (← peekPart) = some ']' then failNext .trailingComma
    else failNext .trailingText
  else failNext .trailingText

/-- **Settings in their order**, the first of them with `isFirst`. -/
def readInOrder (isFirst : Bool) (d : Delimiters) : List Setting → Reader Delimiters
  | [] => do
    expectListEnd
    return d
  | s :: settings => do
    if ← nextElement isFirst then
      let d ← readSetting d s
      readInOrder false d settings
    else
      expectListEnd
      return d

/-- **Failure** at a field that has been read before. The rest of the object is looked at first. -/
def failRepeated (s : Setting) : Reader α := do
  if (← peekPart) = some '\x7d' then skip 1
  fail (.repeatedField s.name)

/-- **Settings by name**, up to and with the closing bracket. Other fields are skipped. -/
def readFields (d : Delimiters) : Reader Delimiters :=
  Loop.iterate Cursor.size (fail .missingValue) (fun (isFirst, found, d) => do
      if ← nextKey isFirst then
        skip 1
        let key ← readText
        match Setting.ofName? key with
        | none =>
          expectColon
          skipValue
          return .inl (false, found, d)
        | some s =>
          if s ∈ found then failRepeated s
          expectColon
          return .inl (false, s :: found, ← readSetting d s)
      else
        skip 1
        return .inr d)
    (true, ([] : List Setting), d)

/-- The delimiters at a place. -/
def readDelimiters : Reader Delimiters := do
  match ← demandPart .endInValue with
  | '[' =>
    skip 1
    readInOrder true {} Setting.all
  | '\x7b' =>
    skip 1
    readFields {}
  | _ => failType "struct SyntaxConfig"

end Json

/-- **Delimiters of a JSON text.** -/
def Delimiters.ofJson (text : String) : Except Json.Error Delimiters :=
  Json.Reader.runOn (do
      let d ← Json.readDelimiters
      Json.expectEnd
      return d)
    text.toList

end LiquidTemplate
