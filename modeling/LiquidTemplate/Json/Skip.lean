import LiquidTemplate.Json.Number
import LiquidTemplate.Json.Text

/-!
# Values that are not needed

* `Json.Frame`: an open list or object.
* `Json.skipValue`: goes over a value, however deep its brackets are nested.
-/

namespace LiquidTemplate.Json

/-- **Open bracket.** -/
inductive Frame where
  | list | object

namespace Frame

/-- The bracket that closes the frame. -/
def closing : Frame → Char
  | list => ']'
  | object => '\x7d'

/-- The error where the text ends inside the frame. -/
def atEnd : Frame → Cause
  | list => .endInList
  | object => .endInObject

/-- The error where neither a comma nor the closing bracket follows. -/
def missingComma : Frame → Cause
  | list => .missingListComma
  | object => .missingObjectComma

end Frame

/-- **Goes over closing brackets**, up to the next element: the frames that are still open then, or
`none` if all are closed. Before a comma there has to be an element. -/
def skipClosing (hasElement : Bool) : List Frame → Reader (Option (List Frame))
  | [] => return none
  | frame :: frames => do
    let c ← demandPart frame.atEnd
    if c = ',' ∧ hasElement then
      skip 1
      return some (frame :: frames)
    else if c = frame.closing then
      skip 1
      skipClosing true frames
    else if hasElement then failNext frame.missingComma
    else return some (frame :: frames)

/-- Goes over a key and its colon. -/
def skipKey : Reader Unit := do
  if (← demandPart .endInObject) ≠ '"' then failNext .keyNotString
  skip 1
  skipText
  expectColon

/-- **Goes over a value that has no parts**, or over the opening bracket of one that has. -/
def skipStart : Reader (Option Frame) := do
  match ← demandPart .endInValue with
  | 'n' =>
    expectLetters "null".toList
    return none
  | 't' =>
    expectLetters "true".toList
    return none
  | 'f' =>
    expectLetters "false".toList
    return none
  | '"' =>
    skip 1
    skipText
    return none
  | '-' =>
    skip 1
    skipNumber
    return none
  | '[' =>
    skip 1
    return some .list
  | '\x7b' =>
    skip 1
    return some .object
  | c =>
    if Text.isAsciiDigit c then
      skipNumber
      return none
    else failNext .missingValue

/-- **Goes over a value.** -/
def skipValue : Reader Unit :=
  Loop.iterate Cursor.size (fail .missingValue) (fun frames => do
      let next ←
        match ← skipStart with
        | some frame => skipClosing false (frame :: frames)
        | none => skipClosing true frames
      match next with
      | none => return .inr ()
      | some frames =>
        if let .object :: _ := frames then skipKey
        return .inl frames)
    []

end LiquidTemplate.Json
