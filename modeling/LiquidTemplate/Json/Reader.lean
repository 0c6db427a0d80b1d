import LiquidTemplate.Text.Basic

/-!
# Readers of JSON text

A reader is a step on a text that gives a result or an error with the place at which it was found.

* `Json.Place`: a line and the bytes before a place on it.
* `Json.Cause`, `Json.Error`: what is wrong, and where.
* `Json.Cursor`, `Json.Reader`: what is left of a text, and steps on it.
* `Json.fail`, `Json.failNext`: errors at a place, and at the byte that follows it.
* `Place.skip_append`: the place behind a text is that behind its second part.
-/

namespace LiquidTemplate.Json

open Text

/-- **Place** in a text. Lines are counted from one, columns in bytes from zero. -/
structure Place where
  line : Nat := 1
  column : Nat := 0
deriving DecidableEq

namespace Place

/-- The place behind a character. -/
def next (p : Place) (c : Char) : Place :=
  if c = '\n' then ⟨p.line + 1, 0⟩ else ⟨p.line, p.column + c.utf8Size⟩

/-- The place behind several characters. -/
def skip (p : Place) (cs : List Char) : Place :=
  cs.foldl next p

/-- The place `n` bytes on, or that behind the text if it is shorter. It may lie inside a
character. -/
def forward (p : Place) : (n : Nat) → List Char → Place
  | 0, _ => p
  | _ + 1, [] => p
  | n + 1, c :: cs =>
    if n + 1 < c.utf8Size then ⟨p.line, p.column + n + 1⟩
    else (p.next c).forward (n + 1 - c.utf8Size) cs

theorem skip_append (p : Place) (cs ds : List Char) : p.skip (cs ++ ds) = (p.skip cs).skip ds :=
  List.foldl_append

end Place

/-- **What is wrong** with a text, or with the values in it. -/
inductive Cause where
  | endInList | endInObject | endInString | endInValue
  | missingColon | missingListComma | missingObjectComma
  | misspelledWord | missingValue
  | unknownEscape | malformedNumber | numberTooLarge | controlInString
  | keyNotString | loneSurrogate | brokenPair
  | trailingComma | trailingText | nestedTooDeep
  /-- A value of another type than the one that was expected. -/
  | wrongType (found expected : String)
  | repeatedField (name : String)
deriving DecidableEq

/-- **Message** of a cause. -/
def Cause.message : Cause → String
  | endInList => "EOF while parsing a list"
  | endInObject => "EOF while parsing an object"
  | endInString => "EOF while parsing a string"
  | endInValue => "EOF while parsing a value"
  | missingColon => "expected `:`"
  | missingListComma => "expected `,` or `]`"
  | missingObjectComma => "expected `,` or `\x7d`"
  | misspelledWord => "expected ident"
  | missingValue => "expected value"
  | unknownEscape => "invalid escape"
  | malformedNumber => "invalid number"
  | numberTooLarge => "number out of range"
  | controlInString => "control character (\\u0000-\\u001F) found while parsing a string"
  | keyNotString => "key must be a string"
  | loneSurrogate => "lone leading surrogate in hex escape"
  | brokenPair => "unexpected end of hex escape"
  | trailingComma => "trailing comma"
  | trailingText => "trailing characters"
  | nestedTooDeep => "recursion limit exceeded"
  | wrongType found expected => "invalid type: " ++ found ++ ", expected " ++ expected
  | repeatedField name => "duplicate field `" ++ name ++ "`"

/-- **Error** of a reader. -/
structure Error where
  cause : Cause
  place : Place
deriving DecidableEq

/-- The error in one line. -/
def Error.describe (e : Error) : String :=
  e.cause.message ++ " at line " ++ toString e.place.line ++ " column " ++ toString e.place.column

/-- **Cursor**: the characters that are left, and the place of the first of them. -/
structure Cursor where
  rest : List Char
  place : Place := {}

/-- The number of characters that are left. -/
def Cursor.size (s : Cursor) : Nat :=
  s.rest.length

/-- The cursor behind the first `n` characters. -/
def Cursor.advance (s : Cursor) (n : Nat) : Cursor :=
  ⟨s.rest.drop n, s.place.skip (s.rest.take n)⟩

/-- The place `n` bytes on. -/
def Cursor.forward (s : Cursor) (n : Nat) : Place :=
  s.place.forward n s.rest

/-- **Reader.** -/
abbrev Reader := EStateM Error Cursor

variable {α β : Type}

/-! ### Failing -/

/-- **Failure** at this place. -/
def fail (cause : Cause) : Reader α := fun s =>
  .error ⟨cause, s.place⟩ s

/-- **Failure** at a place some bytes on. -/
def failForward (n : Nat) (cause : Cause) : Reader α := fun s =>
  .error ⟨cause, s.forward n⟩ s

/-- **Failure** at the next byte: the place of the error is behind it. -/
def failNext (cause : Cause) : Reader α :=
  failForward 1 cause

/-! ### Reading characters -/

/-- The next character. -/
def peek : Reader (Option Char) :=
  return (← get).rest.head?

/-- Consume `n` characters. -/
def skip (n : Nat) : Reader Unit :=
  modify fun s => s.advance n

/-- Consume the characters up to the first that does not have the property. -/
def takeWhile (p : Char → Bool) : Reader (List Char) := do
  let cs := (← get).rest.takeWhile p
  skip cs.length
  return cs

/-- White space between the parts of a JSON text. -/
def isGap (c : Char) : Bool :=
  c = ' ' || c = '\n' || c = '\t' || c = '\r'

/-- The next character behind white space, which is consumed. -/
def peekPart : Reader (Option Char) := do
  let _ ← takeWhile isGap
  peek

/-- The next character behind white space; the text must not end before it. -/
def demandPart (atEnd : Cause) : Reader Char := do
  match ← peekPart with
  | none => failNext atEnd
  | some c => return c

/-- Demand the end of the text. -/
def expectEnd : Reader Unit := do
  if (← peekPart).isSome then failNext .trailingText

/-- Demand these characters one by one. -/
def expectLetters : List Char → Reader Unit
  | [] => return
  | letter :: letters => do
    match ← peek with
    | none => failNext .endInValue
    | some c =>
      if c = letter then
        skip 1
        expectLetters letters
      else failNext .misspelledWord

/-- The result of a reader on a whole text. -/
def Reader.runOn (r : Reader α) (text : List Char) : Except Error α :=
  match r { rest := text } with
  | .ok a _ => .ok a
  | .error e _ => .error e

/-! ### Parts of lists and objects -/

/-- Whether an element of a list follows: an end does not, and a comma separates the elements. -/
def nextElement (isFirst : Bool) : Reader Bool := do
  let c ← demandPart .endInList
  if c = ']' then return false
  else if isFirst then return true
  else if c = ',' then
    skip 1
    if (← demandPart .endInValue) = ']' then failNext .trailingComma
    return true
  else failNext .missingListComma

/-- Whether an entry of an object follows. -/
def nextKey (isFirst : Bool) : Reader Bool := do
  let c ← demandPart .endInObject
  if c = '\x7d' then return false
  else if isFirst then
    if c ≠ '"' then failNext .keyNotString
    return true
  else if c = ',' then
    skip 1
    let c ← demandPart .endInValue
    if c = '\x7d' then failNext .trailingComma
    if c ≠ '"' then failNext .keyNotString
    return true
  else failNext .missingObjectComma

/-- The colon behind a key. -/
def expectColon : Reader Unit := do
  if (← demandPart .endInObject) = ':' then skip 1
  else failNext .missingColon

end LiquidTemplate.Json
