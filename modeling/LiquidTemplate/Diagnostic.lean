import LiquidTemplate.SyntaxError
import LiquidTemplate.Number.Text

/-!
# Diagnostics

A syntax error shown with the line of the template at which it was found.

* `Diagnostic.heading`: the code of the error between brackets.
* `Diagnostic.body`: the error with its line and a mark below the span.
* `Diagnostic.render`: the heading and the body.
-/

namespace LiquidTemplate.Diagnostic

/-- A line number as wide as `width` characters. -/
def lineNumber (width line : Nat) : String :=
  String.ofList (Number.padLeft width ' ' (Number.natText line))

/-- What a diagnostic begins with. -/
def heading (e : SyntaxError) : String :=
  "error[" ++ e.kind.code ++ "]"

/-- The number of marks below a span: the characters of its first line, at least one. -/
def markCount (source : Source) (span : Span) : Nat :=
  match source.spanText? span with
  | some cs => max 1 (cs.takeWhile (· ≠ '\n')).length
  | none => 1

/-- The message, the place and the marked line of a span; `none` if the source has no such place. -/
def snippet? (source : Source) (span : Span) (message : String) : Option String := do
  let (line, column) ← source.position? span.lo
  let text ← source.lineText? line
  let marks := List.replicate (column - 1) ' ' ++ List.replicate (markCount source span) '^'
  pure (message ++ "\n --> " ++ source.name ++ ":" ++ toString line ++ ":" ++ toString column ++
    "\n  |\n" ++ lineNumber 3 line ++ " | " ++ text ++ "\n  | " ++ String.ofList marks)

/-- The message and the line of an error without a usable span. -/
def lineNote? (source : Source) (e : SyntaxError) : Option String := do
  let text ← source.lineText? e.line
  pure (e.message ++ "\n --> " ++ source.name ++ ":" ++ toString e.line ++ "\n  |\n" ++
    lineNumber 3 e.line ++ " | " ++ text)

/-- **What follows the heading**: the error with the marked span if it has one in the source, else
with its line if the source has it, else with the number of the line. -/
def body (source : Source) (e : SyntaxError) : String :=
  let snippet := e.span.bind fun span => snippet? source span e.message
  match snippet <|> lineNote? source e with
  | some text => ": " ++ text
  | none => ": line " ++ toString e.line ++ ": " ++ e.message

/-- **Diagnostic.** The error with what the source shows of it. -/
def render (source : Source) (e : SyntaxError) : String :=
  heading e ++ body source e

end LiquidTemplate.Diagnostic
