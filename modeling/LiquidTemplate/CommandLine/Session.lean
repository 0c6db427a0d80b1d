import LiquidTemplate.CommandLine.Style
import LiquidTemplate.Grammar.Statement
import LiquidTemplate.Tree.Dump

/-!
# Sessions

In a session each line is an expression, whose tree is shown, or a command.

* `Session`: the environment and whether tokens are shown.
* `Command`: the commands.
* `Session.answer`: the answer to a line, and the session after it.
* `Session.transcript`: the answers to all lines of an input.
-/

namespace LiquidTemplate.CommandLine

/-- **Session.** -/
structure Session where
  env : Environment
  style : Style
  showTokens : Bool

/-- **Command.** -/
inductive Command where
  | quit
  | toggleTokens
  | help
  | unknown (line : String)
deriving DecidableEq

/-- The command of a line, if it is one: commands begin with a point. -/
def Command.ofLine? (line : String) : Option Command :=
  match line with
  | ".quit" | ".exit" => some .quit
  | ".tokens" => some .toggleTokens
  | ".help" => some .help
  | _ => if line.startsWith "." then some (.unknown line) else none

/-- The explanation of the commands. -/
def commandHelp : String :=
  "commands:\n" ++
    "  .help      show commands\n" ++
    "  .tokens    toggle token dump\n" ++
    "  .quit      quit repl\n" ++
    "  .exit      quit repl\n"

namespace Session

/-- What a session begins with. -/
def greeting : String :=
  "lj-parse REPL (expressions)\n" ++
    "history: up/down arrows, commands: .help, .tokens, .quit\n"

/-- What a session ends with at the end of its input. -/
def farewell : String :=
  "bye\n"

/-- What errors name as the template. -/
def sourceName : String :=
  "<repl>"

/-- An error in a line. -/
def failure (s : Session) (line : String) (e : SyntaxError) : String :=
  s.style.diagnostic ⟨sourceName, line⟩ e

/-- The tree of a line, or the error in it. -/
def tree (s : Session) (line : String) : String :=
  match s.env.parseLine line sourceName with
  | .ok e => "=> " ++ e.outline.pretty "" ++ "\n"
  | .error e => s.failure line e

/-- **Answer to an expression**: its tokens, if they are shown, and its tree. -/
def expression (s : Session) (line : String) : String :=
  if s.showTokens then
    match Token.ofExpression line 1 0 with
    | .ok tokens => String.join (tokens.map s.style.token) ++ s.tree line
    | .error e => s.failure line e
  else s.tree line

/-- The answer to a command, and the session after it; `none` after the last one. -/
def command (s : Session) : Command → String × Option Session
  | .quit => ("", none)
  | .toggleTokens =>
    ("token dump " ++ (if s.showTokens then "off" else "on") ++ "\n",
      some { s with showTokens := !s.showTokens })
  | .help => (commandHelp, some s)
  | .unknown line => ("unknown command: " ++ line ++ "\n", some s)

/-- **Answer to a line**, and the session after it. Blanks around a line do not count. -/
def answer (s : Session) (line : String) : String × Option Session :=
  let line := Text.trimString line
  if line.isEmpty then ("", some s)
  else
    match Command.ofLine? line with
    | some c => s.command c
    | none => (s.expression line, some s)

/-- The answers to lines, up to a command that ends the session or up to the farewell. -/
def answers (s : Session) : List String → String
  | [] => farewell
  | line :: lines =>
    match s.answer line with
    | (text, some s) => text ++ answers s lines
    | (text, none) => text

/-- **Transcript** of a session on a whole input. -/
def transcript (s : Session) (input : String) : String :=
  greeting ++ s.answers ((Text.lines input.toList).map String.ofList)

end Session

end LiquidTemplate.CommandLine
