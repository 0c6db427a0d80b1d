import LiquidTemplate.CommandLine.Arguments
import LiquidTemplate.CommandLine.Session
import LiquidTemplate.Extension.Case
import LiquidTemplate.Extension.Do
import LiquidTemplate.Filter
import LiquidTemplate.Json.Settings

/-!
# Runs of the program

* `FileError`: why a file cannot be read.
* `Failure`: why a run ends before its job.
* `Outcome`: what a run prints, and its exit code.
* `Invocation.start`: what an invocation leads to: an outcome or a session.
* `run`: the outcome of arguments and a standard input.
-/

namespace LiquidTemplate.CommandLine

/-- **Why a file cannot be read.** -/
inductive FileError where
  | missing | denied | isDirectory | notDirectory | nameTooLong
  /-- The bytes of the file are no text. -/
  | notText
deriving DecidableEq

/-- An error with the number of the operating system, as failures show it. -/
def systemError (code : Nat) (kind message : String) : String :=
  "Os \x7b code: " ++ toString code ++ ", kind: " ++ kind ++ ", message: " ++ Text.quoted message ++
    " \x7d"

/-- An error as failures show it. -/
def FileError.dump : FileError → String
  | missing => systemError 2 "NotFound" "No such file or directory"
  | denied => systemError 13 "PermissionDenied" "Permission denied"
  | isDirectory => systemError 21 "IsADirectory" "Is a directory"
  | notDirectory => systemError 20 "NotADirectory" "Not a directory"
  | nameTooLong => systemError 36 "InvalidFilename" "File name too long"
  | notText =>
    "Error \x7b kind: InvalidData, message: " ++
      Text.quoted "stream did not contain valid UTF-8" ++ " \x7d"

/-- **Why a run ends before its job.** -/
inductive Failure where
  | usage (e : UsageError)
  | file (e : FileError)
  | config (path : String) (e : Json.Error)
deriving DecidableEq

namespace Failure

/-- A failure as it is shown. -/
def dump : Failure → String
  | usage e => custom e.message
  | file e => e.dump
  | config path e => custom ("invalid syntax config '" ++ path ++ "': " ++ e.describe)
where
  /-- An error with a message of the program. -/
  custom (message : String) : String :=
    "Custom \x7b kind: Other, error: " ++ Text.quoted message ++ " \x7d"

end Failure

/-- **Outcome of a run.** -/
structure Outcome where
  exitCode : UInt32 := 0
  stdout : String := ""
  stderr : String := ""
deriving DecidableEq

namespace Outcome

/-- A run that prints a text. -/
def printed (text : String) : Outcome :=
  { stdout := text }

/-- A run that ends with an error. -/
def failed (text : String) : Outcome :=
  { exitCode := 1, stderr := text }

end Outcome

/-- The outcome of a failure. -/
def Failure.outcome (f : Failure) : Outcome :=
  .failed ("Error: " ++ f.dump ++ "\n")

/-- The explanation of the arguments. -/
def usageText : String :=
  "Usage:\n" ++
    "  lj-parse                              (defaults to REPL)\n" ++
    "  lj-parse [--config <syntax.json>] [--liquid] <template|->\n" ++
    "  lj-parse [--config <syntax.json>] --tokens <template|->\n" ++
    "  lj-parse --repl [--liquid] [--tokens]\n" ++
    "  lj-parse repl\n" ++
    "  lj-parse --filters\n" ++
    "\n" ++
    "Set RUST_LOG=debug to trace parser decisions.\n"

/-- The names of all filters, each on its line. -/
def filterListing : String :=
  String.join (Filter.all.map fun f => f.name ++ "\n")

/-- **What can be read** by a run: files, and the standard input. -/
structure Inputs where
  file : String → Except FileError String
  stdin : String

namespace Inputs

/-- The text at a path, or the standard input. -/
def template (i : Inputs) (path : String) : Except Failure String :=
  if path = inputPath then .ok i.stdin else (i.file path).mapError .file

/-- The delimiters of a configuration. -/
def delimiters (i : Inputs) : (configPath? : Option String) → Except Failure Delimiters
  | none => .ok {}
  | some path => do
    let text ← (i.file path).mapError .file
    (Delimiters.ofJson text).mapError (.config path)

end Inputs

/-- The name of the template at a path. -/
def displayName (path : String) : String :=
  if path = inputPath then "<stdin>" else path

/-- **Tokens of a template** as a listing. -/
def listTokens (style : Style) (env : Environment) (name text : String) : Outcome :=
  match TokenStream.ofTemplate env.delimiters text name name with
  | .ok stream => .printed (String.join (stream.tokens.map style.token))
  | .error e => .failed (style.diagnostic ⟨name, text⟩ e)

/-- **Statements of a template** as a dump. -/
def dumpStatements (style : Style) (env : Environment) (name text : String) : Outcome :=
  match env.parseTemplate text name name with
  | .ok body => .printed (String.join (body.map fun s => s.outline.pretty "" ++ "\n"))
  | .error e => .failed (style.diagnostic ⟨name, text⟩ e)

/-- **Beginning of a run**: it is over, or a session is to be held. -/
inductive Start where
  | done (outcome : Outcome)
  | session (s : Session)

namespace Invocation

/-- The environment of an invocation. -/
def environment (inv : Invocation) (i : Inputs) : Except Failure Environment := do
  let delimiters ← i.delimiters inv.configPath?
  return ⟨delimiters, if inv.liquid then [.case, .doExpr] else []⟩

/-- **Start** of an invocation. The configuration is read before the template, and only for jobs
that need an environment. -/
def start (inv : Invocation) (style : Style) (i : Inputs) : Except Failure Start :=
  match inv.job with
  | .help => return .done (.printed usageText)
  | .filterNames => return .done (.printed filterListing)
  | .session tokens => return .session ⟨← inv.environment i, style, tokens⟩
  | .tokens path => do
    let env ← inv.environment i
    return .done (listTokens style env (displayName path) (← i.template path))
  | .statements path => do
    let env ← inv.environment i
    return .done (dumpStatements style env (displayName path) (← i.template path))

end Invocation

/-- The outcome of a start, with the lines of the standard input for a session. -/
def Start.finish (stdin : String) : Start → Outcome
  | done outcome => outcome
  | session s => .printed (s.transcript stdin)

/-- **Run** of the program on arguments. -/
def run (style : Style) (i : Inputs) (args : List String) : Outcome :=
  let start := do
    let inv ← (Invocation.ofArguments args).mapError Failure.usage
    inv.start style i
  match start with
  | .ok s => s.finish i.stdin
  | .error f => f.outcome

end LiquidTemplate.CommandLine
