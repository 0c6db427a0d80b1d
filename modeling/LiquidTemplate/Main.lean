import LiquidTemplate.CommandLine.Run

/-!
# The program

The outer layer of the program: it reads files and the standard input, and prints outcomes.

* `readText`: a file as a text.
* `converse`: a session, line by line.
* `program`, `main`: the program.
-/

namespace LiquidTemplate.CommandLine

/-- Why a file could not be read. The number 21 is that of a directory read as a file. -/
def FileError.ofSystem : IO.Error → FileError
  | .permissionDenied .. => .denied
  | .inappropriateType _ code _ => if code = 21 then .isDirectory else .notDirectory
  | .invalidArgument .. => .nameTooLong
  | _ => .missing

/-- The bytes of an input as a text. -/
def textOf (bytes : ByteArray) : Except FileError String :=
  match String.fromUTF8? bytes with
  | some text => .ok text
  | none => .error .notText

/-- **File** as a text. -/
def readText (path : String) : IO (Except FileError String) := do
  try
    return textOf (← IO.FS.readBinFile path)
  catch e =>
    return .error (FileError.ofSystem e)

/-- The paths that an invocation reads, the standard input apart. -/
def Invocation.paths (inv : Invocation) : List String :=
  let template :=
    match inv.job with
    | .tokens path | .statements path => [path]
    | _ => []
  inv.configPath?.toList ++ template.filter (· ≠ inputPath)

/-- Whether an invocation reads a template from the standard input. -/
def Invocation.readsInput (inv : Invocation) : Bool :=
  inv.job = .tokens inputPath || inv.job = .statements inputPath

/-- Prints an outcome and gives its exit code. -/
def Outcome.print (o : Outcome) : IO UInt32 := do
  IO.print o.stdout
  IO.eprint o.stderr
  return o.exitCode

/-- Whether the output goes to something that shows colours. -/
def detectStyle : IO Style := do
  if (← IO.getEnv "NO_COLOR").isSome then return ⟨false⟩
  if (← IO.getEnv "FORCE_COLOR").isSome then return ⟨true⟩
  return ⟨← (← IO.getStdout).isTty⟩

/-- **Session**, line by line up to its end. -/
partial def converse (stdin : IO.FS.Stream) (s : Session) : IO Unit := do
  let line ← stdin.getLine
  if line.isEmpty then IO.print Session.farewell
  else
    let (text, next) := s.answer line
    IO.print text
    match next with
    | some s => converse stdin s
    | none => return

/-- **Runs an invocation** with everything that it reads. -/
def Invocation.perform (inv : Invocation) (style : Style) : IO UInt32 := do
  let stdin ← IO.getStdin
  let files ← inv.paths.mapM fun path => return (path, ← readText path)
  let text ← if inv.readsInput then textOf <$> stdin.readBinToEnd else pure (.ok "")
  let lookup := fun path => (files.lookup path).getD (.error .missing)
  match inv.start style ⟨lookup, text.toOption.getD ""⟩, text with
  | .error f, _ => f.outcome.print
  | .ok _, .error e => (Failure.file e).outcome.print
  | .ok (.done o), _ => o.print
  | .ok (.session s), _ =>
    IO.print Session.greeting
    converse stdin s
    return 0

/-- **Program** on its arguments. -/
def program (args : List String) : IO UInt32 := do
  let style ← detectStyle
  match Invocation.ofArguments args with
  | .error e => (Failure.usage e).outcome.print
  | .ok inv => inv.perform style

end LiquidTemplate.CommandLine

/-- The program. -/
def main (args : List String) : IO UInt32 :=
  LiquidTemplate.CommandLine.program args
