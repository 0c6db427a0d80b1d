/-!
# Arguments of the command line

* `Options`: the flags and the path that the arguments set.
* `Options.read`: reads the arguments from left to right.
* `Job`: what is to be done; `Invocation`: a job and its environment.
* `Invocation.ofArguments`: what arguments ask for, or what is wrong with them.
-/

namespace LiquidTemplate.CommandLine

/-- **What is wrong with the arguments.** -/
inductive UsageError where
  | missingConfigPath
  | severalPaths
  | unknownFlag (flag : String)
  | pathInSession
  | filtersWithOthers
  | missingPath
deriving DecidableEq

/-- The message of an error. -/
def UsageError.message : UsageError → String
  | missingConfigPath => "missing value for --config"
  | severalPaths => "multiple template paths provided"
  | unknownFlag flag => "unknown flag '" ++ flag ++ "'"
  | pathInSession => "repl mode does not accept a template path"
  | filtersWithOthers => "--filters cannot be combined with other modes"
  | missingPath => "missing template path"

/-- The path that stands for the standard input. -/
def inputPath : String :=
  "-"

/-- **Options** that arguments set. -/
structure Options where
  path? : Option String := none
  configPath? : Option String := none
  tokens : Bool := false
  liquid : Bool := false
  session : Bool := false
  filters : Bool := false
  help : Bool := false
deriving DecidableEq

namespace Options

/-- The options with a path for the template; there can be only one. -/
def withPath (o : Options) (path : String) : Except UsageError Options :=
  match o.path? with
  | none => .ok { o with path? := some path }
  | some _ => .error .severalPaths

/-- The options with one more argument, other than that for a configuration. -/
def withArgument (o : Options) (arg : String) : Except UsageError Options :=
  match arg with
  | "-h" | "--help" => .ok { o with help := true }
  | "--tokens" => .ok { o with tokens := true }
  | "--liquid" => .ok { o with liquid := true }
  | "--repl" => .ok { o with session := true }
  | "--filters" => .ok { o with filters := true }
  | _ =>
    if arg = inputPath ∨ ¬arg.startsWith "-" then o.withPath arg
    else .error (.unknownFlag arg)

/-- **Options of arguments**, read from left to right. -/
def read (o : Options) : List String → Except UsageError Options
  | [] => .ok o
  | "--config" :: path :: args => read { o with configPath? := some path } args
  | "--config" :: [] => .error .missingConfigPath
  | arg :: args =>
    match o.withArgument arg with
    | .ok o => read o args
    | .error e => .error e

end Options

/-- **Job.** -/
inductive Job where
  | help
  | filterNames
  /-- Expressions line by line, with or without their tokens. -/
  | session (tokens : Bool)
  /-- The tokens of a template. -/
  | tokens (path : String)
  /-- The statements of a template. -/
  | statements (path : String)
deriving DecidableEq

/-- The job that options ask for. Help comes first, and the list of filters goes with nothing that
takes a template or a session. -/
def Options.job (o : Options) : Except UsageError Job :=
  if o.session ∧ o.path?.isSome then .error .pathInSession
  else if o.filters ∧ (o.session ∨ o.path?.isSome ∨ o.tokens) then .error .filtersWithOthers
  else if o.help then .ok .help
  else if o.filters then .ok .filterNames
  else if o.session then .ok (.session o.tokens)
  else
    match o.path? with
    | none => .error .missingPath
    | some path => .ok (if o.tokens then .tokens path else .statements path)

/-- **Invocation**: a job, whether it knows the tags of the liquid dialect, and the path of a
configuration. -/
structure Invocation where
  job : Job
  liquid : Bool
  configPath? : Option String
deriving DecidableEq

/-- **Invocation of arguments.** Without arguments, or with `repl` as the first one, it is a
session. -/
def Invocation.ofArguments (args : List String) : Except UsageError Invocation := do
  let options ←
    match args with
    | [] => .ok { session := true }
    | "repl" :: args => Options.read { session := true } args
    | args => Options.read {} args
  return ⟨← options.job, options.liquid, options.configPath?⟩

end LiquidTemplate.CommandLine
