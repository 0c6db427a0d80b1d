import LiquidTemplate.Grammar.Basic

/-!
# Arguments of calls, filters and tests

* `Grammar.parseArguments`: arguments in parentheses, or after a colon up to the next pipe or the
  end of the tag. Without parentheses no filter can stand on an argument.
* `Grammar.parseFilters`: the filters behind an expression.
* `Grammar.parseTest`: a test, with arguments in parentheses or with one argument without them.
-/

namespace LiquidTemplate

open LiquidTemplate.Parser

/-- **Form of an argument list.** -/
inductive ArgumentForm where
  | parentheses | colon
deriving DecidableEq

namespace ArgumentForm

/-- The form that a token opens. -/
def ofToken? (t : Token) : Option ArgumentForm :=
  if t.isSymbol .lParen then some parentheses
  else if t.isSymbol .colon then some colon
  else none

/-- Whether a token ends an argument list of this form. -/
def isClosedBy (form : ArgumentForm) (t : Token) : Bool :=
  match form with
  | parentheses => t.isSymbol .rParen
  | colon => t.isSymbol .pipe || t.isMark .variableEnd || t.isMark .blockEnd

/-- Whether filters can stand on an argument. -/
def filters : ArgumentForm → Bool
  | parentheses => true
  | colon => false

end ArgumentForm

namespace Grammar

/-- Goes on if the arguments are in order, and fails at the line of the argument list else. -/
def require (ok : Bool) (line : Nat) : Parser Unit :=
  if ok then return () else failAt .invalidArguments line

/-- A positional argument or one with a name, after the arguments `args`. -/
def parsePlainArgument (g : Grammar) (form : ArgumentForm) (line : Nat) (args : Arguments Expr) :
    Parser (Arguments Expr) := do
  require (args.spread.isNone && args.spreadKeywords.isNone) line
  let t ← current
  let after ← look
  match t.name?, after.isSymbol .assign with
  | some key, true => do
    skip 2
    let value ← g.expression true form.filters
    return { args with keywords := args.keywords ++ [⟨key, value, value.line⟩] }
  | _, _ => do
    require args.keywords.isEmpty line
    let value ← g.expression true form.filters
    return { args with positional := args.positional ++ [value] }

/-- **One argument** after the arguments `args`. -/
def parseArgument (g : Grammar) (form : ArgumentForm) (line : Nat) (args : Arguments Expr) :
    Parser (Arguments Expr) := do
  if ← atSymbol .mul then
    require (args.spread.isNone && args.spreadKeywords.isNone) line
    step
    let value ← g.expression true true
    return { args with spread := some value }
  else if ← atSymbol .pow then
    require args.spreadKeywords.isNone line
    step
    let value ← g.expression true true
    return { args with spreadKeywords := some value }
  else
    parsePlainArgument g form line args

/-- The comma before an argument that is not the first one. -/
def parseSeparator (needed : Bool) : Parser Unit := do
  if needed then
    let _ ← expectSymbol .comma

/-- One more argument behind a comma, which the first one does not need, or the end of the list. -/
def parseNextArgument (g : Grammar) (form : ArgumentForm) (line : Nat) :
    Arguments Expr × Bool → Parser ((Arguments Expr × Bool) ⊕ Arguments Expr) :=
  fun (args, later) => do
    if form.isClosedBy (← current) then
      return .inr args
    else
      parseSeparator later
      if form.isClosedBy (← current) then
        return .inr args
      else
        let args ← parseArgument g form line args
        return .inl (args, true)

/-- The arguments up to the end of the list, which stays. -/
def parseArgumentList (g : Grammar) (form : ArgumentForm) (line : Nat) :
    Parser (Arguments Expr) :=
  repeatFrom (parseNextArgument g form line) ({}, false)

/-- **Argument list**, from its opening token on. A closing parenthesis belongs to it, any other end
does not. -/
def parseArguments (g : Grammar) : Parser (Arguments Expr) := do
  let t ← current
  match ArgumentForm.ofToken? t with
  | none => failAt (.expectedArguments t.describe) t.line
  | some form => do
    step
    let args ← parseArgumentList g form t.line
    if form = .parentheses then
      step
    return args

/-- The arguments of a filter, which can be left out. -/
def parseOptionalArguments (g : Grammar) : Parser (Arguments Expr) := do
  if (ArgumentForm.ofToken? (← current)).isSome then parseArguments g else return {}

/-- One more part of a name with dots. -/
def parseNextDot (name : String) : Parser (String ⊕ String) := do
  if ← skipSymbol .dot then
    let part ← expectAnyName
    return .inl (name ++ "." ++ part.nameText)
  else
    return .inr name

/-- The rest of a name with dots, after its first part. -/
def parseDottedName (first : String) : Parser String :=
  repeatFrom parseNextDot first

/-- A filter on `node`, from its name on. -/
def parseFilterName (g : Grammar) (node : Option Expr) : Parser Expr := do
  let t ← expectAnyName
  let name ← parseDottedName t.nameText
  let args ← parseOptionalArguments g
  return .filter node name args t.line

/-- One more filter, behind a pipe unless it is `bare`, or the end of the filters. -/
def parseNextFilter (g : Grammar) : Option Expr × Bool → Parser ((Option Expr × Bool) ⊕ Expr) :=
  fun (node, bare) => do
    if bare then
      let e ← parseFilterName g node
      return .inl (some e, false)
    else if ← skipSymbol .pipe then
      let e ← parseFilterName g node
      return .inl (some e, false)
    else
      match node with
      | some e => return .inr e
      | none => fail .expectedFilter

/-- **Filters** on `node`. With `bare` the first of them has no pipe before it. -/
def parseFilters (g : Grammar) (node : Option Expr) (bare : Bool) : Parser Expr :=
  repeatFrom (parseNextFilter g) (node, bare)

/-- **Call** of `node`. -/
def parseCall (g : Grammar) (node : Expr) : Parser Expr := do
  let line := (← current).line
  let args ← parseArguments g
  return .call node args line

end Grammar

end LiquidTemplate
