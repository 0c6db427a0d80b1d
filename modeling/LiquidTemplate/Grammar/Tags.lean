import LiquidTemplate.Grammar.Loop

/-!
# Tags

The statements that every environment has, each from the name of its tag on.

* Conditions: `parseIf`, `parseUnless`, and the chain of their alternatives `parseBranch`.
* Assignments: `parseSet`, `parseWith`.
* Other templates: `parseExtends`, `parseInclude`, `parseSection`, `parseImport`, `parseFrom`.
* Definitions and calls: `parseBlock`, `parseMacro`, `parseCallBlock`, `parseFilterBlock`.
-/

namespace LiquidTemplate

open LiquidTemplate.Parser

/-- The end tag of a tag. -/
def endTag (tag : String) : TokenRule :=
  .name ("end" ++ tag)

namespace Grammar

/-! ### Conditions -/

/-- The alternatives of a condition, from the name of the tag behind its body on. A further
condition is nested as the only statement. -/
def parseAlternatives (g : Grammar) (tag : String) : Parser (List Stmt) := do
  let t ← advance
  if t.isName "elif" then
    let stmt ← g.branch (← current).line tag
    return [stmt]
  else if t.isName "else" then
    parseStatements g [endTag tag] true
  else
    return []

/-- **Condition** with its body and its alternatives. Only the first test of a chain can be
negated. -/
def parseBranch (g : Grammar) (line : Nat) (tag : String) (negate : Bool) : Parser Stmt := do
  let e ← parseTuple g (.expression false) [] false
  let test := if negate then .not e e.line else e
  let body ← parseStatements g [.name "elif", .name "else", endTag tag] false
  let otherwise ← parseAlternatives g tag
  return .ifThen test body otherwise line

/-- **Condition.** -/
def parseIf (g : Grammar) : Parser Stmt := do
  let line := (← expectName "if").line
  parseBranch g line "if" false

/-- **Negated condition.** -/
def parseUnless (g : Grammar) : Parser Stmt := do
  let line := (← expectName "unless").line
  parseBranch g line "unless" true

/-! ### Loop control and output -/

/-- **End of a loop.** -/
def parseBreak : Parser Stmt :=
  return .breakLoop (← advance).line

/-- **Next round of a loop.** -/
def parseContinue : Parser Stmt :=
  return .continueLoop (← advance).line

/-- One more of the expressions that are shown. -/
def parseNextPrinted (g : Grammar) (nodes : List Expr) : Parser (List Expr ⊕ List Expr) := do
  if ← atMark .blockEnd then
    return .inr nodes
  else
    parseSeparator (!nodes.isEmpty)
    let e ← parseExpression g true true
    return .inl (nodes ++ [e])

/-- Expressions with commas between them, up to the end of the tag. -/
def parsePrinted (g : Grammar) : Parser (List Expr) :=
  repeatFrom (parseNextPrinted g) []

/-- **Output** of expressions. -/
def parsePrint (g : Grammar) : Parser Stmt := do
  let line := (← advance).line
  let nodes ← parsePrinted g
  return .output nodes line

/-! ### Assignments and scopes -/

/-- **Assignment** of a value, or of the output of a body up to the end tag of `tag`. -/
def parseSet (g : Grammar) (tag : String) : Parser Stmt := do
  let line := (← advance).line
  let target ← parseTarget g true []
  if ← skipSymbol .assign then
    let value ← parseAnyTuple g
    return .assign target value line
  else
    let body ← parseStatements g [endTag tag] true
    return .assignBlock target body line

/-- One more name of a scope. -/
def parseNextBinding (g : Grammar) (bindings : List (Expr × Expr)) :
    Parser (List (Expr × Expr) ⊕ List (Expr × Expr)) := do
  if ← atMark .blockEnd then
    return .inr bindings
  else
    parseSeparator (!bindings.isEmpty)
    let target ← parseTarget g true []
    let _ ← expectSymbol .assign
    let value ← parseExpression g true true
    return .inl (bindings ++ [(target.setContext .param, value)])

/-- The names of a scope with their values. -/
def parseBindings (g : Grammar) : Parser (List (Expr × Expr)) :=
  repeatFrom (parseNextBinding g) []

/-- **Scope** with names of its own. -/
def parseWith (g : Grammar) : Parser Stmt := do
  let line := (← advance).line
  let bindings ← parseBindings g
  let body ← parseStatements g [endTag "with"] true
  return .withBlock (bindings.map Prod.fst) (bindings.map Prod.snd) body line

/-- **Scope with or without escaping.** -/
def parseAutoescape (g : Grammar) : Parser Stmt := do
  let line := (← advance).line
  let value ← parseExpression g true true
  let body ← parseStatements g [endTag "autoescape"] true
  return .scope [.optionBlock [⟨"autoescape", value, value.line⟩] body line] line

/-! ### Other templates -/

/-- Consumes `with context` or `without context`, if one of them stands here. -/
def parseContext? : Parser (Option Bool) := do
  let t ← current
  if (t.isName "with" || t.isName "without") && (← look).isName "context" then
    skip 2
    return some (t.isName "with")
  else
    return none

/-- **Parent template.** -/
def parseExtends (g : Grammar) : Parser Stmt := do
  let line := (← advance).line
  let template ← parseExpression g true true
  return .extendsTemplate template line

/-- Consumes `ignore missing`, and tells whether it stands here. -/
def parseIgnoreMissing : Parser Bool := do
  if (← current).isName "ignore" && (← look).isName "missing" then
    skip 2
    return true
  else
    return false

/-- A statement about another template and its context. -/
def parseInclusion (g : Grammar) (make : Expr → Bool → Bool → Nat → Stmt) : Parser Stmt := do
  let line := (← advance).line
  let template ← parseExpression g true true
  let ignoreMissing ← parseIgnoreMissing
  let withContext ← parseContext?
  return make template ignoreMissing (withContext.getD true) line

/-- **Inclusion.** -/
def parseInclude (g : Grammar) : Parser Stmt :=
  parseInclusion g .includeTemplate

/-- **Section.** -/
def parseSection (g : Grammar) : Parser Stmt :=
  parseInclusion g .sectionTemplate

/-- **Import** of a template under a name. -/
def parseImport (g : Grammar) : Parser Stmt := do
  let line := (← advance).line
  let template ← parseExpression g true true
  let _ ← expectName "as"
  let target ← parseTargetName
  let withContext ← parseContext?
  return .importTemplate template target.nameText (withContext.getD false) line

/-- The other name of an imported name, if there is one. -/
def parseAlias? : Parser (Option String) := do
  if ← skipName "as" then
    let target ← parseTargetName
    return some target.nameText
  else
    return none

/-- **Imported name.** Names with a leading underscore are private to their template. -/
def parseImportName : Parser ImportName := do
  let target ← parseTargetName
  if target.nameText.startsWith "_" then
    failAt .privateImport target.line
  else
    let other ← parseAlias?
    return ⟨target.nameText, other⟩

/-- What stands behind imported names: the context modifier or the end of their list, unless it is a
comma. -/
def parseImportEnd (names : List ImportName) :
    Parser (List ImportName ⊕ (List ImportName × Option Bool)) := do
  match ← parseContext? with
  | some withContext => return .inr (names, some withContext)
  | none => do
    if ← atSymbol .comma then return .inl names else return .inr (names, none)

/-- One more imported name, or the end of their list. -/
def parseNextImport (names : List ImportName) :
    Parser (List ImportName ⊕ (List ImportName × Option Bool)) := do
  parseSeparator (!names.isEmpty)
  let t ← current
  if t.name?.isNone then
    return .inr (names, none)
  else
    match ← parseContext? with
    | some withContext => return .inr (names, some withContext)
    | none => do
      let name ← parseImportName
      parseImportEnd (names ++ [name])

/-- The imported names, with the context modifier that ends their list. -/
def parseImportNames : Parser (List ImportName × Option Bool) :=
  repeatFrom parseNextImport []

/-- **Import** of names from a template. -/
def parseFrom (g : Grammar) : Parser Stmt := do
  let line := (← advance).line
  let template ← parseExpression g true true
  let _ ← expectName "import"
  let (names, withContext) ← parseImportNames
  match withContext with
  | some withContext => return .importNames template names withContext line
  | none => do
    let _ ← skipSymbol .comma
    return .importNames template names false line

/-! ### Definitions and calls -/

/-- **Parameters** of a macro or of a call block, and the defaults of the last of them. -/
structure Signature where
  params : List Expr := []
  defaults : List Expr := []

/-- One more parameter. Behind a parameter with a default every other needs one too. -/
def parseParameter (g : Grammar) (sig : Signature) : Parser Signature := do
  let param ← parseTargetName
  let params := sig.params ++ [param.setContext .param]
  if ← skipSymbol .assign then
    let value ← parseExpression g true true
    return ⟨params, sig.defaults ++ [value]⟩
  else if sig.defaults.isEmpty then
    return ⟨params, []⟩
  else
    fail .defaultBeforeRequired

/-- One more parameter, or the end of them. -/
def parseNextParameter (g : Grammar) (sig : Signature) : Parser (Signature ⊕ Signature) := do
  if ← atSymbol .rParen then
    return .inr sig
  else
    parseSeparator (!sig.params.isEmpty)
    let sig ← parseParameter g sig
    return .inl sig

/-- The parameters up to the closing parenthesis, which stays. -/
def parseParameters (g : Grammar) : Parser Signature :=
  repeatFrom (parseNextParameter g) {}

/-- **Signature** in parentheses. -/
def parseSignature (g : Grammar) : Parser Signature := do
  let _ ← expectSymbol .lParen
  let sig ← parseParameters g
  let _ ← expectSymbol .rParen
  return sig

/-- Fails where a name is followed by a hyphen. -/
def refuseHyphen : Parser Unit := do
  if ← atSymbol .sub then fail .hyphenatedBlockName else return ()

/-- **Block.** Its name can stand once more behind the end tag. -/
def parseBlock (g : Grammar) : Parser Stmt := do
  let line := (← advance).line
  let name := (← expectAnyName).nameText
  let isScoped ← skipName "scoped"
  refuseHyphen
  let body ← parseStatements g [endTag "block"] true
  let _ ← skipName name
  return .block name isScoped body line

/-- **Macro.** -/
def parseMacro (g : Grammar) : Parser Stmt := do
  let line := (← advance).line
  let target ← parseTargetName
  let sig ← parseSignature g
  let body ← parseStatements g [endTag "macro"] true
  return .macroBlock target.nameText sig.params sig.defaults body line

/-- Whether an expression is a call. -/
def isCall : Expr → Bool
  | .call .. => true
  | _ => false

/-- The signature of a call block, which can be left out. -/
def parseOptionalSignature (g : Grammar) : Parser Signature := do
  if ← atSymbol .lParen then parseSignature g else return {}

/-- **Call with a body.** -/
def parseCallBlock (g : Grammar) : Parser Stmt := do
  let line := (← advance).line
  let sig ← parseOptionalSignature g
  let call ← parseExpression g true true
  if isCall call then
    let body ← parseStatements g [endTag "call"] true
    return .callBlock call sig.params sig.defaults body line
  else
    failAt .expectedCall line

/-- **Filters on a body.** -/
def parseFilterBlock (g : Grammar) : Parser Stmt := do
  let line := (← advance).line
  let filter ← parseFilters g none true
  let body ← parseStatements g [endTag "filter"] true
  return .filterBlock filter body line

/-! ### All tags -/

/-- **Statement of a tag** that every environment has. -/
def builtin? (g : Grammar) (tag : String) : Option (Parser Stmt) :=
  match tag with
  | "for" => parseFor g
  | "if" => parseIf g
  | "unless" => parseUnless g
  | "break" => parseBreak
  | "continue" => parseContinue
  | "block" => parseBlock g
  | "extends" => parseExtends g
  | "print" => parsePrint g
  | "macro" => parseMacro g
  | "include" => parseInclude g
  | "section" => parseSection g
  | "from" => parseFrom g
  | "import" => parseImport g
  | "set" | "assign" | "capture" => parseSet g tag
  | "with" => parseWith g
  | "autoescape" => parseAutoescape g
  | "call" => parseCallBlock g
  | "filter" => parseFilterBlock g
  | _ => none

end Grammar

end LiquidTemplate
