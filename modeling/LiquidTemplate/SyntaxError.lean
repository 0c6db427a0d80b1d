import LiquidTemplate.Source

/-!
# Syntax errors

* `SyntaxError.Kind`: the classes of errors, with a code and a label each.
* `SyntaxError.Cause`: what is wrong, with its class and its message.
* `SyntaxError`: a cause at a line, possibly with a span and with the names of the template.
* `SyntaxError.inTemplate`: adds the names that are still missing.
* `SyntaxError.describe`: the error in one line.
-/

namespace LiquidTemplate

/-- **Class of a syntax error.** -/
inductive SyntaxError.Kind where
  /-- The text does not follow the grammar. -/
  | malformed
  /-- The text follows the grammar but asks for something that is not allowed. -/
  | rejected
  /-- The text ends while something is still open. -/
  | unexpectedEnd
  /-- A tag that neither the grammar nor an extension knows. -/
  | unknownTag
deriving DecidableEq

namespace SyntaxError.Kind

/-- The code that diagnostics show. -/
def code : Kind → String
  | malformed => "E_SYNTAX"
  | rejected => "E_ASSERT"
  | unexpectedEnd => "E_EOF"
  | unknownTag => "E_UNKNOWN_TAG"

/-- The label at the beginning of a description. -/
def label : Kind → String
  | rejected => "assertion error"
  | _ => "syntax error"

end SyntaxError.Kind

/-- **What is wrong.** The first group is found in the characters of a template, the second one in
its tokens. -/
inductive SyntaxError.Cause where
  | missingCommentEnd
  | missingRawEnd
  | missingTagEnd
  | unclosedBracket (bracket : Char)
  | strayBracket (bracket : Char)
  | mismatchedBracket (bracket expected : Char)
  | invalidFloat (text : String)
  | integerOutOfRange (text : String)
  | unterminatedString
  | unexpectedChar (char : Char)
  | expectedToken (rule got : String)
  | expectedBeforeEnd (rule : String)
  | missingTagName
  /-- A tag that is not known here; `lookingFor` holds the end tags that were possible and
  `misplaced` says that an open statement expects it. -/
  | unknownTag (tag : String) (misplaced : Bool) (lookingFor : List String)
      (innermost : Option String)
  | unclosedStatement (lookingFor : List String) (innermost : Option String)
  | outsideTag (got : String)
  | notAssignable (kind : String)
  | unexpectedToken (got : String)
  | expectedExpression (got : String)
  | emptyRangeBound
  | invalidRangeBound (text : String)
  | trailingInRange (got : String)
  | expectedNameOrNumber
  | expectedArguments (got : String)
  | invalidArguments
  | expectedFilter
  | chainedTests
  | hyphenatedBlockName
  | privateImport
  | defaultBeforeRequired
  | expectedCall
  | nestedTooDeep
  /-- A failure that an extension words itself. -/
  | other (kind : Kind) (message : String)
deriving DecidableEq

namespace SyntaxError.Cause

/-- The class of a cause. -/
def kind : Cause → Kind
  | missingTagEnd | expectedBeforeEnd _ | unclosedStatement .. => .unexpectedEnd
  | unknownTag .. => .unknownTag
  | privateImport => .rejected
  | other k _ => k
  | _ => .malformed

/-- Rules of end tags as a message lists them. -/
def alternatives (rules : List String) : String :=
  String.intercalate " or " (rules.map fun rule => "'" ++ rule ++ "'")

/-- The sentences about what was looked for and what has to be closed. -/
def context (misplaced : Bool) (lookingFor : List String) (innermost : Option String) :
    List String :=
  let looking :=
    if lookingFor.isEmpty then []
    else if misplaced then
      ["You probably made a nesting mistake. The parser is expecting this tag, but currently looking for "
        ++ alternatives lookingFor ++ "."]
    else
      ["The parser was looking for the following tags: " ++ alternatives lookingFor ++ "."]
  let open_ :=
    match innermost with
    | some tag => ["The innermost block that needs to be closed is '" ++ tag ++ "'."]
    | none => []
  looking ++ open_

/-- **Message** of a cause. -/
def message : Cause → String
  | missingCommentEnd => "missing end of comment tag"
  | missingRawEnd => "missing end of raw directive"
  | missingTagEnd => "unexpected end of template, missing end of tag"
  | unclosedBracket bracket => "unclosed '" ++ bracket.toString ++ "'"
  | strayBracket bracket => "unexpected '" ++ bracket.toString ++ "'"
  | mismatchedBracket bracket expected =>
    "unexpected '" ++ bracket.toString ++ "', expected '" ++ expected.toString ++ "'"
  | invalidFloat text => "invalid float literal '" ++ text ++ "'"
  | integerOutOfRange text => "integer literal '" ++ text ++ "' out of range"
  | unterminatedString => "unterminated string literal"
  | unexpectedChar char => "unexpected char '" ++ char.toString ++ "'"
  | expectedToken rule got => "expected token '" ++ rule ++ "', got '" ++ got ++ "'"
  | expectedBeforeEnd rule => "unexpected end of template, expected '" ++ rule ++ "'"
  | missingTagName => "tag name expected"
  | unknownTag tag misplaced lookingFor innermost =>
    String.intercalate " "
      (("Encountered unknown tag '" ++ tag ++ "'.") :: context misplaced lookingFor innermost)
  | unclosedStatement lookingFor innermost =>
    String.intercalate " " ("Unexpected end of template." :: context false lookingFor innermost)
  | outsideTag got => "unexpected '" ++ got ++ "' outside of a tag"
  | notAssignable kind => "can't assign to '" ++ kind ++ "'"
  | unexpectedToken got => "unexpected '" ++ got ++ "'"
  | expectedExpression got => "Expected an expression, got '" ++ got ++ "'"
  | emptyRangeBound => "empty range bound"
  | invalidRangeBound text => "invalid range bound '" ++ text ++ "'"
  | trailingInRange got => "invalid range literal near '" ++ got ++ "'"
  | expectedNameOrNumber => "expected name or number"
  | expectedArguments got => "expected token '(' or ':', got '" ++ got ++ "'"
  | invalidArguments => "invalid syntax for function call expression"
  | expectedFilter => "expected filter"
  | chainedTests => "You cannot chain multiple tests with is"
  | hyphenatedBlockName =>
    "Block names have to be valid identifiers and may not contain hyphens, use an underscore instead."
  | privateImport => "names starting with an underline can not be imported"
  | defaultBeforeRequired => "non-default argument follows default argument"
  | expectedCall => "expected call"
  | nestedTooDeep => "nested too deep"
  | other _ text => text

end SyntaxError.Cause

/-- **Syntax error.** -/
structure SyntaxError where
  cause : SyntaxError.Cause
  line : Nat
  name : Option String
  filename : Option String
  span : Option Span
deriving DecidableEq

namespace SyntaxError

/-- A cause at a line, without names. -/
def atLine (cause : Cause) (line : Nat) : SyntaxError :=
  ⟨cause, line, none, none, none⟩

/-- A cause at a line and a span, without names. -/
def atSpan (cause : Cause) (line : Nat) (span : Span) : SyntaxError :=
  ⟨cause, line, none, none, some span⟩

/-- The class of the error. -/
def kind (e : SyntaxError) : Kind :=
  e.cause.kind

/-- The message of the error. -/
def message (e : SyntaxError) : String :=
  e.cause.message

/-- The error with the name and the file name of its template, where it has none yet. -/
def inTemplate (e : SyntaxError) (name filename : Option String) : SyntaxError :=
  { e with name := e.name <|> name, filename := e.filename <|> filename }

/-- **Description** of an error in one line: what and where. -/
def describe (e : SyntaxError) : String :=
  let line := "line " ++ toString e.line ++ ")"
  let place :=
    match e.filename <|> e.name with
    | some location => " (" ++ location ++ ", " ++ line
    | none => " (" ++ line
  e.kind.label ++ ": " ++ e.message ++ place

end SyntaxError

end LiquidTemplate
