import LiquidTemplate.Loop
import LiquidTemplate.Token.Stream
import LiquidTemplate.Tree.Stmt

/-!
# Parsers

A parser is a step on a token stream that gives a result or a syntax error. The state it has
reached is kept in both cases.

* `ParserState`: the stream, the counter of made-up names, and what is still open.
* `Parser`: steps on such a state; `current`, `advance`, `skipIf`, `expect` read tokens.
* `Parser.failAt`: the error at the current place.
* `Parser.inTag`, `Parser.awaiting`: run a parser inside an open tag, or before end tags.
* `Parser.repeatFrom`: repeats a step as long as it consumes tokens.
-/

namespace LiquidTemplate

/-- **State of a parser.** The innermost open tag and the innermost end tags come first. -/
structure ParserState where
  stream : TokenStream
  /-- How many names were made up. -/
  madeUp : Nat := 0
  openTags : List String := []
  expectedEnds : List (List TokenRule) := []

/-- **Weight of a token** as a bound for the work on it. The bounds of a range are read again, each
character of them costs at most three. -/
def Token.weight (t : Token) : Nat :=
  match t.kind with
  | .range start stop => 3 * (start.utf8ByteSize + stop.utf8ByteSize) + 12
  | _ => 1

namespace ParserState

/-- The number of tokens that are left. -/
def remaining (s : ParserState) : Nat :=
  s.stream.tokens.length

/-- The weight of the tokens that are left. -/
def weight (s : ParserState) : Nat :=
  s.stream.tokens.foldr (fun t n => t.weight + n) 0

/-- **Error at the current place.** The span of the current token belongs to it if that token stands
on the line of the error. -/
def error (s : ParserState) (cause : SyntaxError.Cause) (line : Nat) : SyntaxError :=
  let t := s.stream.current
  let e := if t.line = line then SyntaxError.atSpan cause line t.span else .atLine cause line
  e.inTemplate s.stream.name s.stream.filename

/-- The end tags that are looked for at this place, as messages name them. -/
def lookingFor (s : ParserState) : List String :=
  (s.expectedEnds.headD []).map TokenRule.describe

/-- Whether an open statement, not only the innermost one, expects this tag. -/
def isExpected (s : ParserState) (tag : String) : Bool :=
  s.expectedEnds.any fun rules => rules.any fun rule => rule.describe == tag

/-- The cause of an error about a tag that is not known. -/
def unknownTag (s : ParserState) (tag : String) : SyntaxError.Cause :=
  .unknownTag tag (s.isExpected tag) s.lookingFor s.openTags.head?

/-- The cause of an error about a template that ends too early, before one of the end tags. -/
def unclosed (s : ParserState) (ends : Option (List TokenRule)) : SyntaxError.Cause :=
  .unclosedStatement ((ends.map fun rules => rules.map TokenRule.describe).getD s.lookingFor)
    s.openTags.head?

end ParserState

/-- **Parser.** -/
abbrev Parser := EStateM SyntaxError ParserState

namespace Parser

variable {α β : Type}

/-! ### Reading tokens -/

/-- The current token. -/
def current : Parser Token :=
  return (← get).stream.current

/-- The token after the current one. -/
def look : Parser Token :=
  return (← get).stream.look

/-- A step of the stream. -/
def step : Parser Unit :=
  modify fun s => { s with stream := s.stream.next }

/-- **Consume** the current token. -/
def advance : Parser Token := do
  let t ← current
  step
  return t

/-- Consume `n` tokens. -/
def skip (n : Nat) : Parser Unit :=
  modify fun s => { s with stream := s.stream.skip n }

/-- Consume the current token if it fits the rule, and tell whether it did. -/
def skipIf (rule : TokenRule) : Parser Bool := do
  let t ← current
  if t.fits rule then
    step
    return true
  else
    return false

/-- Consume the current token if it is this name. -/
def skipName (text : String) : Parser Bool :=
  skipIf (.name text)

/-- Consume the current token if it is this symbol. -/
def skipSymbol (s : Symbol) : Parser Bool :=
  skipIf (.type (.symbol s))

/-- **Demand** a token that fits the rule, and consume it. -/
def expect (rule : TokenRule) : Parser Token := fun s =>
  match s.stream.expect rule with
  | .ok (t, stream) => .ok t { s with stream := stream }
  | .error e => .error e s

/-- Demand a name with any text. -/
def expectAnyName : Parser Token :=
  expect (.type .name)

/-- Demand this name. -/
def expectName (text : String) : Parser Token :=
  expect (.name text)

/-- Demand this symbol. -/
def expectSymbol (s : Symbol) : Parser Token :=
  expect (.type (.symbol s))

/-- Demand this mark. -/
def expectMark (m : Mark) : Parser Token :=
  expect (.type (.mark m))

/-- Whether the current token is this symbol. -/
def atSymbol (s : Symbol) : Parser Bool :=
  return (← current).isSymbol s

/-- Whether the current token is this mark. -/
def atMark (m : Mark) : Parser Bool :=
  return (← current).isMark m

/-! ### Failing -/

/-- **Failure** at a line. -/
def failAt (cause : SyntaxError.Cause) (line : Nat) : Parser α := fun s =>
  .error (s.error cause line) s

/-- Failure at the line of the current token. -/
def fail (cause : SyntaxError.Cause) : Parser α := do
  failAt cause (← current).line

/-- Failure at a tag that is not known. -/
def failUnknownTag (tag : String) (line : Nat) : Parser α := fun s =>
  .error (s.error (s.unknownTag tag) line) s

/-- Failure at a template that ends too early. -/
def failUnclosed (ends : Option (List TokenRule)) (line : Nat) : Parser α := fun s =>
  .error (s.error (s.unclosed ends) line) s

/-! ### Names and brackets of the state -/

/-- **Fresh name.** No template text spells it, and it is never made up again. -/
def freshName (line : Nat) : Parser Expr := fun s =>
  .ok (.internalName ("$fi" ++ toString (s.madeUp + 1)) line) { s with madeUp := s.madeUp + 1 }

/-- Changes the state that a parser has reached, after success and after failure. -/
def afterwards (p : Parser α) (f : ParserState → ParserState) : Parser α := fun s =>
  match p s with
  | .ok a s => .ok a (f s)
  | .error e s => .error e (f s)

/-- **Inside an open tag.** -/
def inTag (tag : String) (p : Parser α) : Parser α := fun s =>
  afterwards p (fun t => { t with openTags := t.openTags.tail })
    { s with openTags := tag :: s.openTags }

/-- **Before end tags.** -/
def awaiting (ends : List TokenRule) (p : Parser α) : Parser α := fun s =>
  afterwards p (fun t => { t with expectedEnds := t.expectedEnds.tail })
    { s with expectedEnds := ends :: s.expectedEnds }

/-! ### Repetition -/

/-- **Repetition.** A step gives either the value for the next step or the result. Every step but
the last has to consume tokens; one that does not is an error. -/
def repeatFrom (step : α → Parser (α ⊕ β)) : α → Parser β :=
  Loop.iterate ParserState.remaining (fail .nestedTooDeep) step

/-- One more operand of a chain. -/
def parseNextOperator (operand : Parser Expr)
    (operator? : Token → Option (Expr → Expr → Nat → Expr)) :
    Expr × Nat → Parser ((Expr × Nat) ⊕ Expr) :=
  fun (left, line) => do
    let t ← current
    match operator? t with
    | none => return .inr left
    | some build => do
      step
      let right ← operand
      return .inl (build left right line, (← current).line)

/-- **Chain** of operands, grouped to the left. An operator stands on the line of the token before
which its left operand begins, or, after the first, on that of the operator itself. -/
def leftChain (operand : Parser Expr) (operator? : Token → Option (Expr → Expr → Nat → Expr)) :
    Parser Expr := do
  let line := (← current).line
  let first ← operand
  repeatFrom (parseNextOperator operand operator?) (first, line)

/-! ### Isolation -/

/-- **Isolated run** on a stream of its own: the result and the token at which it stops. -/
def runOn (stream : TokenStream) (p : Parser α) : Except SyntaxError (α × Token) :=
  match p { stream } with
  | .ok a s => .ok (a, s.stream.current)
  | .error e _ => .error e

/-- Whether a parser accepts the tokens up to their end. -/
def accepts (p : Parser α) (stream : TokenStream) : Bool :=
  match runOn stream p with
  | .ok (_, t) => t.isEnd
  | .error _ => false

end Parser

end LiquidTemplate
