import LiquidTemplate.Grammar.Primary

/-!
# Operators

From the loosest to the tightest: conditional, `or`, `and`, `not`, comparisons, `+` and `-`, `~`,
`*` and `/` and `//` and `%`, `**`, signs. All but comparisons and `~` group to the left, and these
two are chains. Members, items, calls and filters bind tighter than any operator, and a filter
behind an operand with a sign applies to all of it.

* `Grammar.parseExpression`: an expression.
* `Grammar.parseTuple`: expressions with commas between them.
* `Grammar.parseTarget`: what can be assigned to.
-/

namespace LiquidTemplate

open LiquidTemplate.Parser

namespace BinaryOp

/-- The additive operator that a token is. -/
def additive? (t : Token) : Option BinaryOp :=
  match t.kind with
  | .symbol .add => some add
  | .symbol .sub => some sub
  | _ => none

/-- The multiplicative operator that a token is. -/
def multiplicative? (t : Token) : Option BinaryOp :=
  match t.kind with
  | .symbol .mul => some mul
  | .symbol .div => some div
  | .symbol .floorDiv => some floorDiv
  | .symbol .mod => some mod
  | _ => none

/-- The power operator, if a token is that. -/
def power? (t : Token) : Option BinaryOp :=
  if t.isSymbol .pow then some pow else none

end BinaryOp

/-- The comparison of one symbol that a token is. -/
def Comparison.ofToken? (t : Token) : Option Comparison :=
  match t.kind with
  | .symbol .eq => some .eq
  | .symbol .ne => some .ne
  | .symbol .lt => some .lt
  | .symbol .ltEq => some .ltEq
  | .symbol .gt => some .gt
  | .symbol .gtEq => some .gtEq
  | _ => none

namespace Grammar

/-! ### Signs and filters -/

/-- Whether one argument without parentheses can begin at a token behind the name of a test. -/
def beginsTestArgument (t : Token) : Bool :=
  match t.kind with
  | .name text => !(["else", "or", "and"].contains text)
  | .string _ | .integer _ | .float _ | .symbol .lBracket | .symbol .lBrace => true
  | _ => false

/-- The arguments of a test. -/
def parseTestArguments (g : Grammar) : Parser (Arguments Expr) := do
  let t ← current
  if t.isSymbol .lParen then
    parseArguments g
  else if beginsTestArgument t then
    if t.isName "is" then
      fail .chainedTests
    else
      let e ← parsePrimary g
      return { positional := [e] }
  else
    return {}

/-- **Test** of `node`, from the `is` on. -/
def parseTest (g : Grammar) (node : Expr) : Parser Expr := do
  let t ← advance
  let negated ← skipName "not"
  let first ← expectAnyName
  let name ← parseDottedName first.nameText
  let args ← parseTestArguments g
  let e := Expr.test node name args t.line
  return if negated then .not e t.line else e

/-- The next filters, test or call behind `node`, or the end of them. -/
def parseNextTrailer (g : Grammar) (node : Expr) : Parser (Expr ⊕ Expr) := do
  let t ← current
  if t.isSymbol .pipe then
    let e ← parseFilters g (some node) false
    return .inl e
  else if t.isName "is" then
    let e ← parseTest g node
    return .inl e
  else if t.isSymbol .lParen then
    let e ← parseCall g node
    return .inl e
  else
    return .inr node

/-- **Filters, tests and calls** behind `node`. -/
def parseTrailers (g : Grammar) (node : Expr) : Parser Expr :=
  repeatFrom (parseNextTrailer g) node

/-- An operand with its signs and what belongs to its primary. -/
def parseSign (g : Grammar) : Parser Expr := do
  let t ← current
  if t.isSymbol .sub then
    step
    let e ← g.signed
    return .neg e t.line
  else if t.isSymbol .add then
    step
    let e ← g.signed
    return .pos e t.line
  else
    parsePrimary g

/-- **Operand** of the operators. -/
def parseSigned (g : Grammar) (filters : Bool) : Parser Expr := do
  let e ← parseSign g
  let e ← parsePostfix g e
  if filters then parseTrailers g e else return e

/-! ### Arithmetic and text -/

/-- Powers. -/
def parsePower (g : Grammar) (filters : Bool) : Parser Expr :=
  leftChain (parseSigned g filters) fun t => (BinaryOp.power? t).map Expr.binary

/-- Products and quotients. -/
def parseProduct (g : Grammar) (filters : Bool) : Parser Expr :=
  leftChain (parsePower g filters) fun t => (BinaryOp.multiplicative? t).map Expr.binary

/-- One more of the texts that are joined. -/
def parseNextConcat (g : Grammar) (filters : Bool) (nodes : List Expr) :
    Parser (List Expr ⊕ List Expr) := do
  if ← skipSymbol .tilde then
    let e ← parseProduct g filters
    return .inl (nodes ++ [e])
  else
    return .inr nodes

/-- Texts joined by `~`, at least one. -/
def parseConcatNodes (g : Grammar) (filters : Bool) : Parser (List Expr) := do
  let first ← parseProduct g filters
  repeatFrom (parseNextConcat g filters) [first]

/-- Joined texts. -/
def parseConcat (g : Grammar) (filters : Bool) : Parser Expr := do
  let line := (← current).line
  match ← parseConcatNodes g filters with
  | [e] => return e
  | es => return .concat es line

/-- Sums and differences. -/
def parseSum (g : Grammar) (filters : Bool) : Parser Expr :=
  leftChain (parseConcat g filters) fun t => (BinaryOp.additive? t).map Expr.binary

/-! ### Logic -/

/-- Consumes the comparison operator at the current place, if there is one. -/
def parseComparison? : Parser (Option Comparison) := do
  let t ← current
  match Comparison.ofToken? t with
  | some op => do
    step
    return some op
  | none =>
    if t.isName "in" then
      step
      return some .isIn
    else if t.isName "not" && (← look).isName "in" then
      skip 2
      return some .notIn
    else
      return none

/-- The next link of a chain of comparisons, or its end with the line of the token behind it. -/
def parseNextOperand (g : Grammar) (filters : Bool) : List (Operand Expr) × Nat →
    Parser ((List (Operand Expr) × Nat) ⊕ (List (Operand Expr) × Nat)) :=
  fun (operands, line) => do
    match ← parseComparison? with
    | none => return .inr (operands, line)
    | some op => do
      let e ← parseSum g filters
      return .inl (operands ++ [⟨op, e⟩], (← current).line)

/-- The links of a chain of comparisons, with the line of the token behind the last of them. -/
def parseOperands (g : Grammar) (filters : Bool) (line : Nat) :
    Parser (List (Operand Expr) × Nat) :=
  repeatFrom (parseNextOperand g filters) ([], line)

/-- **Comparisons.** A chain stands on the line of the token behind it. -/
def parseCompare (g : Grammar) (filters : Bool) : Parser Expr := do
  let line := (← current).line
  let e ← parseSum g filters
  let (operands, line) ← parseOperands g filters line
  return if operands.isEmpty then e else .compare e operands line

/-- Negations. -/
def parseNegation (g : Grammar) (filters : Bool) : Parser Expr := do
  let t ← current
  if t.isName "not" then
    step
    let e ← g.negation filters
    return .not e t.line
  else
    parseCompare g filters

/-- Conjunctions. -/
def parseAnd (g : Grammar) (filters : Bool) : Parser Expr :=
  leftChain (parseNegation g filters) fun t => if t.isName "and" then some Expr.and else none

/-- Disjunctions. -/
def parseOr (g : Grammar) (filters : Bool) : Parser Expr :=
  leftChain (parseAnd g filters) fun t => if t.isName "or" then some Expr.or else none

/-- The alternative of a conditional, which can be left out. -/
def parseElse? (g : Grammar) : Parser (Option Expr) := do
  if ← skipName "else" then
    let e ← g.expression true true
    return some e
  else
    return none

/-- One more condition behind an expression. -/
def parseNextCondition (g : Grammar) (filters : Bool) :
    Expr × Nat → Parser ((Expr × Nat) ⊕ Expr) :=
  fun (e, line) => do
    if ← skipName "if" then
      let cond ← parseOr g filters
      let no ← parseElse? g
      return .inl (.conditional cond e no line, (← current).line)
    else
      return .inr e

/-- **Conditionals.** -/
def parseConditional (g : Grammar) (filters : Bool) : Parser Expr := do
  let line := (← current).line
  let first ← parseOr g filters
  repeatFrom (parseNextCondition g filters) (first, line)

/-- **Expression.** -/
def parseExpression (g : Grammar) (conditional filters : Bool) : Parser Expr :=
  if conditional then parseConditional g filters else parseOr g filters

/-! ### Tuples and targets -/

/-- Whether a tuple can end at a token. -/
def isTupleEnd (ends : List TokenRule) (t : Token) : Bool :=
  t.isMark .variableEnd || t.isMark .blockEnd || t.isSymbol .rParen || t.fitsAny ends

/-- **Form of the items of a tuple**: primaries, or expressions with or without conditions. -/
inductive TupleItem where
  | primary
  | expression (conditional : Bool)
deriving DecidableEq

/-- An item of a tuple. -/
def parseTupleItem (g : Grammar) : TupleItem → Parser Expr
  | .primary => parsePrimary g
  | .expression conditional => parseExpression g conditional true

/-- **Items of a tuple** as far as they have been read: whether a comma makes them a tuple, and the
line of the last token before which one of them could begin. -/
structure TupleItems where
  items : List Expr := []
  isTuple : Bool := false
  line : Nat

/-- One more item of a tuple, with the comma behind it. -/
def parseNextTupleItem (g : Grammar) (item : TupleItem) (ends : List TokenRule) (read : TupleItems) :
    Parser (TupleItems ⊕ TupleItems) := do
  parseSeparator (!read.items.isEmpty)
  if isTupleEnd ends (← current) then
    return .inr read
  else
    let e ← parseTupleItem g item
    let items := read.items ++ [e]
    let t ← current
    if t.isSymbol .comma then
      return .inl ⟨items, true, t.line⟩
    else
      return .inr { read with items }

/-- The items of a tuple and the commas between and behind them. -/
def parseTupleItems (g : Grammar) (item : TupleItem) (ends : List TokenRule) (line : Nat) :
    Parser TupleItems :=
  repeatFrom (parseNextTupleItem g item ends) { line }

/-- **Tuple**, or a single expression if there is no comma. Only between parentheses it can be
empty. -/
def parseTuple (g : Grammar) (item : TupleItem) (ends : List TokenRule) (parentheses : Bool) :
    Parser Expr := do
  let read ← parseTupleItems g item ends (← current).line
  match read.isTuple, read.items with
  | false, e :: _ => return e
  | false, [] =>
    if parentheses then
      return .tuple [] .load read.line
    else
      fail (.expectedExpression (← current).describe)
  | true, items => return .tuple items .load read.line

/-- The expressions of an output statement or of another place where a tuple can stand. -/
def parseAnyTuple (g : Grammar) : Parser Expr :=
  parseTuple g (.expression true) [] false

/-- The same up to the end of the tokens. -/
def parseWhole (g : Grammar) : Parser Expr := do
  let e ← parseAnyTuple g
  let t ← current
  if t.isEnd then return e
  else failAt (.unexpectedToken t.describe) t.line

/-- Goes on if an expression is assignable, and fails else. -/
def requireAssignable (target : Expr) : Parser Expr :=
  if target.isAssignable then return target
  else failAt (.notAssignable target.kind) target.line

/-- **Name to assign to.** -/
def parseTargetName : Parser Expr := do
  let t ← expectAnyName
  requireAssignable (.name t.nameText .store t.line)

/-- **Target of an assignment**: a primary, or a tuple of primaries. -/
def parseTarget (g : Grammar) (withTuple : Bool) (ends : List TokenRule) : Parser Expr := do
  let e ← if withTuple then parseTuple g .primary ends false else parsePrimary g
  requireAssignable (e.setContext .store)

end Grammar

end LiquidTemplate
