import LiquidTemplate.Grammar.Arguments
import LiquidTemplate.Token.Tag

/-!
# Primaries

* `Grammar.parsePrimary`: names, constants, parentheses, lists, dictionaries and range literals.
* `Grammar.parseRange`: a range literal `(a..b)`, which stands for `(a, b)|range(inclusive=true)`.
* `Grammar.parsePostfix`: members, subscripts and calls behind a primary.
-/

namespace LiquidTemplate

open LiquidTemplate.Parser

namespace Constant

/-- The constant that a name stands for. -/
def ofName? : String → Option Constant
  | "true" | "True" => some (bool true)
  | "false" | "False" => some (bool false)
  | "none" | "None" => some none
  | _ => Option.none

end Constant

namespace Grammar

/-! ### Lists and dictionaries -/

/-- One more item of a list or of a dictionary. -/
def parseNextItem {α : Type} (closing : Symbol) (item : Parser α) (items : List α) :
    Parser (List α ⊕ List α) := do
  if ← atSymbol closing then
    return .inr items
  else
    parseSeparator (!items.isEmpty)
    if ← atSymbol closing then
      return .inr items
    else
      let x ← item
      return .inl (items ++ [x])

/-- **Items up to a closing symbol**, which stays. A comma separates them, and one more can stand
behind the last. -/
def parseItems {α : Type} (closing : Symbol) (item : Parser α) : Parser (List α) :=
  repeatFrom (parseNextItem closing item) []

/-- **List.** -/
def parseList (g : Grammar) : Parser Expr := do
  let t ← expectSymbol .lBracket
  let items ← parseItems .rBracket (g.expression true true)
  let _ ← expectSymbol .rBracket
  return .list items t.line

/-- An entry of a dictionary. -/
def parseEntry (g : Grammar) : Parser (Entry Expr) := do
  let key ← g.expression true true
  let _ ← expectSymbol .colon
  let value ← g.expression true true
  return ⟨key, value, key.line⟩

/-- **Dictionary.** -/
def parseDict (g : Grammar) : Parser Expr := do
  let t ← expectSymbol .lBrace
  let entries ← parseItems .rBrace (parseEntry g)
  let _ ← expectSymbol .rBrace
  return .dict entries t.line

/-! ### Range literals -/

/-- The tokens of one bound of the range literal `t`. It has to be one expression, so that nothing
of it spills into the pair of bounds. -/
def parseBound (g : Grammar) (text : String) (t : Token) : Parser (List Token) := do
  let stream := (← get).stream
  match Token.ofExpression text t.line t.span.lo with
  | .error e => throw (e.inTemplate stream.name stream.filename)
  | .ok tokens =>
    if tokens.isEmpty then
      failAt .emptyRangeBound t.line
    else if accepts (g.expression false false) (.ofTokens tokens none none) then
      return tokens
    else
      failAt (.invalidRangeBound text) t.line

/-- The tokens that a range literal stands for, all at its place but those of the bounds. -/
def rangeTokens (t : Token) (start stop : List Token) : List Token :=
  let place (kind : Token.Kind) : Token := ⟨kind, t.line, t.span⟩
  let behind := [.symbol .rParen, .symbol .pipe, .name "range", .symbol .lParen, .name "inclusive",
    .symbol .assign, .name "true", .symbol .rParen]
  place (.symbol .lParen) :: start ++ place (.symbol .comma) :: stop ++ behind.map place

/-- **Range literal**, after its token. -/
def parseRange (g : Grammar) (t : Token) (start stop : String) : Parser Expr := do
  let first ← parseBound g start t
  let last ← parseBound g stop t
  let stream := (← get).stream
  let tokens := TokenStream.ofTokens (rangeTokens t first last) stream.name stream.filename
  match runOn tokens (g.expression true true) with
  | .error e => throw e
  | .ok (e, behind) =>
    if behind.isEnd then return e else failAt (.trailingInRange behind.describe) t.line

/-! ### Primaries -/

/-- One more of the strings that follow each other. -/
def parseNextString (text : String) : Parser (String ⊕ String) := do
  match (← current).kind with
  | .string more => do
    step
    return .inl (text ++ more)
  | _ => return .inr text

/-- The string tokens that follow a string directly belong to it. -/
def parseString (first : String) : Parser String :=
  repeatFrom parseNextString first

/-- **Primary.** -/
def parsePrimary (g : Grammar) : Parser Expr := do
  let t ← current
  match t.kind with
  | .name name => do
    step
    match Constant.ofName? name with
    | some value => return .const value t.line
    | none => return .name name .load t.line
  | .string first => do
    step
    let text ← parseString first
    return .const (.str text) t.line
  | .integer value => do
    step
    return .const (.int value) t.line
  | .float value => do
    step
    return .const (.float value) t.line
  | .symbol .lParen => do
    step
    let e ← g.group
    let _ ← expectSymbol .rParen
    return e
  | .symbol .lBracket => parseList g
  | .symbol .lBrace => parseDict g
  | .range start stop => do
    step
    parseRange g t start stop
  | _ => failAt (.unexpectedToken t.describe) t.line

/-! ### Members, subscripts and calls -/

/-- An optional part of a slice, which is left out before one of the symbols `ends`. -/
def parseSlicePart (g : Grammar) (ends : List Symbol) : Parser (Option Expr) := do
  let t ← current
  if ends.any t.isSymbol then
    return none
  else
    let e ← g.expression true true
    return some e

/-- The rest of a slice, after the colon behind its start. -/
def parseSliceFrom (g : Grammar) (start : Option Expr) (line : Nat) : Parser Expr := do
  let stop ← parseSlicePart g [.colon, .rBracket, .comma]
  if ← skipSymbol .colon then
    let step ← parseSlicePart g [.rBracket, .comma]
    return .slice start stop step line
  else
    return .slice start stop none line

/-- **Subscript**: an expression or a slice. -/
def parseSubscript (g : Grammar) : Parser Expr := do
  let line := (← current).line
  if ← skipSymbol .colon then
    parseSliceFrom g none line
  else
    let e ← g.expression true true
    if ← skipSymbol .colon then
      parseSliceFrom g (some e) line
    else
      return e

/-- One more subscript. -/
def parseNextSubscript (g : Grammar) (subscripts : List Expr) : Parser (List Expr ⊕ List Expr) := do
  if ← atSymbol .rBracket then
    return .inr subscripts
  else
    parseSeparator (!subscripts.isEmpty)
    let e ← parseSubscript g
    return .inl (subscripts ++ [e])

/-- The subscripts up to the closing bracket, which stays. -/
def parseSubscripts (g : Grammar) : Parser (List Expr) :=
  repeatFrom (parseNextSubscript g) []

/-- **Member** of `node`, after the dot: a name, or a number as a subscript. -/
def parseMember (node : Expr) (line : Nat) : Parser Expr := do
  let t ← advance
  match t.kind with
  | .name attr => return .member node attr line
  | .integer index => return .item node (.const (.int index) t.line) line
  | _ => failAt .expectedNameOrNumber t.line

/-- **Item** of `node`, after the opening bracket. Several subscripts are a tuple. -/
def parseItem (g : Grammar) (node : Expr) (line : Nat) : Parser Expr := do
  let subscripts ← parseSubscripts g
  let _ ← expectSymbol .rBracket
  match subscripts with
  | [e] => return .item node e line
  | es => return .item node (.tuple es .load line) line

/-- The next member, item or call. -/
def parseNextPostfix (g : Grammar) (node : Expr) : Parser (Expr ⊕ Expr) := do
  let t ← current
  match t.kind with
  | .symbol .dot => do
    step
    let e ← parseMember node t.line
    return .inl e
  | .symbol .lBracket => do
    step
    let e ← parseItem g node t.line
    return .inl e
  | .symbol .lParen => do
    let e ← parseCall g node
    return .inl e
  | _ => return .inr node

/-- **Members, items and calls** behind `node`. -/
def parsePostfix (g : Grammar) (node : Expr) : Parser Expr :=
  repeatFrom (parseNextPostfix g) node

end Grammar

end LiquidTemplate
