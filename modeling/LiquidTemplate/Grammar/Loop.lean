import LiquidTemplate.Grammar.Body

/-!
# Loops

* `LoopModifiers`: the order and the part of the items that a loop goes through.
* `Grammar.parseIterable`: what a loop goes through, with its modifiers applied.
* `Grammar.parseFor`: the loop.
-/

namespace LiquidTemplate

open LiquidTemplate.Parser

/-- **Modifiers of a loop.** Of several limits or offsets the last one counts. -/
structure LoopModifiers where
  reversed : Bool := false
  limit : Option Expr := none
  offset : Option Expr := none

namespace LoopModifiers

/-- The slice from the offset on, as long as the limit says. -/
def slice (m : LoopModifiers) (line : Nat) : Expr :=
  let start := m.offset.getD (.const (.int 0) line)
  let stop :=
    match m.limit with
    | some limit => .binary .add start limit line
    | none => .const .none line
  .slice (some start) (some stop) none line

/-- **Modified iterable.** The part is taken before the order is reversed. -/
def apply (m : LoopModifiers) (iter : Expr) : Expr :=
  let line := iter.line
  let part := if m.limit.isSome || m.offset.isSome then .item iter (m.slice line) line else iter
  if m.reversed then .filter (some part) "reverse" {} line else part

end LoopModifiers

namespace Grammar

/-- The names that can stand behind the iterable of a loop. -/
def iterableEnds : List TokenRule :=
  [.name "recursive", .name "reversed", .name "limit", .name "offset"]

/-- The value of a modifier, from the colon on. -/
def parseModifierValue (g : Grammar) : Parser Expr := do
  let _ ← expectSymbol .colon
  g.expression true true

/-- One more modifier of a loop. -/
def parseNextModifier (g : Grammar) (m : LoopModifiers) : Parser (LoopModifiers ⊕ LoopModifiers) := do
  if ← skipName "reversed" then
    return .inl { m with reversed := true }
  else if ← skipName "limit" then
    let e ← parseModifierValue g
    return .inl { m with limit := some e }
  else if ← skipName "offset" then
    let e ← parseModifierValue g
    return .inl { m with offset := some e }
  else
    return .inr m

/-- The modifiers behind an iterable. -/
def parseModifiers (g : Grammar) : Parser LoopModifiers :=
  repeatFrom (parseNextModifier g) {}

/-- **Iterable** of a loop with its modifiers. -/
def parseIterable (g : Grammar) : Parser Expr := do
  let iter ← parseTuple g (.expression false) iterableEnds false
  let modifiers ← parseModifiers g
  return modifiers.apply iter

/-- The condition on the items of a loop, which can be left out. -/
def parseLoopTest? (g : Grammar) : Parser (Option Expr) := do
  if ← skipName "if" then
    let e ← parseExpression g true true
    return some e
  else
    return none

/-- What a loop does if there is nothing to loop over, from the name of the tag behind its body
on. -/
def parseLoopElse (g : Grammar) : Parser (List Stmt) := do
  if (← advance).isName "endfor" then return []
  else parseStatements g [.name "endfor"] true

/-- **Loop.** -/
def parseFor (g : Grammar) : Parser Stmt := do
  let line := (← expectName "for").line
  let target ← parseTarget g true [.name "in"]
  let _ ← expectName "in"
  let iter ← parseIterable g
  let test ← parseLoopTest? g
  let recursive ← skipName "recursive"
  let body ← parseStatements g [.name "endfor", .name "else"] false
  let otherwise ← parseLoopElse g
  return .forLoop target iter body otherwise test recursive line

end Grammar

end LiquidTemplate
