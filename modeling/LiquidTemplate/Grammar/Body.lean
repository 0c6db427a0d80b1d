import LiquidTemplate.Grammar.Operators

/-!
# Bodies

A body is the sequence of texts, output tags and statements up to an end tag or to the end of the
template. Neighbouring texts and outputs are one output statement.

* `Grammar.parseBody`: a body; the end tag stays.
* `Grammar.parseStatements`: the end of a tag, the body behind it, and the demand for an end tag.
-/

namespace LiquidTemplate

open LiquidTemplate.Parser

/-- **Body** as far as it has been read: its statements, and the outputs that are not in one yet. -/
structure PartialBody where
  stmts : List Stmt := []
  pending : List Expr := []

namespace PartialBody

/-- The pending outputs become a statement. -/
def flush (b : PartialBody) : PartialBody :=
  match b.pending with
  | [] => b
  | e :: es => ⟨b.stmts ++ [.output (e :: es) e.line], []⟩

theorem pending_flush (b : PartialBody) : b.flush.pending = [] := by
  unfold flush
  split
  · assumption
  · rfl

/-- The body with one more output. -/
def addOutput (b : PartialBody) (e : Expr) : PartialBody :=
  { b with pending := b.pending ++ [e] }

/-- The body with the text `data`, which is left out if it is empty. -/
def addText (b : PartialBody) (data : String) (line : Nat) : PartialBody :=
  if data.isEmpty then b else b.addOutput (.templateData data line)

/-- The body with more statements. -/
def addStatements (b : PartialBody) (stmts : List Stmt) : PartialBody :=
  ⟨b.stmts ++ stmts, b.pending⟩

end PartialBody

namespace Grammar

/-- The expressions of an output tag, after its opening delimiter. -/
def parseOutput (g : Grammar) : Parser Expr := do
  let e ← parseAnyTuple g
  let _ ← expectMark .variableEnd
  return e

/-- A statement and the end of its tag. -/
def parseClosedStatement (g : Grammar) : Parser (List Stmt) := do
  let result ← g.statement
  let _ ← expectMark .blockEnd
  return result.toList

/-- **Part of a body.** One text, output tag or statement is added to it; at the end of the template
or at an end tag it is finished. -/
def parseBodyPart (g : Grammar) (ends : List TokenRule) (b : PartialBody) :
    Parser (PartialBody ⊕ List Stmt) := do
  let t ← current
  match t.kind with
  | .mark .endOfTemplate => return .inr b.flush.stmts
  | .data data => do
    step
    return .inl (b.addText data t.line)
  | .mark .variableBegin => do
    step
    let e ← parseOutput g
    return .inl (b.addOutput e)
  | .mark .blockBegin => do
    step
    if (← current).fitsAny ends then
      return .inr b.flush.stmts
    else
      let stmts ← parseClosedStatement g
      return .inl (b.flush.addStatements stmts)
  | _ => failAt (.outsideTag t.describe) t.line

/-- **Body** up to one of the end tags, or to the end of the template. The name of the end tag is
the token that stays. -/
def parseBody (g : Grammar) (ends : Option (List TokenRule)) : Parser (List Stmt) :=
  let parts := repeatFrom (parseBodyPart g (ends.getD [])) {}
  match ends with
  | some ends => awaiting ends parts
  | none => parts

/-- **Body of a statement**, from the end of its tag on. With `consume` the name of the end tag is
consumed as well. -/
def parseStatements (g : Grammar) (ends : List TokenRule) (consume : Bool) :
    Parser (List Stmt) := do
  let _ ← skipSymbol .colon
  let _ ← expectMark .blockEnd
  let body ← parseBody g (some ends)
  let t ← current
  if t.isEnd then
    failUnclosed (some ends) t.line
  else if consume then
    step
    return body
  else
    return body

end Grammar

end LiquidTemplate
