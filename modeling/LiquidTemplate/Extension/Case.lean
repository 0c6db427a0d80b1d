import LiquidTemplate.Grammar.Body

/-!
# Case distinctions

`case x`, with branches `when a, b` and `else`, is an assignment of `x` to a made-up name and a
chain of conditions that compare the values of the branches with it.

* `CaseBranch`: the values of a branch and its body.
* `CaseBranch.test?`: the condition of a branch.
* `caseChain`: the chain of conditions.
* `Extension.case`: the extension.
-/

namespace LiquidTemplate

open LiquidTemplate.Parser

/-- **Branch** of a case distinction. -/
structure CaseBranch where
  values : List Expr
  body : List Stmt
  line : Nat

/-- The alternatives of a disjunction, from left to right. -/
def Expr.alternatives : Expr → List Expr
  | or left right _ => left.alternatives ++ right.alternatives
  | e => [e]

namespace CaseBranch

/-- The comparison of a value with the subject. -/
def comparison (b : CaseBranch) (subject : String) (value : Expr) : Expr :=
  .compare (.internalName subject b.line) [⟨.eq, value⟩] b.line

/-- **Condition** of a branch: one of its values equals the subject. -/
def test? (b : CaseBranch) (subject : String) : Option Expr :=
  match b.values with
  | [] => none
  | value :: values =>
    some (values.foldl (fun e value => .or e (b.comparison subject value) b.line)
      (b.comparison subject value))

end CaseBranch

/-- **Chain of conditions.** The first branch whose condition holds is taken, else `fallback`. -/
def caseChain (subject : String) (branches : List CaseBranch) (fallback : List Stmt) : List Stmt :=
  branches.foldr (fun b chain =>
      match b.test? subject with
      | some test => [.ifThen test b.body chain b.line]
      | none => chain)
    fallback

namespace Grammar

/-- The tags that end a branch. -/
def branchEnds : List TokenRule :=
  [.name "when", .name "else", .name "endcase"]

/-- One more value of a branch. -/
def parseNextWhenValue (g : Grammar) (values : List Expr) : Parser (List Expr ⊕ List Expr) := do
  let e ← parseExpression g false true
  let values := values ++ e.alternatives
  if ← skipSymbol .comma then return .inl values else return .inr values

/-- **Values of a branch**, with commas or `or` between them. -/
def parseWhenValues (g : Grammar) : Parser (List Expr) :=
  repeatFrom (parseNextWhenValue g) []

/-- A branch, after its `when`. -/
def parseCaseBranch (g : Grammar) (line : Nat) : Parser CaseBranch := do
  let values ← parseWhenValues g
  let body ← parseStatements g branchEnds false
  return ⟨values, body, line⟩

/-- What the tag behind a branch begins: one more branch, what is done if none of them fits, or the
end. -/
def parseNextBranch (g : Grammar) (branches : List CaseBranch) (fallback : List Stmt) :
    Parser ((List CaseBranch × List Stmt) ⊕ (List CaseBranch × List Stmt)) := do
  let t ← advance
  if t.isName "when" then
    let b ← parseCaseBranch g t.line
    return .inl (branches ++ [b], fallback)
  else if t.isName "else" then
    let body ← parseStatements g [.name "endcase"] false
    return .inl (branches, body)
  else
    return .inr (branches, fallback)

/-- The branches up to the end tag, and what is done if none of them fits. -/
def parseCaseBranches (g : Grammar) : Parser (List CaseBranch × List Stmt) :=
  repeatFrom (fun read => parseNextBranch g read.1 read.2) ([], [])

/-- **Case distinction.** What stands before the first branch is dropped. -/
def parseCase (g : Grammar) : Parser Expansion := do
  let line := (← advance).line
  let subject ← parseExpression g true true
  let target ← freshName line
  let _ ← parseStatements g branchEnds false
  let (branches, fallback) ← parseCaseBranches g
  return .multiple (.assign target subject line :: caseChain target.nameText branches fallback)

end Grammar

/-- **Extension** for case distinctions. -/
def Extension.case : Extension where
  name := "case"
  tags := ["case"]
  parse := Grammar.parseCase

end LiquidTemplate
