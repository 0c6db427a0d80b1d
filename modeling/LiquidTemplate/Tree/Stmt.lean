import LiquidTemplate.Tree.Expr

/-!
# Statements

* `Stmt`: the statements of a template, each with the line of its node.
* `Stmt.exprs`, `Stmt.body`: what stands directly in a statement.
* `Stmt.sizeOf_lt_of_mem_body`: inner statements are smaller, so that recursion over them ends.
-/

namespace LiquidTemplate

/-- **Name that is imported** from another template, possibly under another name. -/
structure ImportName where
  name : String
  localName : Option String
deriving DecidableEq

/-- **Statements.** The last field of each is the line of the node. -/
inductive Stmt where
  | output (nodes : List Expr) (line : Nat)
  | extendsTemplate (template : Expr) (line : Nat)
  /-- A loop; `otherwise` is for the case that there is nothing to loop over. -/
  | forLoop (target iter : Expr) (body otherwise : List Stmt) (test : Option Expr)
      (recursive : Bool) (line : Nat)
  | ifThen (test : Expr) (body otherwise : List Stmt) (line : Nat)
  | breakLoop (line : Nat)
  | continueLoop (line : Nat)
  | withBlock (targets values : List Expr) (body : List Stmt) (line : Nat)
  | scope (body : List Stmt) (line : Nat)
  /-- Options of evaluation that hold in the body. -/
  | optionBlock (options : List (Keyword Expr)) (body : List Stmt) (line : Nat)
  | block (name : String) (isScoped : Bool) (body : List Stmt) (line : Nat)
  | includeTemplate (template : Expr) (ignoreMissing withContext : Bool) (line : Nat)
  | sectionTemplate (template : Expr) (ignoreMissing withContext : Bool) (line : Nat)
  | importTemplate (template : Expr) (target : String) (withContext : Bool) (line : Nat)
  | importNames (template : Expr) (names : List ImportName) (withContext : Bool) (line : Nat)
  | macroBlock (name : String) (params defaults : List Expr) (body : List Stmt) (line : Nat)
  | callBlock (call : Expr) (params defaults : List Expr) (body : List Stmt) (line : Nat)
  | filterBlock (filter : Expr) (body : List Stmt) (line : Nat)
  | assign (target value : Expr) (line : Nat)
  | assignBlock (target : Expr) (body : List Stmt) (line : Nat)
  /-- An expression whose value is dropped. -/
  | expr (node : Expr) (line : Nat)

namespace Stmt

instance : Inhabited Stmt := ⟨breakLoop 0⟩

/-- The line of a node. -/
def line : Stmt → Nat
  | output _ l | extendsTemplate _ l | forLoop _ _ _ _ _ _ l | ifThen _ _ _ l | breakLoop l
  | continueLoop l | withBlock _ _ _ l | scope _ l | optionBlock _ _ l | block _ _ _ l
  | includeTemplate _ _ _ l | sectionTemplate _ _ _ l | importTemplate _ _ _ l
  | importNames _ _ _ l | macroBlock _ _ _ _ l | callBlock _ _ _ _ l | filterBlock _ _ l
  | assign _ _ l | assignBlock _ _ l | expr _ l => l

/-- What kind of node it is. -/
def kind : Stmt → String
  | output .. => "output"
  | extendsTemplate .. => "extends"
  | forLoop .. => "for"
  | ifThen .. => "if"
  | breakLoop .. => "break"
  | continueLoop .. => "continue"
  | withBlock .. => "with"
  | scope .. => "scope"
  | optionBlock .. => "scopedevalcontextmodifier"
  | block .. => "block"
  | includeTemplate .. => "include"
  | sectionTemplate .. => "section"
  | importTemplate .. => "import"
  | importNames .. => "fromimport"
  | macroBlock .. => "macro"
  | callBlock .. => "callblock"
  | filterBlock .. => "filterblock"
  | assign .. => "assign"
  | assignBlock .. => "assignblock"
  | expr .. => "exprstmt"

/-- **Expressions** directly in a statement, in order. They come before all of its inner
statements. -/
def exprs : Stmt → List Expr
  | output nodes _ => nodes
  | extendsTemplate template _ | includeTemplate template _ _ _ | sectionTemplate template _ _ _
  | importTemplate template _ _ _ | importNames template _ _ _ => [template]
  | forLoop target iter _ _ test _ _ => target :: iter :: test.toList
  | ifThen test _ _ _ => [test]
  | breakLoop _ | continueLoop _ | scope .. | block .. => []
  | withBlock targets values _ _ => targets ++ values
  | optionBlock options _ _ => options.map Keyword.value
  | macroBlock _ params defaults _ _ => params ++ defaults
  | callBlock call params defaults _ _ => call :: (params ++ defaults)
  | filterBlock filter _ _ => [filter]
  | assign target value _ => [target, value]
  | assignBlock target _ _ => [target]
  | expr node _ => [node]

/-- **Inner statements** directly in a statement, in order. -/
def body : Stmt → List Stmt
  | forLoop _ _ body otherwise _ _ _ | ifThen _ body otherwise _ => body ++ otherwise
  | withBlock _ _ body _ | scope body _ | optionBlock _ body _ | block _ _ body _
  | macroBlock _ _ _ body _ | callBlock _ _ _ body _ | filterBlock _ body _
  | assignBlock _ body _ => body
  | output .. | extendsTemplate .. | breakLoop _ | continueLoop _ | includeTemplate ..
  | sectionTemplate .. | importTemplate .. | importNames .. | assign .. | expr .. => []

/-- **Inner statements are smaller.** -/
theorem sizeOf_lt_of_mem_body {s t : Stmt} (h : t ∈ s.body) : sizeOf t < sizeOf s := by
  cases s <;> simp only [body, List.not_mem_nil, List.mem_append] at h
  case forLoop =>
    rcases h with h | h <;> have := List.sizeOf_lt_of_mem h <;>
      simp only [forLoop.sizeOf_spec] <;> omega
  case ifThen =>
    rcases h with h | h <;> have := List.sizeOf_lt_of_mem h <;>
      simp only [ifThen.sizeOf_spec] <;> omega
  all_goals
    have := List.sizeOf_lt_of_mem h
    simp only [withBlock.sizeOf_spec, scope.sizeOf_spec, optionBlock.sizeOf_spec, block.sizeOf_spec,
      macroBlock.sizeOf_spec, callBlock.sizeOf_spec, filterBlock.sizeOf_spec,
      assignBlock.sizeOf_spec]
    omega

end Stmt

end LiquidTemplate
