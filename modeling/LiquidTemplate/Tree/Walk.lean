import LiquidTemplate.Tree.Stmt

/-!
# Walks through trees

A walk meets every node before the nodes below it, and the nodes below one node without any other
between them.

* `Expr.walk`: an expression and all of its subexpressions.
* `Stmt.walk`, `walkAll`: statements with all that is in them.
* `findAll`: the expressions of a template that satisfy a condition.
-/

namespace LiquidTemplate

/-- **Node** of a tree. -/
inductive Node where
  | expr (e : Expr)
  | stmt (s : Stmt)

namespace Node

/-- The line of a node. -/
def line : Node → Nat
  | expr e => e.line
  | stmt s => s.line

/-- What kind of node it is. -/
def kind : Node → String
  | expr e => e.kind
  | stmt s => s.kind

/-- The expression that a node is. -/
def expr? : Node → Option Expr
  | expr e => some e
  | stmt _ => none

end Node

/-- **Walk through an expression.** -/
def Expr.walk (e : Expr) : List Expr :=
  e :: e.children.attach.flatMap fun ⟨c, _⟩ => c.walk
termination_by sizeOf e
decreasing_by exact sizeOf_lt_of_mem_children (by assumption)

theorem Expr.walk_eq (e : Expr) : e.walk = e :: e.children.flatMap Expr.walk := by
  rw [Expr.walk, List.flatMap_subtype (fun _ _ => rfl), List.unattach_attach]

/-- **Walk through a statement**: its expressions come before its inner statements. -/
def Stmt.walk (s : Stmt) : List Node :=
  .stmt s :: ((s.exprs.flatMap Expr.walk).map Node.expr ++
    s.body.attach.flatMap fun ⟨t, _⟩ => t.walk)
termination_by sizeOf s
decreasing_by exact sizeOf_lt_of_mem_body (by assumption)

theorem Stmt.walk_eq (s : Stmt) :
    s.walk = .stmt s :: ((s.exprs.flatMap Expr.walk).map Node.expr ++ s.body.flatMap Stmt.walk) := by
  rw [Stmt.walk, List.flatMap_subtype (fun _ _ => rfl), List.unattach_attach]

/-- **Walk through a template.** -/
def walkAll (body : List Stmt) : List Node :=
  body.flatMap Stmt.walk

/-- **Expressions of a template** that satisfy `p`, in the order of the walk. -/
def findAll (p : Expr → Bool) (body : List Stmt) : List Expr :=
  ((walkAll body).filterMap Node.expr?).filter p

end LiquidTemplate
