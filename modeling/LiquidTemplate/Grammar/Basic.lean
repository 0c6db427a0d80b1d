import LiquidTemplate.Delimiters
import LiquidTemplate.Grammar.Parser

/-!
# Grammar

The productions of the grammar refer to each other. Each is written as a plain function of a
`Grammar`, which holds those productions that are needed again deeper inside.

* `Grammar`: the productions that other productions refer to.
* `Expansion`: what one tag stands for.
* `Extension`: tags of one's own, with their parser.
* `Environment`: delimiters and extensions.
-/

namespace LiquidTemplate

/-- **What a tag stands for**: a statement or several ones. -/
inductive Expansion where
  | single (stmt : Stmt)
  | multiple (stmts : List Stmt)

/-- The statements that a tag stands for. -/
def Expansion.toList : Expansion → List Stmt
  | single stmt => [stmt]
  | multiple stmts => stmts

/-- **Grammar**: the productions that refer to each other. -/
structure Grammar where
  /-- An expression, with or without a condition behind it and with or without filters. -/
  expression : (conditional filters : Bool) → Parser Expr
  /-- An expression with any number of `not` before it. -/
  negation : (filters : Bool) → Parser Expr
  /-- An operand with any number of signs before it, without filters. -/
  signed : Parser Expr
  /-- What stands between parentheses. -/
  group : Parser Expr
  /-- The statement of a tag, from the name of the tag on. -/
  statement : Parser Expansion
  /-- A condition with its body and its alternatives, up to the end tag of `tag`. -/
  branch : (line : Nat) → (tag : String) → Parser Stmt

/-- **Extension.** Its parser begins at the name of the tag and has to consume it. -/
structure Extension where
  name : String
  tags : List String
  parse : Grammar → Parser Expansion

/-- **Environment.** -/
structure Environment where
  delimiters : Delimiters := {}
  extensions : List Extension := []

namespace Environment

/-- The extension for a tag: of several the one that was added last. -/
def extension? (env : Environment) (tag : String) : Option Extension :=
  env.extensions.reverse.find? fun e => e.tags.contains tag

/-- The environment with one more extension. -/
def withExtension (env : Environment) (e : Extension) : Environment :=
  { env with extensions := env.extensions ++ [e] }

end Environment

end LiquidTemplate
