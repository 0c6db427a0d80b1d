import LiquidTemplate.Grammar.Operators

/-!
# Expressions as statements

* `Extension.doExpr`: `do e` evaluates `e` and drops its value.
-/

namespace LiquidTemplate

open LiquidTemplate.Parser

/-- **Expression as a statement.** -/
def Grammar.parseDo (g : Grammar) : Parser Expansion := do
  let line := (← advance).line
  let node ← parseAnyTuple g
  return .single (.expr node line)

/-- **Extension** for expressions as statements. -/
def Extension.doExpr : Extension where
  name := "do"
  tags := ["do"]
  parse := Grammar.parseDo

end LiquidTemplate
