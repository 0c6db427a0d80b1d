import LiquidTemplate.Grammar.Operators

/-!
# Shouting

* `Extension.shout`: `shout e` shows `e` in capitals.
-/

namespace LiquidTemplate

open LiquidTemplate.Parser

/-- **Output in capitals.** -/
def Grammar.parseShout (g : Grammar) : Parser Expansion := do
  let line := (← advance).line
  let e ← parseExpression g true true
  return .single (.output [.filter (some e) "upcase" {} line] line)

/-- **Extension** for output in capitals, with the tags that it is to have. -/
def Extension.shout (tags : List String) : Extension where
  name := "shout"
  tags := tags
  parse := Grammar.parseShout

end LiquidTemplate
