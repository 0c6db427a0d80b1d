import LiquidTemplate.Grammar.Basic
import LiquidTemplate.Text.Outline
import LiquidTemplate.Text.Quoted

/-!
# Dumps of environments

* `Delimiters.outline`, `Environment.outline`: the settings as outlines.
-/

namespace LiquidTemplate

/-- **Outline of delimiters.** -/
def Delimiters.outline (d : Delimiters) : Outline :=
  let text (s : String) : Outline := .atom (Text.quoted s)
  .record "SyntaxConfig"
    [("block_start", text d.blockStart), ("block_end", text d.blockEnd),
      ("variable_start", text d.variableStart), ("variable_end", text d.variableEnd),
      ("comment_start", text d.commentStart), ("comment_end", text d.commentEnd),
      ("trim_blocks", .bool d.trimBlocks),
      ("keep_trailing_newline", .bool d.keepTrailingNewline)]

/-- **Outline of an environment.** Extensions are shown by their names. -/
def Environment.outline (env : Environment) : Outline :=
  .record "Environment"
    [("syntax", env.delimiters.outline),
      ("extensions", .list (env.extensions.map fun e => .atom (Text.quoted e.name)))]

end LiquidTemplate
