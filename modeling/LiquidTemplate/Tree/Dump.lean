import LiquidTemplate.Number.Text
import LiquidTemplate.Text.Outline
import LiquidTemplate.Text.Quoted
import LiquidTemplate.Tree.Stmt

/-!
# Dumps of trees

* `Expr.outline`, `Stmt.outline`: trees as outlines, which name every node and every part.
-/

namespace LiquidTemplate

/-- A text, quoted. -/
def Outline.quoted (text : String) : Outline :=
  atom (Text.quoted text)

/-- A use of a name. -/
def Context.outline : Context → Outline
  | load => .atom "Load"
  | store => .atom "Store"
  | param => .atom "Param"

/-- A constant. -/
def Constant.outline : Constant → Outline
  | none => .atom "None"
  | bool value => .wrapped "Bool" (.bool value)
  | int value => .wrapped "Int" (.atom (String.ofList (Number.intText value.toInt)))
  | float value => .wrapped "Float" (.atom (String.ofList (Number.dumpFloat value)))
  | str value => .wrapped "Str" (.quoted value)

/-- An operator. -/
def BinaryOp.outline : BinaryOp → Outline
  | add => .atom "Add"
  | sub => .atom "Sub"
  | mul => .atom "Mul"
  | div => .atom "Div"
  | floorDiv => .atom "FloorDiv"
  | mod => .atom "Mod"
  | pow => .atom "Pow"

/-- A comparison operator. -/
def Comparison.outline : Comparison → Outline
  | eq => .atom "Eq"
  | ne => .atom "Ne"
  | lt => .atom "Lt"
  | ltEq => .atom "LtEq"
  | gt => .atom "Gt"
  | gtEq => .atom "GtEq"
  | isIn => .atom "In"
  | notIn => .atom "NotIn"

namespace Expr

mutual

/-- **Outline of an expression.** -/
def outline : Expr → Outline
  | const value line => .record "Const" [("value", value.outline), ("line", .nat line)]
  | templateData data line => .record "TemplateData" [("data", .quoted data), ("line", .nat line)]
  | name text context line =>
    .record "Name" [("name", .quoted text), ("ctx", context.outline), ("line", .nat line)]
  | internalName text line => .record "InternalName" [("name", .quoted text), ("line", .nat line)]
  | tuple items context line =>
    .record "Tuple"
      [("items", .list (outlines items)), ("ctx", context.outline), ("line", .nat line)]
  | list items line => .record "List" [("items", .list (outlines items)), ("line", .nat line)]
  | dict entries line =>
    .record "Dict" [("items", .list (entryOutlines entries)), ("line", .nat line)]
  | member node attr line =>
    .record "Getattr" [("node", outline node), ("attr", .quoted attr), ("line", .nat line)]
  | item node arg line =>
    .record "Getitem" [("node", outline node), ("arg", outline arg), ("line", .nat line)]
  | slice start stop step line =>
    .record "Slice"
      [("start", optionOutline start), ("stop", optionOutline stop), ("step", optionOutline step),
        ("line", .nat line)]
  | call node args line =>
    .record "Call" [("node", outline node), ("args", argumentsOutline args), ("line", .nat line)]
  | filter node called args line =>
    .record "Filter"
      [("node", optionOutline node), ("name", .quoted called), ("args", argumentsOutline args),
        ("line", .nat line)]
  | test node called args line =>
    .record "Test"
      [("node", outline node), ("name", .quoted called), ("args", argumentsOutline args),
        ("line", .nat line)]
  | conditional cond yes no line =>
    .record "CondExpr"
      [("test", outline cond), ("expr1", outline yes), ("expr2", optionOutline no),
        ("line", .nat line)]
  | and left right line =>
    .record "And" [("left", outline left), ("right", outline right), ("line", .nat line)]
  | or left right line =>
    .record "Or" [("left", outline left), ("right", outline right), ("line", .nat line)]
  | not node line => .record "Not" [("node", outline node), ("line", .nat line)]
  | neg node line => .record "Neg" [("node", outline node), ("line", .nat line)]
  | pos node line => .record "Pos" [("node", outline node), ("line", .nat line)]
  | binary op left right line =>
    .record "BinOp"
      [("op", op.outline), ("left", outline left), ("right", outline right), ("line", .nat line)]
  | concat nodes line => .record "Concat" [("nodes", .list (outlines nodes)), ("line", .nat line)]
  | compare expr operands line =>
    .record "Compare"
      [("expr", outline expr), ("ops", .list (operandOutlines operands)), ("line", .nat line)]

/-- The outlines of several expressions. -/
def outlines : List Expr → List Outline
  | [] => []
  | e :: es => outline e :: outlines es

/-- The outline of an expression that can be missing. -/
def optionOutline : Option Expr → Outline
  | none => .atom "None"
  | some e => .wrapped "Some" (outline e)

/-- The outline of arguments. -/
def argumentsOutline : Arguments Expr → Outline
  | ⟨positional, keywords, spread, spreadKeywords⟩ =>
    .record "CallArgs"
      [("args", .list (outlines positional)), ("kwargs", .list (keywordOutlines keywords)),
        ("dyn_args", optionOutline spread), ("dyn_kwargs", optionOutline spreadKeywords)]

/-- The outline of an argument with a name. -/
def keywordOutline : Keyword Expr → Outline
  | ⟨key, value, line⟩ =>
    .record "Keyword" [("key", .quoted key), ("value", outline value), ("line", .nat line)]

/-- The outlines of several arguments with names. -/
def keywordOutlines : List (Keyword Expr) → List Outline
  | [] => []
  | k :: ks => keywordOutline k :: keywordOutlines ks

/-- The outline of an entry. -/
def entryOutline : Entry Expr → Outline
  | ⟨key, value, line⟩ =>
    .record "Pair" [("key", outline key), ("value", outline value), ("line", .nat line)]

/-- The outlines of several entries. -/
def entryOutlines : List (Entry Expr) → List Outline
  | [] => []
  | e :: es => entryOutline e :: entryOutlines es

/-- The outline of a link of a chain of comparisons. -/
def operandOutline : Operand Expr → Outline
  | ⟨op, expr⟩ => .record "Operand" [("op", op.outline), ("expr", outline expr)]

/-- The outlines of all links of a chain of comparisons. -/
def operandOutlines : List (Operand Expr) → List Outline
  | [] => []
  | o :: os => operandOutline o :: operandOutlines os

end

end Expr

/-- The outline of an imported name. -/
def ImportName.outline (n : ImportName) : Outline :=
  .record "ImportName" [("name", .quoted n.name), ("alias", .option (n.localName.map .quoted))]

namespace Stmt

mutual

/-- **Outline of a statement.** -/
def outline : Stmt → Outline
  | output nodes line =>
    .record "Output" [("nodes", .list (Expr.outlines nodes)), ("line", .nat line)]
  | extendsTemplate template line =>
    .record "Extends" [("template", template.outline), ("line", .nat line)]
  | forLoop target iter body otherwise test recursive line =>
    .record "For"
      [("target", target.outline), ("iter", iter.outline), ("body", .list (outlines body)),
        ("else_", .list (outlines otherwise)), ("test", Expr.optionOutline test),
        ("recursive", .bool recursive), ("line", .nat line)]
  | ifThen test body otherwise line =>
    .record "If"
      [("test", test.outline), ("body", .list (outlines body)),
        ("else_", .list (outlines otherwise)), ("line", .nat line)]
  | breakLoop line => .record "Break" [("line", .nat line)]
  | continueLoop line => .record "Continue" [("line", .nat line)]
  | withBlock targets values body line =>
    .record "With"
      [("targets", .list (Expr.outlines targets)), ("values", .list (Expr.outlines values)),
        ("body", .list (outlines body)), ("line", .nat line)]
  | scope body line => .record "Scope" [("body", .list (outlines body)), ("line", .nat line)]
  | optionBlock options body line =>
    .record "ScopedEvalContextModifier"
      [("options", .list (Expr.keywordOutlines options)), ("body", .list (outlines body)),
        ("line", .nat line)]
  | block name isScoped body line =>
    .record "Block"
      [("name", .quoted name), ("scoped", .bool isScoped), ("body", .list (outlines body)),
        ("line", .nat line)]
  | includeTemplate template ignoreMissing withContext line =>
    .record "Include"
      [("template", template.outline), ("ignore_missing", .bool ignoreMissing),
        ("with_context", .bool withContext), ("line", .nat line)]
  | sectionTemplate template ignoreMissing withContext line =>
    .record "Section"
      [("template", template.outline), ("ignore_missing", .bool ignoreMissing),
        ("with_context", .bool withContext), ("line", .nat line)]
  | importTemplate template target withContext line =>
    .record "Import"
      [("template", template.outline), ("target", .quoted target),
        ("with_context", .bool withContext), ("line", .nat line)]
  | importNames template names withContext line =>
    .record "FromImport"
      [("template", template.outline), ("names", .list (names.map ImportName.outline)),
        ("with_context", .bool withContext), ("line", .nat line)]
  | macroBlock name params defaults body line =>
    .record "Macro"
      [("name", .quoted name), ("args", .list (Expr.outlines params)),
        ("defaults", .list (Expr.outlines defaults)), ("body", .list (outlines body)),
        ("line", .nat line)]
  | callBlock call params defaults body line =>
    .record "CallBlock"
      [("call", call.outline), ("args", .list (Expr.outlines params)),
        ("defaults", .list (Expr.outlines defaults)), ("body", .list (outlines body)),
        ("line", .nat line)]
  | filterBlock filter body line =>
    .record "FilterBlock"
      [("filter", filter.outline), ("body", .list (outlines body)), ("line", .nat line)]
  | assign target value line =>
    .record "Assign" [("target", target.outline), ("node", value.outline), ("line", .nat line)]
  | assignBlock target body line =>
    .record "AssignBlock"
      [("target", target.outline), ("body", .list (outlines body)), ("line", .nat line)]
  | expr node line => .record "ExprStmt" [("node", node.outline), ("line", .nat line)]

/-- The outlines of several statements. -/
def outlines : List Stmt → List Outline
  | [] => []
  | s :: ss => outline s :: outlines ss

end

end Stmt

end LiquidTemplate
