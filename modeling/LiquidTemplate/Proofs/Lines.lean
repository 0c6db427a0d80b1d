import LiquidTemplate.Tree.Stmt

/-!
# Trees up to line numbers

Two trees that differ only in the lines of their nodes are the same tree without lines.

* `Expr.withoutLines`: an expression with all lines set to zero.
* `Expr.Alike`: the same expression up to lines.
* `Stmt.withoutLines`: a statement with all lines set to zero.
* `..._eq_map`: what this does to the lists and options inside a node.
-/

namespace LiquidTemplate

namespace Expr

mutual

/-- **An expression without its lines.** -/
def withoutLines : Expr → Expr
  | const value _ => const value 0
  | templateData data _ => templateData data 0
  | name n context _ => name n context 0
  | internalName n _ => internalName n 0
  | tuple items context _ => tuple (listWithoutLines items) context 0
  | list items _ => list (listWithoutLines items) 0
  | dict entries _ => dict (entriesWithoutLines entries) 0
  | member node attr _ => member (withoutLines node) attr 0
  | item node arg _ => item (withoutLines node) (withoutLines arg) 0
  | slice start stop step _ =>
    slice (optionWithoutLines start) (optionWithoutLines stop) (optionWithoutLines step) 0
  | call node args _ => call (withoutLines node) (argumentsWithoutLines args) 0
  | filter node n args _ => filter (optionWithoutLines node) n (argumentsWithoutLines args) 0
  | test node n args _ => test (withoutLines node) n (argumentsWithoutLines args) 0
  | conditional cond yes no _ =>
    conditional (withoutLines cond) (withoutLines yes) (optionWithoutLines no) 0
  | and left right _ => and (withoutLines left) (withoutLines right) 0
  | or left right _ => or (withoutLines left) (withoutLines right) 0
  | not node _ => not (withoutLines node) 0
  | neg node _ => neg (withoutLines node) 0
  | pos node _ => pos (withoutLines node) 0
  | binary op left right _ => binary op (withoutLines left) (withoutLines right) 0
  | concat nodes _ => concat (listWithoutLines nodes) 0
  | compare e operands _ => compare (withoutLines e) (operandsWithoutLines operands) 0

/-- The expressions of a list without their lines. -/
def listWithoutLines : List Expr → List Expr
  | [] => []
  | e :: es => withoutLines e :: listWithoutLines es

/-- An expression that can be left out, without its lines. -/
def optionWithoutLines : Option Expr → Option Expr
  | none => none
  | some e => some (withoutLines e)

/-- The entries of a dictionary without their lines. -/
def entriesWithoutLines : List (Entry Expr) → List (Entry Expr)
  | [] => []
  | ⟨key, value, _⟩ :: es => ⟨withoutLines key, withoutLines value, 0⟩ :: entriesWithoutLines es

/-- Keywords without their lines. -/
def keywordsWithoutLines : List (Keyword Expr) → List (Keyword Expr)
  | [] => []
  | ⟨key, value, _⟩ :: ks => ⟨key, withoutLines value, 0⟩ :: keywordsWithoutLines ks

/-- Arguments without their lines. -/
def argumentsWithoutLines : Arguments Expr → Arguments Expr
  | ⟨positional, keywords, spread, spreadKeywords⟩ =>
    ⟨listWithoutLines positional, keywordsWithoutLines keywords, optionWithoutLines spread,
      optionWithoutLines spreadKeywords⟩

/-- The links of a chain of comparisons without their lines. -/
def operandsWithoutLines : List (Operand Expr) → List (Operand Expr)
  | [] => []
  | ⟨op, e⟩ :: os => ⟨op, withoutLines e⟩ :: operandsWithoutLines os

end

/-- **The same expression up to lines.** -/
def Alike (e x : Expr) : Prop :=
  x.withoutLines = e.withoutLines

theorem Alike.eq {e x : Expr} (h : e.Alike x) : x.withoutLines = e.withoutLines :=
  h

@[simp] theorem listWithoutLines_eq_map (es : List Expr) :
    listWithoutLines es = es.map withoutLines := by
  induction es with
  | nil => rfl
  | cons e es ih => rw [listWithoutLines, ih, List.map_cons]

@[simp] theorem optionWithoutLines_eq_map (e : Option Expr) :
    optionWithoutLines e = e.map withoutLines := by
  cases e <;> rfl

@[simp] theorem entriesWithoutLines_eq_map (es : List (Entry Expr)) :
    entriesWithoutLines es = es.map fun e => ⟨e.key.withoutLines, e.value.withoutLines, 0⟩ := by
  induction es with
  | nil => rfl
  | cons e es ih => rw [entriesWithoutLines, ih, List.map_cons]

@[simp] theorem keywordsWithoutLines_eq_map (ks : List (Keyword Expr)) :
    keywordsWithoutLines ks = ks.map fun k => ⟨k.key, k.value.withoutLines, 0⟩ := by
  induction ks with
  | nil => rfl
  | cons k ks ih => rw [keywordsWithoutLines, ih, List.map_cons]

@[simp] theorem argumentsWithoutLines_eq_map (a : Arguments Expr) :
    argumentsWithoutLines a =
      ⟨a.positional.map withoutLines, a.keywords.map fun k => ⟨k.key, k.value.withoutLines, 0⟩,
        a.spread.map withoutLines, a.spreadKeywords.map withoutLines⟩ := by
  obtain ⟨positional, keywords, spread, spreadKeywords⟩ := a
  simp [argumentsWithoutLines]

@[simp] theorem operandsWithoutLines_eq_map (os : List (Operand Expr)) :
    operandsWithoutLines os = os.map fun o => ⟨o.op, o.expr.withoutLines⟩ := by
  induction os with
  | nil => rfl
  | cons o os ih => rw [operandsWithoutLines, ih, List.map_cons]

end Expr

namespace Stmt

mutual

/-- **A statement without its lines.** -/
def withoutLines : Stmt → Stmt
  | output nodes _ => output (nodes.map Expr.withoutLines) 0
  | extendsTemplate template _ => extendsTemplate template.withoutLines 0
  | forLoop target iter body otherwise test recursive _ =>
    forLoop target.withoutLines iter.withoutLines (listWithoutLines body)
      (listWithoutLines otherwise) (test.map Expr.withoutLines) recursive 0
  | ifThen test body otherwise _ =>
    ifThen test.withoutLines (listWithoutLines body) (listWithoutLines otherwise) 0
  | breakLoop _ => breakLoop 0
  | continueLoop _ => continueLoop 0
  | withBlock targets values body _ =>
    withBlock (targets.map Expr.withoutLines) (values.map Expr.withoutLines)
      (listWithoutLines body) 0
  | scope body _ => scope (listWithoutLines body) 0
  | optionBlock options body _ =>
    optionBlock (Expr.keywordsWithoutLines options) (listWithoutLines body) 0
  | block n isScoped body _ => block n isScoped (listWithoutLines body) 0
  | includeTemplate template ignoreMissing withContext _ =>
    includeTemplate template.withoutLines ignoreMissing withContext 0
  | sectionTemplate template ignoreMissing withContext _ =>
    sectionTemplate template.withoutLines ignoreMissing withContext 0
  | importTemplate template target withContext _ =>
    importTemplate template.withoutLines target withContext 0
  | importNames template names withContext _ =>
    importNames template.withoutLines names withContext 0
  | macroBlock n params defaults body _ =>
    macroBlock n (params.map Expr.withoutLines) (defaults.map Expr.withoutLines)
      (listWithoutLines body) 0
  | callBlock call params defaults body _ =>
    callBlock call.withoutLines (params.map Expr.withoutLines) (defaults.map Expr.withoutLines)
      (listWithoutLines body) 0
  | filterBlock filter body _ => filterBlock filter.withoutLines (listWithoutLines body) 0
  | assign target value _ => assign target.withoutLines value.withoutLines 0
  | assignBlock target body _ => assignBlock target.withoutLines (listWithoutLines body) 0
  | expr node _ => expr node.withoutLines 0

/-- The statements of a list without their lines. -/
def listWithoutLines : List Stmt → List Stmt
  | [] => []
  | s :: ss => withoutLines s :: listWithoutLines ss

end

/-- **The same statement up to lines.** -/
def Alike (s t : Stmt) : Prop :=
  t.withoutLines = s.withoutLines

/-- **The same statements up to lines.** -/
def AllAlike (ss ts : List Stmt) : Prop :=
  ts.map withoutLines = ss.map withoutLines

theorem Alike.eq {s t : Stmt} (h : s.Alike t) : t.withoutLines = s.withoutLines :=
  h

theorem AllAlike.eq {ss ts : List Stmt} (h : AllAlike ss ts) :
    ts.map withoutLines = ss.map withoutLines :=
  h

@[simp] theorem listWithoutLines_eq_map (ss : List Stmt) :
    listWithoutLines ss = ss.map withoutLines := by
  induction ss with
  | nil => rfl
  | cons s ss ih => rw [listWithoutLines, ih, List.map_cons]

end Stmt

end LiquidTemplate
