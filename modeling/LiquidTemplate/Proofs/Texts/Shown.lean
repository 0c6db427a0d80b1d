import LiquidTemplate.Token
import LiquidTemplate.Tree.Walk

/-!
# Texts of templates

The text of a template is in the data tokens, and in the tree it is in the expressions of text that
a walk meets. Only one kind of tag drops text: what stands between a `case` tag and its first branch
is not part of any statement.

* `Expr.texts`, `Stmt.texts`, `textsOf`: the texts of a tree with their lines.
* `Expr.Textless`: expressions without text.
* `Place`: whether a tag begins at a place, and which open tags drop the text there.
* `keptTexts`: the texts of the data tokens that are not dropped.
-/

namespace LiquidTemplate

/-- **Texts** with their lines. -/
abbrev Texts :=
  List (String × Nat)

/-! ### Texts in trees -/

namespace Expr

/-- The text that an expression is. -/
def text? : Expr → Option (String × Nat)
  | templateData data line => some (data, line)
  | _ => none

/-- **Texts of an expression**, in the order of a walk. -/
def texts (e : Expr) : Texts :=
  e.walk.filterMap text?

theorem texts_eq (e : Expr) : e.texts = e.text?.toList ++ e.children.flatMap texts := by
  rw [texts, walk_eq, List.filterMap_cons, List.filterMap_flatMap]
  cases e.text? <;> rfl

/-- **An expression without text.** -/
def Textless (e : Expr) : Prop :=
  e.texts = []

/-- A node that is no text has none if there is none below it. -/
theorem Textless.of_children {e : Expr} (he : e.text? = none) (h : ∀ c ∈ e.children, c.Textless) :
    e.Textless := by
  rw [Textless, texts_eq, he]
  exact List.flatMap_eq_nil_iff.2 h

/-- There is no text below a node without text. -/
theorem Textless.children {e c : Expr} (he : e.Textless) (hc : c ∈ e.children) : c.Textless := by
  rw [Textless, texts_eq] at he
  exact List.flatMap_eq_nil_iff.1 (List.append_eq_nil_iff.1 he).2 c hc

theorem flatMap_texts_eq_nil {es : List Expr} (h : ∀ e ∈ es, e.Textless) :
    es.flatMap texts = [] :=
  List.flatMap_eq_nil_iff.2 h

/-- The use of names has nothing to do with text. -/
theorem Textless.setContext {e : Expr} (he : e.Textless) (c : Context) :
    (e.setContext c).Textless := by
  match e with
  | tuple items d l =>
      rw [Expr.setContext, setContexts_eq_map]
      refine .of_children rfl fun x hx => ?_
      obtain ⟨y, hy, rfl⟩ := List.mem_map.1 hx
      exact setContext (he.children hy) c
  | name .. => exact .of_children rfl nofun
  | const .. | templateData .. | internalName .. | list .. | dict .. | member .. | item ..
  | slice .. | call .. | filter .. | test .. | conditional .. | and .. | or .. | not .. | neg ..
  | pos .. | binary .. | concat .. | compare .. => exact he
termination_by e
decreasing_by
  have := List.sizeOf_lt_of_mem hy
  simp only [tuple.sizeOf_spec]
  omega

end Expr

/-- The text that a node is. -/
def Node.text? (n : Node) : Option (String × Nat) :=
  n.expr?.bind Expr.text?

/-- **Texts of a statement**, in the order of a walk. -/
def Stmt.texts (s : Stmt) : Texts :=
  s.walk.filterMap Node.text?

/-- **Texts of a template**: those of the nodes that a walk meets. -/
def textsOf (body : List Stmt) : Texts :=
  (walkAll body).filterMap Node.text?

theorem textsOf_eq (body : List Stmt) : textsOf body = body.flatMap Stmt.texts := by
  rw [textsOf, walkAll, List.filterMap_flatMap]
  rfl

theorem textsOf_singleton (s : Stmt) : textsOf [s] = s.texts := by
  rw [textsOf_eq, List.flatMap_singleton]

theorem textsOf_append (body more : List Stmt) :
    textsOf (body ++ more) = textsOf body ++ textsOf more := by
  simp [textsOf_eq]

/-- The texts of a statement are those of its expressions and those of its inner statements. -/
theorem Stmt.texts_eq (s : Stmt) :
    s.texts = s.exprs.flatMap Expr.texts ++ textsOf s.body := by
  have hexprs (es : List Expr) :
      (es.map Node.expr).filterMap Node.text? = es.filterMap Expr.text? := by
    rw [List.filterMap_map]
    rfl
  rw [texts, walk_eq, List.filterMap_cons_none rfl, List.filterMap_append, hexprs,
    List.filterMap_flatMap, textsOf, walkAll]
  rfl

/-- A statement whose expressions are without text has only the texts of its inner statements. -/
theorem Stmt.texts_eq_body {s : Stmt} (h : ∀ e ∈ s.exprs, e.Textless) :
    s.texts = textsOf s.body := by
  rw [texts_eq, Expr.flatMap_texts_eq_nil h, List.nil_append]

/-! ### Texts in tokens -/

/-- The text of a data token. -/
def Token.text? (t : Token) : Option (String × Nat) :=
  match t.kind with
  | .data data => some (data, t.line)
  | _ => none

/-- **Place among the tokens**: whether a tag begins there, so that the next token is its name; and
of each open tag that can have alternatives, the innermost first, whether it drops the text that
stands directly in it. -/
structure Place where
  atTag : Bool := false
  drops : List Bool := []

namespace Place

/-- What is dropped behind the name of a tag. A `case` tag drops text if `dropping`, up to its first
branch or its end. -/
def dropsBehind (dropping : Bool) (tag : String) (drops : List Bool) : List Bool :=
  match tag with
  | "for" | "if" | "unless" => false :: drops
  | "case" => dropping :: drops
  | "when" | "else" =>
    match drops with
    | [] => []
    | _ :: outer => false :: outer
  | "endfor" | "endif" | "endunless" | "endcase" => drops.tail
  | _ => drops

/-- The place behind a token. -/
def next (dropping : Bool) (p : Place) (k : Token.Kind) : Place :=
  match k with
  | .mark .blockBegin => ⟨true, p.drops⟩
  | .name tag => ⟨false, if p.atTag then dropsBehind dropping tag p.drops else p.drops⟩
  | _ => ⟨false, p.drops⟩

/-- The texts that are left of those that stand at a place. -/
def kept (p : Place) (texts : Texts) : Texts :=
  if p.drops.any id then [] else texts

@[simp] theorem kept_nil (p : Place) : p.kept [] = [] :=
  ite_self []

theorem kept_append (p : Place) (a b : Texts) : p.kept (a ++ b) = p.kept a ++ p.kept b := by
  unfold kept
  split <;> rfl

end Place

/-- **Texts that are kept** of the data tokens of a list, which begins at a place. -/
def keptFrom (dropping : Bool) : Place → List Token → Texts
  | _, [] => []
  | p, t :: ts => p.kept t.text?.toList ++ keptFrom dropping (p.next dropping t.kind) ts

/-- **Texts of a template that are kept**: of all data tokens but those that stand between a `case`
tag and its first branch or its end. -/
def keptTexts (tokens : List Token) : Texts :=
  keptFrom true {} tokens

end LiquidTemplate
