import LiquidTemplate.Proofs.RoundTrip.Operators

/-!
# Expressions are found again

The grammar of every environment gives back each expression from its tokens, up to lines.

* `expression_of_full`: with every subexpression in parentheses.
* `Formula`, `expression_of_sparse`: operators with those parentheses only that their levels need.
-/

namespace LiquidTemplate

open LiquidTemplate.Parser LiquidTemplate.Grammar

variable {e : Expr} {s : ParserState}

/-- **The whole grammar** reads an expression from its tokens up to the end of the template. -/
theorem Expr.Readable.expression (he : e.Readable) (env : Environment) (st : Style)
    (hs : s.ahead = e.written st ++ [.mark .endOfTemplate]) :
    ∃ x t, env.grammar.expression true true s = .ok x t ∧ t.ahead = [.mark .endOfTemplate] ∧
      t.stream.tokens <:+ s.stream.tokens ∧ e.Alike x := by
  have hread := (he.found env st).legible.2 s.weight 0 (.mark .endOfTemplate) [] (Nat.zero_le _)
    (Nat.zero_le _) (Token.Kind.stops rfl 0) nofun
  exact hread s hs (Nat.le_refl _)

/-- **Round trip of expressions.** An expression that is written with all its subexpressions in
parentheses is read up to the end of the template, and no further, and is the same up to lines. -/
theorem expression_of_full (env : Environment) (he : e.Readable)
    (hs : s.ahead = e.written .full ++ [.mark .endOfTemplate]) :
    ∃ x t, env.grammar.expression true true s = .ok x t ∧ t.ahead = [.mark .endOfTemplate] ∧
      t.stream.tokens <:+ s.stream.tokens ∧ e.Alike x :=
  he.expression env .full hs

/-- The state before a list of kinds, all on one line, and the end of the template. -/
def ParserState.before (ks : List Token.Kind) : ParserState :=
  { stream := .ofTokens (ks.map fun k => ⟨k, 1, .point 0⟩) none none }

/-- `((x)[(1):])|f((y))` is found again. -/
theorem expression_of_full_slice :
    let e : Expr := .filter (some (.item (.name "x" .load 1)
      (.slice (some (.const (.int 1) 1)) none none 1) 1)) "f" { positional := [.name "y" .load 1] } 1
    let s := ParserState.before [.symbol .lParen, .symbol .lParen, .name "x", .symbol .rParen,
      .symbol .lBracket, .symbol .lParen, .integer 1, .symbol .rParen, .symbol .colon,
      .symbol .rBracket, .symbol .rParen, .symbol .pipe, .name "f", .symbol .lParen,
      .symbol .lParen, .name "y", .symbol .rParen, .symbol .rParen]
    ∃ x t, (Environment.grammar {}).expression true true s = .ok x t ∧
      t.ahead = [.mark .endOfTemplate] ∧ t.stream.tokens <:+ s.stream.tokens ∧ e.Alike x := by
  have hname (n : String) (hn : n ∉ Expr.reservedNames) : (Expr.name n .load 1).Readable := .name hn
  refine expression_of_full {} (.filter (.item (hname "x" (by decide)) nofun ?_ ?_) ?_) ?_
  · intro e he hslice
    obtain rfl := List.mem_singleton.1 he
    nomatch hslice
  · intro e he _ x hx
    obtain rfl := List.mem_singleton.1 he
    obtain rfl := List.mem_singleton.1 hx
    exact .const
  · intro e he
    obtain rfl := List.mem_singleton.1 he
    exact hname "y" (by decide)
  · have hf : nameKinds "f" = [.name "f"] := nameKinds_eq_singleton (by decide)
    simp only [Expr.written, hf]
    rfl

/-! ### Only the parentheses that are needed -/

/-- **Formulas**: operators, conditionals and filters without arguments on names and constants. -/
inductive Formula : Expr → Prop
  | const {value line} : Formula (.const value line)
  | name {n line} (hn : n ∉ Expr.reservedNames) : Formula (.name n .load line)
  | conditional {cond yes no line} (hc : Formula cond) (hy : Formula yes)
      (hn : ∀ e ∈ no, Formula e) : Formula (.conditional cond yes no line)
  | or {left right line} (hl : Formula left) (hr : Formula right) : Formula (.or left right line)
  | and {left right line} (hl : Formula left) (hr : Formula right) : Formula (.and left right line)
  | not {node line} (hn : Formula node) : Formula (.not node line)
  | compare {e operands line} (he : Formula e) (hl : operands ≠ [])
      (ho : ∀ o ∈ operands, Formula o.expr) : Formula (.compare e operands line)
  | binary {op left right line} (hl : Formula left) (hr : Formula right) :
      Formula (.binary op left right line)
  | concat {nodes line} (hl : 2 ≤ nodes.length) (hn : ∀ e ∈ nodes, Formula e) :
      Formula (.concat nodes line)
  | neg {node line} (hn : Formula node) : Formula (.neg node line)
  | pos {node line} (hn : Formula node) : Formula (.pos node line)
  | filter {node n line} (hn : Formula node) : Formula (.filter (some node) n {} line)

theorem Formula.readable (he : Formula e) : e.Readable := by
  induction he with
  | const => exact .const
  | name hn => exact .name hn
  | conditional _ _ _ ihc ihy ihn => exact .conditional ihc ihy ihn
  | or _ _ ihl ihr => exact .or ihl ihr
  | and _ _ ihl ihr => exact .and ihl ihr
  | not _ ih => exact .not ih
  | compare _ hl _ ihe iho => exact .compare ihe hl iho
  | binary _ _ ihl ihr => exact .binary ihl ihr
  | concat hl _ ih => exact .concat hl ih
  | neg _ ih => exact .neg ih
  | pos _ ih => exact .pos ih
  | filter _ ih => exact .filter ih nofun

/-- **Precedence and grouping.** A formula that is written with parentheses only around operands
that bind more loosely than their places allow is read to the end, and is the same up to lines. -/
theorem expression_of_sparse (env : Environment) (he : Formula e)
    (hs : s.ahead = e.written .sparse ++ [.mark .endOfTemplate]) :
    ∃ x t, env.grammar.expression true true s = .ok x t ∧ t.ahead = [.mark .endOfTemplate] ∧
      t.stream.tokens <:+ s.stream.tokens ∧ e.Alike x :=
  he.readable.expression env .sparse hs

/-- `-a|f ** -(b|g)` is the power of a filter and of a sign. -/
theorem expression_of_sparse_power :
    let a : Expr := .filter (some (.neg (.name "a" .load 1) 1)) "f" {} 1
    let b : Expr := .neg (.filter (some (.name "b" .load 1)) "g" {} 1) 1
    let s := ParserState.before [.symbol .sub, .name "a", .symbol .pipe, .name "f", .symbol .pow,
      .symbol .sub, .symbol .lParen, .name "b", .symbol .pipe, .name "g", .symbol .rParen]
    ∃ x t, (Environment.grammar {}).expression true true s = .ok x t ∧
      t.ahead = [.mark .endOfTemplate] ∧ t.stream.tokens <:+ s.stream.tokens ∧
      (Expr.binary .pow a b 1).Alike x := by
  have hname (n : String) (hn : n ∉ Expr.reservedNames) : Formula (.name n .load 1) := .name hn
  refine expression_of_sparse {} (.binary (.filter (.neg (hname "a" (by decide))))
    (.neg (.filter (hname "b" (by decide))))) ?_
  have hf : nameKinds "f" = [.name "f"] := nameKinds_eq_singleton (by decide)
  have hg : nameKinds "g" = [.name "g"] := nameKinds_eq_singleton (by decide)
  simp only [Expr.written, hf, hg]
  rfl

end LiquidTemplate
