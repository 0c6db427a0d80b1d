import LiquidTemplate.Proofs.RoundTrip.Tags
import LiquidTemplate.Proofs.RoundTrip.Expressions

/-!
# Statements are found again

The grammar of an environment gives back canonical statements from their tokens, up to lines. The
induction is on the statements: each is read from its tag on, as its bodies are made of statements
that are.

* `Stmt.Canonical.placeable`: canonical statements are read in every body.
* `parseStream_written`: the statements of a whole template.
-/

namespace LiquidTemplate

open LiquidTemplate.Parser LiquidTemplate.Grammar

variable {env : Environment} {elses : Bool} {e : Expr} {s : Stmt}

/-- What an output shows is read as part of a body. -/
theorem Expr.Shown.showable (he : e.Shown) : Showable env e := by
  rcases he with he | htext
  · refine .inl ⟨(he.found env .full).legible, ?_⟩
    cases he <;> rfl
  · exact .inr htext

/-- **Canonical statements** are read in every body. -/
theorem Stmt.Canonical.placeable (h : Canonical env s) : Placeable env elses s := by
  induction h with
  | output hne hn => exact ⟨hne, fun e he => (hn e he).showable⟩
  | extendsTemplate ht => exact opens_extendsTemplate ht
  | forLoop ht hi hc _ hsb _ hso ihb iho => exact opens_forLoop ht hi hc ihb hsb iho hso
  | ifThen ht _ hsb _ hso ihb iho => exact opens_ifThen ht ihb hsb iho hso
  | breakLoop => exact opens_breakLoop
  | continueLoop => exact opens_continueLoop
  | withBlock ht hv hl _ hsb ihb => exact opens_withBlock ht hv hl ihb hsb
  | autoescape hv _ hsb ihb => exact opens_autoescape hv ihb hsb
  | block _ hsb ihb => exact opens_block ihb hsb
  | includeTemplate ht => exact opens_includeTemplate ht
  | sectionTemplate ht => exact opens_sectionTemplate ht
  | importTemplate ht hn => exact opens_importTemplate ht hn
  | importNames ht hn => exact opens_importNames ht hn
  | macroBlock hn hp hd hl _ hsb ihb => exact opens_macroBlock hn hp hd hl ihb hsb
  | callBlock hc hp hd hl _ hsb ihb => exact opens_callBlock hc hp hd hl ihb hsb
  | filterBlock hf _ hsb ihb => exact opens_filterBlock hf ihb hsb
  | assign ht hv => exact opens_assign ht hv
  | assignBlock ht _ hsb ihb => exact opens_assignBlock ht ihb hsb
  | expr hn hdo => exact opens_expr hn hdo

/-- **Round trip of statements.** Canonical statements that are written with all expressions in
parentheses are read to the end of the template, and are the same up to lines. -/
theorem parseStream_written (env : Environment) (elses : Bool) {stmts : List Stmt}
    (h : ∀ s ∈ stmts, s.Canonical env) (hsep : Stmt.Separated stmts) {stream : TokenStream}
    (hstream : stream.tokens.map Token.kind =
      Stmt.listWritten elses stmts ++ [.mark .endOfTemplate]) :
    ∃ body, env.parseStream stream = .ok body ∧ Stmt.AllAlike stmts body := by
  have hplaceable (s) (hs : s ∈ stmts) : Placeable env elses s := (h s hs).placeable
  have hg := serves_grammar env (weightOf (stream.tokens.map Token.kind))
  obtain ⟨body, t, hbody, _, _, halike⟩ := reads_template hg hplaceable hsep { stream } hstream
    (Nat.le_of_eq (ParserState.weight_eq _))
  refine ⟨body, ?_, halike⟩
  rw [Environment.parseStream, hbody]

/-- A loop over `y` as far as `z` holds that shows text and `x`, and does `x` if there is nothing to
loop over. -/
theorem parseStream_written_loop :
    let env : Environment := ({} : Environment).withExtension .doExpr
    let name (n : String) : Expr := .name n .load 1
    let loop : Stmt := .forLoop (.name "x" .store 1) (name "y")
      [.output [.templateData "a" 1, name "x"] 1] [.expr (name "x") 1] (some (name "z")) false 1
    let stream : TokenStream := .ofTokens ([.mark .blockBegin, .name "for", .symbol .lParen,
      .name "x", .symbol .rParen, .name "in", .symbol .lParen, .name "y", .symbol .rParen,
      .name "if", .symbol .lParen, .name "z", .symbol .rParen, .mark .blockEnd, .data "a",
      .mark .variableBegin, .symbol .lParen, .name "x", .symbol .rParen, .mark .variableEnd,
      .mark .blockBegin, .name "else", .mark .blockEnd, .mark .blockBegin, .name "do",
      .symbol .lParen, .name "x", .symbol .rParen, .mark .blockEnd, .mark .blockBegin,
      .name "endfor", .mark .blockEnd].map fun k => ⟨k, 1, .point 0⟩) none none
    ∃ body, env.parseStream stream = .ok body ∧ Stmt.AllAlike [loop] body := by
  have hname (n : String) (hn : n ∉ Expr.reservedNames) : (Expr.name n .load 1).Readable := .name hn
  refine parseStream_written _ false ?_ ?_ ?_
  · intro s hs
    obtain rfl := List.mem_singleton.1 hs
    refine .forLoop (.name (by decide)) (hname "y" (by decide)) ?_ ?_ trivial ?_ trivial
    · intro e he
      obtain rfl := Option.some.inj he
      exact hname "z" (by decide)
    · intro t ht
      obtain rfl := List.mem_singleton.1 ht
      refine .output nofun fun e he => ?_
      rcases List.mem_cons.1 he with rfl | he
      · exact .inr ⟨"a", 1, rfl, by decide⟩
      · obtain rfl := List.mem_singleton.1 he
        exact .inl (hname "x" (by decide))
    · intro t ht
      obtain rfl := List.mem_singleton.1 ht
      exact .expr (hname "x" (by decide)) rfl
  · trivial
  · rfl

end LiquidTemplate
