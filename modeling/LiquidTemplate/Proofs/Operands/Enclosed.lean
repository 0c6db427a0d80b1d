import LiquidTemplate.Proofs.Exchange.Grammars
import LiquidTemplate.Proofs.RoundTrip.Expressions

/-!
# Expressions in parentheses

Tokens that are one expression by themselves are the same expression in parentheses, wherever one can
stand. They are any such tokens, not only those that a printer writes, so that nothing is known of the
first and the last of them.

* `Environment.Spells`: tokens that are one expression, up to the end of the template.
* `Enclosed`: such tokens, to be put in parentheses, and their tree.
* `Enclosed.ReadBy`: a grammar that reads them in parentheses.
* `Spells.readBy_below`, `Spells.readBy_grammar`: the grammars of an environment.
-/

namespace LiquidTemplate

open LiquidTemplate.Parser LiquidTemplate.Grammar

variable {env : Environment} {n : Nat} {g : Grammar} {e : Expr} {conditional filters : Bool}
  {rest ks : List Token.Kind} {k : Token.Kind} {post : Expr → Prop}

/-! ### Tokens that are one expression -/

/-- **Tokens that are one expression**: from somewhere where these tokens and the end of the template
are ahead, the grammar reads the expression up to that end. -/
def Environment.Spells (env : Environment) (ks : List Token.Kind) (e : Expr) : Prop :=
  ∃ s x t, s.ahead = ks ++ [.mark .endOfTemplate] ∧ env.grammar.expression true true s = .ok x t ∧
    t.ahead = [.mark .endOfTemplate] ∧ e.Alike x

namespace Environment.Spells

/-- **Before another end** they are the same expression. -/
theorem reads (h : env.Spells ks e) (hk : ∀ tok : Token, tok.kind = k → tok.Stops)
    (htest : (∀ n, k ≠ .name n) ∨ hasBareTest ks = false) :
    Reads n (parseExpression (below env n) true true) (ks ++ k :: rest) (k :: rest) e.Alike := by
  obtain ⟨s, x, t, hs, hx, ht, hex⟩ := h
  have hrun : parseExpression (below env s.weight) true true s = .ok x t := hx
  exact (reads_before hs hrun ht hk htest).imp fun y hy => hy.eq.trans hex.eq

/-- No expression begins at the end of a tuple. -/
theorem begins (h : env.Spells ks e) :
    ∃ l a, ks = l :: a ∧ ∀ line span, isTupleEnd [] ⟨l, line, span⟩ = false := by
  obtain ⟨s, x, t, hs, hx, -, -⟩ := h
  have hrun : parseExpression (below env s.weight) true true s = .ok x t := hx
  have hopen := not_tupleEnd_of_expression hrun
  cases ks with
  | nil =>
    have hmark : s.stream.current.IsMark := ⟨_, (List.cons.inj hs).1⟩
    exact absurd hrun (stuck_expression hmark true true x t)
  | cons l a =>
    refine ⟨l, a, rfl, fun line span => ?_⟩
    rw [← hopen]
    exact Exchange.isTupleEnd_congr (List.cons.inj hs).1.symm

/-- Between parentheses, where a tuple could stand. -/
theorem tuple (h : env.Spells ks e) :
    Reads n (parseTuple (below env n) (.expression true) [] true) (ks ++ .symbol .rParen :: rest)
      (.symbol .rParen :: rest) e.Alike := by
  have hread : Reads n (parseExpression (below env n) true true) (ks ++ .symbol .rParen :: rest)
      (.symbol .rParen :: rest) e.Alike := h.reads (fun _ ht => .inr (.inr (.inl ht))) (.inl nofun)
  obtain ⟨l, a, rfl, hl⟩ := h.begins
  exact reads_tuple_one hl nofun hread

end Environment.Spells

/-- **What a legible expression is written as** is that expression. -/
theorem Legible.spells (h : Legible env e ks) : env.Spells ks e := by
  let start := ParserState.before (ks ++ [.mark .endOfTemplate])
  have hclosed : start.stream.tokens = TokenStream.close _ := TokenStream.tokens_ofTokens ..
  have hs : start.ahead = ks ++ [.mark .endOfTemplate] := by
    rw [ParserState.ahead, hclosed]
    simp [TokenStream.close, Token.isEnd, Token.isMark, Token.type, Token.Kind.type,
      Function.comp_def]
  obtain ⟨x, t, hx, ht, -, hex⟩ := h.2 start.weight 0 (.mark .endOfTemplate) []
    (Nat.zero_le _) (Nat.zero_le _) (Token.Kind.stops rfl 0) (by rintro ⟨⟩) _ hs (Nat.le_refl _)
  exact ⟨_, x, t, hs, hx, ht, hex⟩

/-- A name is an expression by itself. -/
theorem Environment.spells_name (env : Environment) {name : String} (hn : name ∉ Expr.reservedNames)
    (line : Nat) : env.Spells [.name name] (.name name .load line) :=
  (legible_name hn line).spells

/-! ### In parentheses -/

/-- **An expression in parentheses**: the tokens between them, and what they are. -/
structure Enclosed where
  kinds : List Token.Kind
  tree : Expr

namespace Enclosed

variable {x : Enclosed}

/-- The tokens with their parentheses. -/
def written (x : Enclosed) : List Token.Kind :=
  parens x.kinds

/-- **Read by a grammar**: between parentheses, and with them where an expression can stand. -/
structure ReadBy (x : Enclosed) (n : Nat) (g : Grammar) : Prop where
  group : ∀ rest, ReadsBelow n g.group (x.kinds ++ .symbol .rParen :: rest) (.symbol .rParen :: rest)
    x.tree.Alike
  expression : ∀ {conditional filters : Bool} {k : Token.Kind} (rest : List Token.Kind),
    k.Ends conditional filters → ReadsBelow n (g.expression conditional filters)
      (x.written ++ k :: rest) (k :: rest) x.tree.Alike

/-- **Parentheses before the end of an expression** are the whole expression. -/
theorem reads_of_group (hk : k.Ends conditional filters)
    (h : ReadsBelow n g.group (x.kinds ++ .symbol .rParen :: k :: rest)
      (.symbol .rParen :: k :: rest) post) :
    Reads n (parseExpression g conditional filters) (x.written ++ k :: rest) (k :: rest) post := by
  have hprimary : Reads n (parsePrimary g) (x.written ++ k :: rest) (k :: rest) post := reads_parens h
  intro s hs hw
  obtain ⟨e, t, he, ht, hsuf, hpost⟩ := hprimary s hs hw
  have hkind : s.stream.current.kind = .symbol .lParen := (List.cons.inj hs).1
  have hne {l : Token.Kind} (hl : .symbol .lParen ≠ l) : s.stream.current.kind ≠ l := hkind ▸ hl
  have hend : t.stream.current.kind.Ends conditional filters := by
    rw [(List.cons.inj ht).1]
    exact hk
  refine ⟨e, t, ?_, ht, hsuf, hpost⟩
  exact expression_of_primary_before hend (Token.isSymbol_eq_false (hne nofun))
    (Token.isSymbol_eq_false (hne nofun)) (Token.isName_eq_false (hne nofun)) he

theorem ReadBy.reads (h : x.ReadBy n g) (hk : k.Ends conditional filters) :
    Reads n (parseExpression g conditional filters) (x.written ++ k :: rest) (k :: rest)
      x.tree.Alike :=
  reads_of_group hk (h.group _)

end Enclosed

namespace Environment.Spells

variable {x : Enclosed}

/-- **The bounded grammars** read an expression in parentheses. -/
theorem readBy_below (h : env.Spells x.kinds x.tree) : x.ReadBy n (below env n) := by
  have hgroup (n : Nat) (rest : List Token.Kind) : ReadsBelow n (below env n).group
      (x.kinds ++ .symbol .rParen :: rest) (.symbol .rParen :: rest) x.tree.Alike := by
    rw [below_group]
    exact reads_guarded (p := fun j => parseTuple (below env j) (.expression true) [] true)
      fun j _ => h.tuple
  refine ⟨hgroup n, fun {conditional filters k} rest hk => ?_⟩
  rw [below_expression]
  exact reads_guarded (p := fun j => parseExpression (below env j) conditional filters)
    fun j _ => Enclosed.reads_of_group hk (hgroup j _)

/-- **The grammar of an environment** reads it. -/
theorem readBy_grammar (h : env.Spells x.kinds x.tree) : x.ReadBy n env.grammar := by
  refine ⟨fun rest j _ s hs _ => ?_, fun {conditional filters k} rest hk j _ s hs _ => ?_⟩
  · exact h.tuple s hs (Nat.le_refl s.weight)
  · have hread : Reads s.weight (parseExpression (below env s.weight) conditional filters)
        (x.written ++ k :: rest) (k :: rest) x.tree.Alike := h.readBy_below.reads hk
    exact hread s hs (Nat.le_refl _)

end Environment.Spells

end LiquidTemplate
