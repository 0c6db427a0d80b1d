import LiquidTemplate.Proofs.Errors.Lexing
import LiquidTemplate.Proofs.Forms.Statements
import LiquidTemplate.Proofs.Progress.Grammars
import LiquidTemplate.Proofs.Scanning.Constructs

/-!
# Lines of expressions

The lines of the tokens of a template do not fall, and the tokens of a range literal are all on its
line. The line of an expression is that of a token which is consumed for it, so it lies between the
lines of the first and of the last of them. Only a chain of comparisons is on the line of the token
behind it.

* `Token.Ordered`, `Source.ordered`: the lines of tokens.
* `Expr.Placed`, `Expr.Consumes.placed`: the line of one node.
* `Lowered.consumed`: every expression of a template is a node of which tokens are consumed.
* `lines_of_template`: the lines of all expressions.
-/

namespace LiquidTemplate

open LiquidTemplate.Grammar Text

variable {tokens source ts us first stop : List Token} {t u : Token} {own : Option String} {e : Expr}
  {ps : List Piece} {m n l : Nat} {ss : List Stmt} {d : Delimiters} {a b : String}

/-! ### Lines of tokens -/

/-- **On one line** there is only the line of the cursor. -/
theorem Cursor.Yields.line_eq {c : Cursor} (h : c.Yields t) (hflat : newlines c.rest = 0) :
    t.line = c.line := by
  cases h with
  | token hd _ _ =>
    obtain ⟨taken, rest, hrest, rfl⟩ := hd
    rw [hrest, newlines_append] at hflat
    show c.line + newlines taken = c.line
    omega

/-- **Tokens in the order of their lines.** The bounds of their range literals are in one line each. -/
structure Token.Ordered (tokens : List Token) : Prop where
  lines : tokens.Pairwise fun t u => t.line ≤ u.line
  bounds : ∀ t ∈ tokens, ∀ text, t.HasBound text → newlines text.toList = 0

/-- Tokens in the order of their places are in that of their lines. -/
theorem line_le_of_stands {cs before shown before' shown' : List Char}
    (ht : t.Stands cs before shown) (hu : u.Stands cs before' shown') (h : t.span.hi ≤ u.span.lo) :
    t.line ≤ u.line := by
  obtain ⟨behind, hcs⟩ := ht.text
  obtain ⟨behind', hcs'⟩ := hu.text
  rw [List.append_assoc] at hcs hcs'
  have hpre : before <+: before' := by
    rw [ht.span, hu.span] at h
    rcases List.prefix_or_prefix_of_prefix ⟨_, hcs.symm⟩ ⟨_, hcs'.symm⟩ with h' | ⟨more, rfl⟩
    · exact h'
    · have hle : byteSize (before' ++ more ++ shown) ≤ byteSize before' := h
      rw [byteSize_append, byteSize_append] at hle
      have hmore : more = [] := by
        by_contra hne
        have hpos := byteSize_pos hne
        omega
      rw [hmore, List.append_nil]
  obtain ⟨more, rfl⟩ := hpre
  rw [ht.line, hu.line, newlines_append]
  omega

theorem Faithful.lines {cs : List Char} {previous : Option TokenType} {lo : Nat}
    (h : Faithful d cs previous lo tokens) : tokens.Pairwise fun t u => t.line ≤ u.line := by
  induction h with
  | nil => exact .nil
  | cons hstands _ _ rest ih =>
    refine .cons (fun u hu => ?_) ih
    obtain ⟨front, back, htokens⟩ := List.append_of_mem hu
    obtain ⟨before', shown', hstands', -⟩ := rest.split htokens
    exact line_le_of_stands hstands hstands' (rest.lo_le u hu)

/-- **The tokens of a template** are in the order of their lines. -/
theorem ordered_ofTemplate {text : String} (h : Token.ofTemplate d text = .ok tokens) :
    Token.Ordered tokens := by
  have hfaithful : Faithful d (d.textOf text) none 0 tokens :=
    (course_of_ok h).faithful (Cursor.at_start _) (Nat.le_refl _)
  refine ⟨hfaithful.lines, fun t ht bound hbound => ?_⟩
  exact ((yields_of_templateTokens h t ht).bound hbound).1

/-- **The tokens of a range literal** are on its line. -/
theorem line_of_range (h : Token.Ordered ts) (ht : t ∈ ts) (hkind : t.kind = .range a b)
    (hfirst : Token.ofExpression a t.line t.span.lo = .ok first)
    (hstop : Token.ofExpression b t.line t.span.lo = .ok stop) :
    ∀ u ∈ TokenStream.close (rangeTokens t first stop), u.line = t.line ∧
      ∀ text, u.HasBound text → newlines text.toList = 0 := by
  have hbound {text : String} {inner : List Token} (htext : t.HasBound text)
      (hinner : Token.ofExpression text t.line t.span.lo = .ok inner) (u : Token) (hu : u ∈ inner) :
      u.line = t.line ∧ ∀ text, u.HasBound text → newlines text.toList = 0 := by
    have hyields := yields_of_ofExpression hinner u hu
    exact ⟨hyields.line_eq (h.bounds t ht text htext), fun _ hu => (hyields.bound hu).1⟩
  intro u hu
  have hcases : u ∈ rangeTokens t first stop ∨ u = TokenStream.endAfter (rangeTokens t first stop) := by
    unfold TokenStream.close at hu
    split at hu
    · exact .inl hu
    · exact (List.mem_append.1 hu).imp_right List.mem_singleton.1
  rcases hcases with hu | rfl
  · rcases mem_rangeTokens hu with hu | hu | ⟨hline, hno⟩
    · exact hbound ⟨a, b, hkind, .inl rfl⟩ hfirst u hu
    · exact hbound ⟨a, b, hkind, .inr rfl⟩ hstop u hu
    · exact ⟨hline, fun text htext => absurd htext (hno text)⟩
  · refine ⟨endAfter_rangeTokens t first stop, ?_⟩
    rintro text ⟨a', b', hk, -⟩
    have hmark := Token.isEnd_iff.1 (TokenStream.isEnd_endAfter (rangeTokens t first stop))
    rw [hmark] at hk
    nomatch hk

/-- **All lists of tokens** that are read for a template are in order. -/
theorem Token.Source.ordered (h : Token.Source tokens source) (htokens : Token.Ordered tokens) :
    Token.Ordered source := by
  induction h with
  | template => exact htokens
  | range _ ht hkind hfirst hstop ih =>
    have hline := line_of_range ih ht hkind hfirst hstop
    refine ⟨List.pairwise_of_forall_mem_list fun u hu v hv => ?_, fun u hu => (hline u hu).2⟩
    exact Nat.le_of_eq ((hline u hu).1.trans (hline v hv).1.symm)

/-! ### Lines of nodes -/

/-- **Between the tokens** `ts` before `us`: not before the line of the first of them and not behind
that of the last. -/
def Between (ts us : List Token) (l : Nat) : Prop :=
  ∃ consumed first last, ts = consumed ++ us ∧ consumed.head? = some first ∧
    consumed.getLast? = some last ∧ first.line ≤ l ∧ l ≤ last.line

theorem LineIn.between (h : LineIn ts us l) (hsource : Token.Ordered source) (hts : ts <:+ source) :
    Between ts us l := by
  obtain ⟨t, rest, ⟨before, rfl⟩, ⟨behind, rfl⟩, rfl⟩ := h
  have hlines := hsource.lines.sublist hts.sublist
  have hconsumed : before ++ t :: (behind ++ us) = (before ++ t :: behind) ++ us := by simp
  rw [hconsumed] at hlines ⊢
  have hlines := (List.pairwise_append.1 hlines).1
  obtain ⟨hbefore, hbehind, hacross⟩ := List.pairwise_append.1 hlines
  have hfirst : ∃ first, (before ++ t :: behind).head? = some first ∧ first.line ≤ t.line := by
    cases before with
    | nil => exact ⟨t, rfl, Nat.le_refl _⟩
    | cons u before => exact ⟨u, rfl, hacross u List.mem_cons_self t List.mem_cons_self⟩
  have hlast : ∃ last, (before ++ t :: behind).getLast? = some last ∧ t.line ≤ last.line := by
    rw [List.getLast?_append, List.getLast?_cons]
    cases hbehind' : behind.getLast? with
    | none => exact ⟨t, rfl, Nat.le_refl _⟩
    | some u =>
      exact ⟨u, rfl, (List.pairwise_cons.1 hbehind).1 u (List.mem_of_getLast? hbehind')⟩
  obtain ⟨first, hfirst, hle⟩ := hfirst
  obtain ⟨last, hlast, hle'⟩ := hlast
  exact ⟨_, first, last, rfl, hfirst, hlast, hle, hle'⟩

/-- **Lines of nodes** for which the tokens `ts` before `us` are consumed: between them, but for chains
of comparisons. Those, and the negation that a tag puts around one, are on the line of the next
token. -/
inductive Expr.Placed (ts us : List Token) : Expr → Prop where
  | between {e : Expr} (h : Between ts us e.line) : Placed ts us e
  | compare {e : Expr} {os : List (Operand Expr)} {t : Token} {rest : List Token}
      (h : us = t :: rest) : Placed ts us (.compare e os t.line)
  | negation {e : Expr} {os : List (Operand Expr)} {t : Token} {rest : List Token}
      (h : us = t :: rest) : Placed ts us (.not (.compare e os t.line) t.line)

/-- **One expression that tokens form**: it is laid out by them, or between parentheses, or it is that
of a range literal, whose tokens are on one line. -/
theorem Forms.lined (h : Forms ts us ps) (hps : ps = [.expr e]) (hts : ts <:+ source)
    (hsource : Token.Ordered source) : e.Lined ts us := by
  have hnothing {ts us : List Token} (h : Forms ts us []) : ts = us := by
    cases h
    rfl
  induction h generalizing source e with
  | nil => nomatch hps
  | token => nomatch hps
  | expr _ hline _ rest _ _ =>
    obtain ⟨rfl, rfl⟩ := List.cons.inj hps |>.imp_left Piece.expr.inj
    exact hnothing rest ▸ hline
  | @parentheses l r ts us vs e' qs _ _ inner rest ih _ =>
    obtain ⟨rfl, rfl⟩ := List.cons.inj hps |>.imp_left Piece.expr.inj
    obtain rfl := hnothing rest
    have houter := List.suffix_cons l ts
    cases ih rfl (houter.trans hts) hsource with
    | inside h => exact .inside (h.mono houter (List.suffix_cons r us))
    | behind h =>
      obtain ⟨rfl, -⟩ := List.cons.inj h
      exact .inside ⟨r, us, inner.suffix.trans houter, List.suffix_refl _, rfl⟩
  | @range t last ts vs rest first stop a b e' qs hkind hfirst hstop inner _ outer ih _ =>
    obtain ⟨rfl, rfl⟩ := List.cons.inj hps |>.imp_left Piece.expr.inj
    obtain rfl := hnothing outer
    have ht : t ∈ source := hts.subset List.mem_cons_self
    have hline := line_of_range hsource ht hkind hfirst hstop
    have hordered : Token.Ordered (TokenStream.close (rangeTokens t first stop)) :=
      (Token.Source.range .template ht hkind hfirst hstop).ordered hsource
    have hsame : e'.line = t.line := by
      cases ih rfl (List.suffix_refl _) hordered with
      | inside h =>
        obtain ⟨u, behind, hsuf, -, hu⟩ := h
        exact hu ▸ (hline u (hsuf.subset List.mem_cons_self)).1
      | behind h =>
        obtain ⟨rfl, -⟩ := List.cons.inj h
        exact (hline last (inner.suffix.subset List.mem_cons_self)).1
    exact .inside ⟨t, ts, List.suffix_refl _, List.suffix_refl _, hsame.symm⟩

/-- **The line of a node** for which tokens are consumed. -/
theorem Expr.Consumes.placed (h : e.Consumes own ts us) (hts : ts <:+ source)
    (hsource : Token.Ordered source) : e.Placed ts us := by
  have hfirst {t : Token} {ts us : List Token} (h : us <:+ ts) (hts : t :: ts <:+ source) :
      Between (t :: ts) us t.line :=
    LineIn.between ⟨t, ts, List.suffix_refl _, h, rfl⟩ hsource hts
  cases h with
  | read h =>
    cases h.lined with
    | inside hline => exact .between (hline.between hsource hts)
    | behind hus => exact .compare hus
  | text hk => exact .between (hfirst (List.suffix_refl _) hts)
  | negation h =>
    cases h.lined rfl hts hsource with
    | inside hline => exact .between (hline.between hsource hts)
    | behind hus => exact .negation hus
  | @modifier t ts vs us iter e h hus he =>
    have hline : e.line = iter.line := by
      cases he <;> rfl
    refine .between (hline ▸ ?_)
    cases h.lined rfl hts hsource with
    | inside h' =>
        exact (h'.mono (List.suffix_refl _) (hus.trans (List.suffix_cons _ _))).between hsource hts
    | behind h' =>
      obtain ⟨rfl, -⟩ := List.cons.inj h'
      exact LineIn.between ⟨t, vs, h.suffix, hus, rfl⟩ hsource hts
  | capitals h => exact .between (hfirst h.suffix hts)
  | subject _ h => exact .between (hfirst h hts)
  | comparison _ h _ => exact .between (hfirst h hts)
  | either _ h _ _ => exact .between (hfirst h hts)

/-! ### Templates -/

/-- **What a walk meets in a chain of conditions**: the conditions, and what is in their tests and in
the bodies. -/
theorem mem_walkAll_caseChain {x : Node} {subject : String} {branches : List CaseBranch}
    {fallback : List Stmt} (h : x ∈ walkAll (caseChain subject branches fallback)) :
    (∃ b ∈ branches, ∃ test, b.test? subject = some test ∧
        ((∃ otherwise, x = .stmt (.ifThen test b.body otherwise b.line)) ∨
          ∃ d ∈ test.walk, x = .expr d)) ∨
      x ∈ walkAll (branches.flatMap CaseBranch.body ++ fallback) := by
  induction branches with
  | nil => exact .inr h
  | cons b branches ih =>
    rw [List.flatMap_cons, List.append_assoc, walkAll_append, List.mem_append]
    have hrest (h : x ∈ walkAll (caseChain subject branches fallback)) :=
      (ih h).imp (Exists.imp fun _ hb => hb.imp_left (List.mem_cons_of_mem b))
        (Or.inr (a := x ∈ walkAll b.body))
    rw [caseChain, List.foldr_cons] at h
    cases htest : b.test? subject with
    | none =>
      rw [htest] at h
      exact hrest h
    | some test =>
      rw [htest] at h
      rcases mem_walkAll_cons h with rfl | ⟨e, he, d, hd, rfl⟩ | h | h
      · exact .inl ⟨b, List.mem_cons_self, test, htest, .inl ⟨_, rfl⟩⟩
      · obtain rfl := List.mem_singleton.1 he
        exact .inl ⟨b, List.mem_cons_self, e, htest, .inr ⟨d, hd, rfl⟩⟩
      · rw [show (Stmt.ifThen test b.body _ b.line).body = b.body ++ _ from rfl, walkAll_append,
          List.mem_append] at h
        exact h.elim (.inr ∘ .inl) hrest
      · cases h

/-- **Every expression** of the statements of a template is a node for which tokens are consumed. -/
theorem Lowered.consumed (h : Lowered tokens m n ss) (he : .expr e ∈ walkAll ss) :
    ∃ own, e.ConsumedIn tokens own := by
  induction h with
  | nil => nomatch he
  | plain hfit _ _ ih ih' =>
    rcases mem_walkAll_cons he with heq | ⟨y, hy, x, hx, heq⟩ | he | he
    · nomatch heq
    · obtain rfl := Node.expr.inj heq
      exact ⟨none, hfit.exprs y hy e hx⟩
    · exact ih he
    · exact ih' he
  | case _ hfit _ _ ih ih' =>
    rcases mem_walkAll_cons he with heq | ⟨y, hy, x, hx, heq⟩ | he | he
    · nomatch heq
    · obtain rfl := Node.expr.inj heq
      rcases List.mem_pair.1 hy with rfl | rfl
      · exact ⟨_, hfit.target e hx⟩
      · exact ⟨_, hfit.subject e hx⟩
    · nomatch he
    · rw [walkAll_append, List.mem_append] at he
      rcases he with he | he
      · rcases mem_walkAll_caseChain he with ⟨b, hb, test, htest, ⟨_, heq⟩ | ⟨x, hx, heq⟩⟩ | he
        · nomatch heq
        · obtain rfl := Node.expr.inj heq
          exact ⟨_, hfit.tests b hb test htest e hx⟩
        · exact ih he
      · exact ih' he

/-- **Lines of expressions.** For every expression of a template tokens are consumed, of the template or
of a range literal in it, and its line lies between that of the first and that of the last of them. Only
a chain of comparisons, and the negation that `unless` puts around one, is on the line of the token
behind them. -/
theorem lines_of_template {env : Environment} (hext : ∀ x ∈ env.extensions, x.Known) {text : String}
    {name filename : Option String} {body : List Stmt}
    (h : env.parseTemplate text name filename = .ok body) :
    ∃ tokens, Token.ofTemplate env.delimiters text = .ok tokens ∧
      ∀ e, .expr e ∈ walkAll body → ∃ own source ts us, Token.Source tokens source ∧
        ts <:+ source ∧ us <:+ ts ∧ e.Consumes own ts us ∧ e.Placed ts us := by
  obtain ⟨tokens, n, htokens, hlowered⟩ := lowered_of_template hext h
  refine ⟨tokens, htokens, fun e he => ?_⟩
  obtain ⟨own, source, ts, us, hsource, hts, hus, hconsumes⟩ := hlowered.consumed he
  have hordered := hsource.ordered (ordered_ofTemplate htokens)
  exact ⟨own, source, ts, us, hsource, hts, hus, hconsumes, hconsumes.placed hts hordered⟩

/-- A chain of comparisons on the first line that is on the line of the end of its tag, the second
one. -/
theorem lines_of_template_compare :
    let env : Environment := {}
    let text := "\x7b\x7b a == b\n\x7d\x7d"
    let e : Expr := .compare (.name "a" .load 1) [⟨.eq, .name "b" .load 1⟩] 2
    env.parseTemplate text none none = .ok [.output [e] 2] ∧
      ∃ tokens, Token.ofTemplate env.delimiters text = .ok tokens ∧
        ∃ own source ts us, Token.Source tokens source ∧ ts <:+ source ∧ us <:+ ts ∧
          e.Consumes own ts us ∧ e.Placed ts us := by
  intro env text e
  let tokens : List Token := [⟨.mark .variableBegin, 1, ⟨0, 2⟩⟩, ⟨.name "a", 1, ⟨3, 4⟩⟩,
    ⟨.symbol .eq, 1, ⟨5, 7⟩⟩, ⟨.name "b", 1, ⟨8, 9⟩⟩, ⟨.mark .variableEnd, 2, ⟨10, 12⟩⟩,
    ⟨.mark .endOfTemplate, 2, ⟨12, 12⟩⟩]
  have htokens : Token.ofTemplate env.delimiters text = .ok tokens := by cbv
  have hstream : env.parseStream (.ofTokens tokens none none) = .ok [.output [e] 2] := by cbv
  have hparse := (parseTemplate_eq none none htokens).trans hstream
  have hmem : .expr e ∈ walkAll [.output [e] 2] := by
    rw [walkAll, List.flatMap_singleton, Stmt.walk_eq, Stmt.exprs, List.flatMap_singleton,
      Expr.walk_eq]
    exact List.mem_cons_of_mem _ List.mem_cons_self
  obtain ⟨tokens', htokens', hlines⟩ := lines_of_template (fun _ hx => absurd hx List.not_mem_nil) hparse
  exact ⟨hparse, tokens', htokens', hlines e hmem⟩

end LiquidTemplate
