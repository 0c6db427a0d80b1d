import LiquidTemplate.Proofs.Exchange.Grammars
import LiquidTemplate.Proofs.RoundTrip.Operators

/-!
# Range literals

The range literal `(a..b)` is read as `(a, b)|range(inclusive=true)` is, if each of its bounds is
an expression by itself. The bounds are checked alone, where their tokens end, and are read again
before a comma and before a parenthesis.

* `Environment.ReadsAlone`: a text that is one expression.
* `reads_consumed`: the tokens of such a text before a comma or a closing parenthesis.
* `found_range`: the tokens of `(a, b)|range(inclusive=true)`.
* `range_literal`: the tree of a range literal.
-/

namespace LiquidTemplate

open LiquidTemplate.Parser LiquidTemplate.Grammar

variable {env : Environment} {m n : Nat} {g : Grammar} {s t : ParserState} {a b e : Expr}
  {ts first last : List Token} {k : Token.Kind} {rest : List Token.Kind} {text start stop : String}
  {tok : Token}

/-! ### Texts that are one expression -/

/-- **Tokens that are one expression**, without conditions and filters, and nothing else. -/
def Grammar.Consumes (g : Grammar) (ts : List Token) (e : Expr) : Prop :=
  ∃ t, g.expression false false { stream := .ofTokens ts none none } = .ok e t ∧
    t.stream.atEnd = true

/-- **A text that is one expression**: it has tokens, and these are one. -/
def Environment.ReadsAlone (env : Environment) (text : String) (e : Expr) : Prop :=
  ∃ ts, Token.ofExpression text 1 0 = .ok ts ∧ ts ≠ [] ∧ env.grammar.Consumes ts e

theorem consumes_below (hend : ∀ t ∈ ts, t.isEnd = false)
    (hn : weightOf (ts.map Token.kind) + 1 < n) :
    (below env n).Consumes ts e ↔ env.grammar.Consumes ts e := by
  have hweight := weight_ofTokens hend none none
  unfold Consumes
  rw [env.expression_eq_below (n := n) (by omega)]

/-- A bound of a range literal is one expression. -/
theorem Grammar.ReadsBound.consumes (h : g.ReadsBound text tok ts) : ∃ e, g.Consumes ts e := by
  obtain ⟨e, u, hu, hend⟩ := h.alone
  exact ⟨e, u, hu, hend⟩

/-- **A bound is an expression** by itself, wherever the literal stands. -/
theorem Grammar.ReadsBound.readsAlone (h : (below env n).ReadsBound text tok ts)
    (hn : 3 * text.utf8ByteSize + 1 < n) : ∃ a, env.ReadsAlone text a := by
  have hweight := weight_ofExpression h.tokens
  obtain ⟨e, he⟩ := h.consumes
  have hunbounded : env.grammar.ReadsBound text tok ts :=
    ⟨h.tokens, h.ne_nil, e, (consumes_below (not_end_ofExpression h.tokens) (by omega)).1 he⟩
  have hplace : tok.seen false = (⟨tok.kind, 1, .point 0⟩ : Token).seen false := rfl
  have halone : SimulatesAlone false (3 * text.utf8ByteSize + 1) env.grammar env.grammar :=
    simulatesAlone_grammar env false _
  obtain ⟨ts', hts', -⟩ := hunbounded.seen halone (Nat.lt_succ_self _) hplace
  obtain ⟨a, ha⟩ := hts'.consumes
  exact ⟨a, ts', hts'.tokens, hts'.ne_nil, ha⟩

/-- **An expression by itself is a bound**, with the same tree up to lines. -/
theorem Environment.ReadsAlone.bound (h : env.ReadsAlone text a)
    (hn : 3 * text.utf8ByteSize + 1 < n) (tok : Token) :
    ∃ ts e, (below env n).ReadsBound text tok ts ∧ env.grammar.Consumes ts e ∧ a.Alike e := by
  obtain ⟨ts, hts, hne, t, ht, hatEnd⟩ := h
  have hline : seenLine false 1 = seenLine false tok.line := rfl
  obtain ⟨ts', hts', hsame⟩ := seen_ofExpression tok.span.lo hline hts
  have hweight := weight_ofExpression hts'
  obtain ⟨e, t', ht', hae, habreast⟩ := simulatesAlone_grammar env false
    (weightOf (ts.map Token.kind) + 1) hsame (not_end_ofExpression hts) (Nat.lt_succ_self _) false false
    none none none none a t ht
  have hconsumed : env.grammar.Consumes ts' e := ⟨t', ht', habreast.isEnd hatEnd⟩
  refine ⟨ts', e, ⟨hts', ?_, e, ?_⟩, hconsumed, hae.symm⟩
  · rintro rfl
    exact hne (List.map_eq_nil_iff.1 hsame)
  · exact (consumes_below (not_end_ofExpression hts') (by omega)).2 hconsumed

/-! ### Expressions behind which something else stands -/

/-- An expression begins with a token that does not end a tuple. -/
theorem Grammar.Consumes.begins (hend : ∀ t ∈ ts, t.isEnd = false) (h : env.grammar.Consumes ts e) :
    ∃ l ks, ts.map Token.kind = l :: ks ∧
      ∀ line span, isTupleEnd [] (⟨l, line, span⟩ : Token) = false := by
  obtain ⟨t, ht, -⟩ := h
  have ht : parseExpression (below env _) false false _ = .ok e t := ht
  have hnot := not_tupleEnd_of_expression ht
  cases ts with
  | nil =>
    have hmark : Token.IsMark (TokenStream.endAfter []) := ⟨.endOfTemplate, rfl⟩
    exact absurd ht (stuck_expression hmark false false e t)
  | cons tok ts =>
    refine ⟨tok.kind, ts.map Token.kind, rfl, fun line span => ?_⟩
    have htokens := (TokenStream.tokens_ofTokens (tok :: ts) none none).trans (close_eq_append hend)
    rw [← hnot, Exchange.current_of_tokens (s := { stream := .ofTokens (tok :: ts) none none }) htokens]
    exact Exchange.isTupleEnd_congr rfl

/-- **What ends with the tokens** is read before a comma and before a closing parenthesis too. -/
theorem reads_consumed (hend : ∀ t ∈ ts, t.isEnd = false) (h : env.grammar.Consumes ts e)
    (hk : k = .symbol .comma ∨ k = .symbol .rParen) (conditional filters : Bool) :
    Reads n (parseExpression (below env n) conditional filters) (ts.map Token.kind ++ k :: rest)
      (k :: rest) e.Alike := by
  obtain ⟨t, ht, hatEnd⟩ := h
  have ht : parseExpression (below env _) false false _ = .ok e t := ht
  let s : ParserState := { stream := .ofTokens ts none none }
  have htokens : s.stream.tokens = ts ++ [TokenStream.endAfter ts] :=
    (TokenStream.tokens_ofTokens ts none none).trans (close_eq_append hend)
  have hkind := Token.isEnd_iff.1 (TokenStream.isEnd_endAfter ts)
  have hs : s.ahead = ts.map Token.kind ++ [.mark .endOfTemplate] := by
    rw [ParserState.ahead, htokens, List.map_append, List.map_singleton, hkind]
  have hbehind : t.ahead = [.mark .endOfTemplate] := by
    have hfree : t.stream.current ∉ ts := fun hmem => by
      rw [TokenStream.atEnd, hend _ hmem] at hatEnd
      cases hatEnd
    have hleft := suffix_of_not_mem (htokens ▸ suffix_of_expression ht) hfree
    rcases List.suffix_cons_iff.1 hleft with hall | hnone
    · have htokens : t.stream.tokens = [TokenStream.endAfter ts] := hall
      rw [ParserState.ahead, htokens, List.map_singleton, hkind]
    · exact absurd (List.suffix_nil.1 hnone) t.stream.tokens_ne_nil
  have hstops (tok : Token) (htok : tok.kind = k) : tok.Stops := by
    rcases hk with rfl | rfl
    · exact .inr (.inl htok)
    · exact .inr (.inr (.inl htok))
  have hread : Reads n (parseExpression (below env n) false false) (ts.map Token.kind ++ k :: rest)
      (k :: rest) e.Alike :=
    reads_before hs ht hbehind hstops (.inl (by rcases hk with rfl | rfl <;> rintro _ ⟨⟩))
  intro s' hs' hw
  obtain ⟨e', t', he', ht', hsuf, halike⟩ := hread s' hs' hw
  have hcur : t'.stream.current.kind = k := (List.cons.inj ht').1
  have hfree : t'.stream.current.IsFree := by
    rcases hk with rfl | rfl
    · exact .of_symbol hcur (by rintro ⟨⟩) (by rintro ⟨⟩)
    · exact .of_symbol hcur (by rintro ⟨⟩) (by rintro ⟨⟩)
  have hlift := lifts_expression (lifts_below_negation env n) conditional filters s' e' t' he' hfree
  exact ⟨e', t', hlift, ht', hsuf, halike⟩

/-! ### The pair of bounds and its filter -/

/-- **An inclusive range** from one expression to another one. -/
def Expr.inclusiveRange (a b : Expr) : Expr :=
  .filter (some (.tuple [a, b] .load 0)) "range"
    { keywords := [⟨"inclusive", .const (.bool true) 0, 0⟩] } 0

/-- The tokens of a pair in parentheses. -/
def pairKinds (first last : List Token) : List Token.Kind :=
  parens (first.map Token.kind ++ .symbol .comma :: last.map Token.kind)

/-- The tokens of `(first, last)|range(inclusive=true)`. -/
def rangeKinds (first last : List Token) : List Token.Kind :=
  pairKinds first last ++ [.symbol .pipe, .name "range", .symbol .lParen, .name "inclusive",
    .symbol .assign, .name "true", .symbol .rParen]

theorem kinds_rangeTokens (tok : Token) (first last : List Token) :
    (rangeTokens tok first last).map Token.kind = rangeKinds first last := by
  simp [rangeTokens, rangeKinds, pairKinds, parens]

section Pair

variable (hfirst : ∀ t ∈ first, t.isEnd = false) (hlast : ∀ t ∈ last, t.isEnd = false)
  (ha : env.grammar.Consumes first a) (hb : env.grammar.Consumes last b)
include hfirst hlast ha hb

/-- **The pair**, up to the closing parenthesis. -/
theorem reads_pair : Reads n (parseTuple (below env n) (.expression true) [] true)
    (first.map Token.kind ++ .symbol .comma :: (last.map Token.kind ++ .symbol .rParen :: rest))
    (.symbol .rParen :: rest) (Expr.tuple [a, b] .load 0).Alike := by
  obtain ⟨l, ks, hl, hopen⟩ := ha.begins hfirst
  obtain ⟨l', ks', hl', hopen'⟩ := hb.begins hlast
  have hreada (more : List Token.Kind) : Reads n (parseTupleItem (below env n) (.expression true))
      (first.map Token.kind ++ .symbol .comma :: more) (.symbol .comma :: more) a.Alike :=
    reads_consumed hfirst ha (.inl rfl) true true
  have hreadb : Reads n (parseTupleItem (below env n) (.expression true))
      (last.map Token.kind ++ .symbol .rParen :: rest) (.symbol .rParen :: rest) b.Alike :=
    reads_consumed hlast hb (.inr rfl) true true
  rw [hl] at hreada ⊢
  rw [hl'] at hreadb ⊢
  refine Reads.see fun line span => ?_
  have hround : Reads n (parseTupleItems (below env n) (.expression true) [] line)
      (l :: ks ++ .symbol .comma :: (l' :: ks' ++ .symbol .rParen :: rest)) (.symbol .rParen :: rest)
      (fun read => read.isTuple = true ∧ ∃ x y, a.Alike x ∧ b.Alike y ∧ read.items = [x, y]) := by
    refine Reads.round ?_ (length_behind_lt ..)
      fun read (hread : read.isTuple = true ∧ ∃ x, a.Alike x ∧ read.items = [x]) => ?_
    · refine (reads_separator false).bind fun _ _ => Reads.see fun line span => ?_
      rw [hopen, if_neg Bool.false_ne_true]
      refine (hreada _).bind fun x hx => Reads.see fun line span => ?_
      exact Reads.pure ⟨_, rfl, rfl, x, hx, rfl⟩
    · obtain ⟨htuple, x, hx, hitems⟩ := hread
      refine Reads.stop ?_
      rw [parseNextTupleItem, hitems]
      refine (reads_separator true).bind fun _ _ => Reads.see fun line span => ?_
      rw [hopen', if_neg Bool.false_ne_true]
      refine hreadb.bind fun y hy => Reads.see fun line span => ?_
      exact Reads.pure ⟨_, rfl, htuple, x, y, hx, hy, rfl⟩
  refine hround.bind fun read hread => ?_
  obtain ⟨htuple, x, y, hx, hy, hitems⟩ := hread
  rw [htuple, hitems]
  refine Reads.pure ?_
  simp [Expr.Alike, Expr.withoutLines, hx.eq, hy.eq]

theorem legible_pair : Legible env (.tuple [a, b] .load 0) (pairKinds first last) := by
  refine legible_of_primary (by simp [Expr.level]) Begins.parens nofun nofun fun n k rest _ => ?_
  refine reads_parens ?_
  rw [below_group]
  refine reads_guarded (p := fun j => parseTuple (below env j) (.expression true) [] true)
    fun j _ => ?_
  rw [List.append_assoc, List.cons_append]
  exact reads_pair hfirst hlast ha hb

end Pair

/-- **A single argument with a name** in parentheses. -/
theorem reads_named {key : String} {a : List Token.Kind} {post : Expr → Prop}
    (h : ReadsBelow n (g.expression true true) (a ++ .symbol .rParen :: rest)
      (.symbol .rParen :: rest) post) :
    Reads n (parseOptionalArguments g)
      (.symbol .lParen :: .name key :: .symbol .assign :: (a ++ .symbol .rParen :: rest)) rest
      (fun args => ∃ value line, post value ∧ args = { keywords := [⟨key, value, line⟩] }) := by
  refine Reads.see fun line span => ?_
  show Reads n (parseArguments g) _ _ _
  refine Reads.see fun line span => Reads.drop_lt nofun ?_
  have hlist : ReadsBelow n (parseArgumentList g .parentheses line)
      (.name key :: .symbol .assign :: (a ++ .symbol .rParen :: rest)) (.symbol .rParen :: rest)
      (fun args => ∃ value line, post value ∧ args = { keywords := [⟨key, value, line⟩] }) := by
    intro j hj
    have hkeyword : Reads j (parseArgument g .parentheses line {})
        (.name key :: .symbol .assign :: (a ++ .symbol .rParen :: rest)) (.symbol .rParen :: rest)
        (fun args => ∃ value line, post value ∧ args = { keywords := [⟨key, value, line⟩] }) :=
      reads_keyword rfl rfl (h j hj)
    have hround := leads_argument (l := .name key) (a := .symbol .assign :: a) false
      (fun _ _ => rfl) hkeyword
    refine hround.reads fun x hx => ?_
    obtain ⟨⟨value, line', hvalue, hargs⟩, -⟩ := hx
    refine Reads.stop (Reads.see fun line span => ?_)
    exact Reads.pure ⟨x.1, rfl, value, line', hvalue, hargs⟩
  refine hlist.bind fun args hargs => Reads.below ?_
  exact Reads.drop nofun (Reads.pure hargs)

/-- **The tokens of an inclusive range.** -/
theorem found_range (hfirst : ∀ t ∈ first, t.isEnd = false) (hlast : ∀ t ∈ last, t.isEnd = false)
    (ha : env.grammar.Consumes first a) (hb : env.grammar.Consumes last b) :
    Found env (.inclusiveRange a b) (rangeKinds first last) := by
  have hpair : Found env (.tuple [a, b] .load 0) (pairKinds first last) :=
    (legible_pair hfirst hlast ha hb).found (by simp [Expr.level, chainLevels]) (by simp [Expr.level])
  refine found_of_trailed rfl Begins.parens.append fun n k rest hk hsticks => ?_
  have htrue : ReadsBelow n ((below env n).expression true true)
      ([.name "true"] ++ .symbol .rParen :: k :: rest) (.symbol .rParen :: k :: rest)
      (Expr.const (.bool true) 0).Alike := by
    rw [below_expression]
    refine reads_guarded (p := fun j => parseExpression (below env j) true true) fun j _ => ?_
    exact (legible_const (.bool true) 0).2 j 0 (.symbol .rParen) _ (Nat.zero_le _) (Nat.zero_le _)
      (Token.Kind.stops rfl 0) (by rintro ⟨⟩)
  have hname (x : Expr) (hx : (Expr.tuple [a, b] .load 0).Alike x) :
      Reads n (parseFilterName (below env n) (some x))
        ([.name "range", .symbol .lParen, .name "inclusive", .symbol .assign, .name "true",
          .symbol .rParen] ++ k :: rest) (k :: rest) (Expr.inclusiveRange a b).Alike := by
    have hrange : nameKinds "range" = [.name "range"] := nameKinds_eq_singleton (by decide)
    have hread : Reads n (parseFilterName (below env n) (some x))
        (nameKinds "range" ++ .symbol .lParen :: .name "inclusive" :: .symbol .assign ::
          ([.name "true"] ++ .symbol .rParen :: k :: rest))
        (k :: rest) (Expr.inclusiveRange a b).Alike := by
      refine reads_name (by rintro ⟨⟩) fun t => (reads_named htrue).bind fun args hargs => ?_
      obtain ⟨value, line, hvalue, rfl⟩ := hargs
      refine Reads.pure ?_
      simp [Expr.Alike, Expr.inclusiveRange, Expr.withoutLines, hx.eq, hvalue.eq]
    rw [hrange] at hread
    exact hread
  rw [rangeKinds, List.append_assoc]
  have hsticks : ¬ (Token.Kind.symbol .pipe).Sticks := by rintro ⟨⟩
  refine (hpair.input .sparse n (.symbol .pipe) _ Token.Kind.stops_pipe hsticks).trans fun x hx => ?_
  exact leads_filter (hname x hx)

/-- **These tokens are read** as an inclusive range, up to the end of the template. -/
theorem expression_of_rangeKinds (hfirst : ∀ t ∈ first, t.isEnd = false)
    (hlast : ∀ t ∈ last, t.isEnd = false) (ha : env.grammar.Consumes first a)
    (hb : env.grammar.Consumes last b)
    (hs : s.ahead = rangeKinds first last ++ [.mark .endOfTemplate]) :
    ∃ e t, env.grammar.expression true true s = .ok e t ∧ t.stream.atEnd = true ∧
      (Expr.inclusiveRange a b).Alike e := by
  have hread := (found_range hfirst hlast ha hb).legible.2 s.weight 0 (.mark .endOfTemplate) []
    (Nat.zero_le _) (Nat.zero_le _) (Token.Kind.stops rfl 0) nofun
  obtain ⟨e, t, he, ht, -, hrange⟩ := hread s hs (Nat.le_refl _)
  exact ⟨e, t, he, Token.isEnd_iff.2 (List.cons.inj ht).1, hrange⟩

/-! ### The literal -/

/-- **A range literal before a mark** is the whole expression. -/
theorem expression_range_eq_ok (hs : s.stream.current.kind = .range start stop)
    (hmark : s.stepped.stream.current.IsMark) (conditional filters : Bool) :
    parseExpression g conditional filters s = .ok e t ↔
      parseRange g s.stream.current start stop s.stepped = .ok e t := by
  have hsub : s.stream.current.isSymbol .sub = false := by
    rw [Token.isSymbol, Token.type, hs]
    rfl
  have hadd : s.stream.current.isSymbol .add = false := by
    rw [Token.isSymbol, Token.type, hs]
    rfl
  have hnot : s.stream.current.isName "not" = false := by
    rw [Token.isName, Token.name?, hs]
    rfl
  have hprimary (x : Expr) (u : ParserState) : parsePrimary g s = .ok x u ↔
      parseRange g s.stream.current start stop s.stepped = .ok x u := by
    constructor
    · intro h
      obtain ⟨tok, v, hv, h⟩ := bind_eq_ok.1 h
      obtain ⟨rfl, rfl⟩ := current_eq_ok.1 hv
      rw [hs] at h
      exact h
    · intro h
      refine bind_eq_ok.2 ⟨_, s, rfl, ?_⟩
      rw [hs]
      exact h
  have hwhole (x : Expr) (u : ParserState)
      (h : parseRange g s.stream.current start stop s.stepped = .ok x u) :
      parseExpression g conditional filters s = .ok x u := by
    obtain rfl := (parseRange_eq_ok.1 h).1
    exact expression_of_primary conditional filters hsub hadd hnot ((hprimary x _).2 h) hmark
  refine ⟨fun h => ?_, hwhole e t⟩
  obtain ⟨x, u, hx⟩ := starts_expression conditional filters hsub hadd hnot e t h
  have hrange := (hprimary x u).1 hx
  obtain ⟨rfl, rfl⟩ := EStateM.Result.ok.inj (h.symm.trans (hwhole x u hrange))
  exact hrange

/-- A range literal weighs more than its bounds and the tokens around them. -/
theorem weight_range_le (hs : s.stream.current.kind = .range start stop) :
    3 * (start.utf8ByteSize + stop.utf8ByteSize) + 12 ≤ s.weight := by
  have hcurrent : s.weight = s.stream.current.kind.weight + weightOf (s.stream.later.map Token.kind) :=
    ParserState.weight_eq s
  rw [hcurrent, hs, Token.Kind.weight]
  omega

section Literal

variable (hs : s.stream.current.kind = .range start stop) (hmark : s.stepped.stream.current.IsMark)
include hs hmark

/-- **The bounds of a range literal** are expressions by themselves. -/
theorem readsAlone_of_range {conditional filters : Bool}
    (h : env.grammar.expression conditional filters s = .ok e t) :
    (∃ a, env.ReadsAlone start a) ∧ ∃ b, env.ReadsAlone stop b := by
  have h : parseExpression (below env s.weight) conditional filters s = .ok e t := h
  have hweight := weight_range_le hs
  have hrange := (expression_range_eq_ok hs hmark conditional filters).1 h
  obtain ⟨-, first, last, hfirst, hlast, -⟩ := parseRange_eq_ok.1 hrange
  exact ⟨hfirst.readsAlone (by omega), hlast.readsAlone (by omega)⟩

/-- **The tree of a range literal** is an inclusive range between its bounds. -/
theorem range_of_readsAlone (conditional filters : Bool) (ha : env.ReadsAlone start a)
    (hb : env.ReadsAlone stop b) : ∃ e,
      env.grammar.expression conditional filters s = .ok e s.stepped ∧
        (Expr.inclusiveRange a b).Alike e := by
  have hweight := weight_range_le hs
  obtain ⟨first, a', hfirst, ha', haa⟩ := ha.bound (n := s.weight) (by omega) s.stream.current
  obtain ⟨last, b', hlast, hb', hbb⟩ := hb.bound (n := s.weight) (by omega) s.stream.current
  have hend := not_end_rangeTokens s.stream.current (not_end_ofExpression hfirst.tokens)
    (not_end_ofExpression hlast.tokens)
  let tokens := rangeTokens s.stream.current first last
  let pair : ParserState :=
    { stream := .ofTokens tokens s.stepped.stream.name s.stepped.stream.filename }
  have hahead : pair.ahead = rangeKinds first last ++ [.mark .endOfTemplate] := by
    have hstream := (TokenStream.tokens_ofTokens tokens s.stepped.stream.name
      s.stepped.stream.filename).trans (close_eq_append hend)
    have heof := Token.isEnd_iff.1 (TokenStream.isEnd_endAfter tokens)
    rw [ParserState.ahead, hstream, List.map_append, kinds_rangeTokens, List.map_singleton, heof]
  obtain ⟨x, u, hx, hu, hrange⟩ := expression_of_rangeKinds (not_end_ofExpression hfirst.tokens)
    (not_end_ofExpression hlast.tokens) ha' hb' hahead
  have hless : pair.weight < s.weight := by
    have hpair : pair.weight =
        weightOf ((rangeTokens s.stream.current first last).map Token.kind) + 1 :=
      weight_ofTokens hend s.stepped.stream.name s.stepped.stream.filename
    have := weight_ofExpression hfirst.tokens
    have := weight_ofExpression hlast.tokens
    rw [weight_rangeTokens] at hpair
    omega
  have hbounded : (below env s.weight).expression true true pair = .ok x u := by
    rw [← env.expression_eq_below hless]
    exact hx
  refine ⟨x, ?_, ?_⟩
  · exact (expression_range_eq_ok hs hmark conditional filters).2 <|
      parseRange_eq_ok.2 ⟨rfl, first, last, hfirst, hlast, u, hbounded, hu⟩
  · have hpair := hrange.eq
    simpa [Expr.Alike, Expr.inclusiveRange, Expr.withoutLines, haa.eq, hbb.eq] using hpair

end Literal

/-- **Range literals.** A range literal is an expression exactly if each of its bounds is one by
itself, and its tree is, up to lines, that of `(start, stop)|range(inclusive=true)`. -/
theorem range_literal (env : Environment) (start stop : String) (line : Nat) (span : Span)
    (name filename : Option String) (conditional filters : Bool) :
    let s : ParserState := { stream := .ofTokens [⟨.range start stop, line, span⟩] name filename }
    ((∃ e t, env.grammar.expression conditional filters s = .ok e t) ↔
      (∃ a, env.ReadsAlone start a) ∧ ∃ b, env.ReadsAlone stop b) ∧
    ∀ e t a b first last, env.grammar.expression conditional filters s = .ok e t →
      env.ReadsAlone start a → env.ReadsAlone stop b →
      Token.ofExpression start 1 0 = .ok first → Token.ofExpression stop 1 0 = .ok last →
      t.stream.atEnd = true ∧ (Expr.inclusiveRange a b).Alike e ∧
      ∀ s', s'.ahead = rangeKinds first last ++ [.mark .endOfTemplate] →
        ∃ x u, env.grammar.expression true true s' = .ok x u ∧ u.stream.atEnd = true ∧ e.Alike x := by
  intro s
  have hs : s.stream.current.kind = .range start stop := rfl
  have hmark : s.stepped.stream.current.IsMark := ⟨.endOfTemplate, rfl⟩
  refine ⟨⟨fun ⟨e, t, h⟩ => readsAlone_of_range hs hmark h, ?_⟩, ?_⟩
  · rintro ⟨⟨a, ha⟩, b, hb⟩
    obtain ⟨e, he, -⟩ := range_of_readsAlone hs hmark conditional filters ha hb
    exact ⟨e, _, he⟩
  · intro e t a b first last h ha hb hfirst hlast
    obtain ⟨x, hx, hrange⟩ := range_of_readsAlone hs hmark conditional filters ha hb
    obtain ⟨rfl, rfl⟩ := EStateM.Result.ok.inj (hx.symm.trans h)
    refine ⟨rfl, hrange, fun s' hs' => ?_⟩
    obtain ⟨first', hfirst', -, ha⟩ := ha
    obtain rfl := Except.ok.inj (hfirst'.symm.trans hfirst)
    obtain ⟨last', hlast', -, hb⟩ := hb
    obtain rfl := Except.ok.inj (hlast'.symm.trans hlast)
    obtain ⟨y, u, hy, hu, hyrange⟩ := expression_of_rangeKinds (not_end_ofExpression hfirst)
      (not_end_ofExpression hlast) ha hb hs'
    exact ⟨y, u, hy, hu, hyrange.eq.trans hrange.eq.symm⟩

/-- The literal of the numbers from one to three. -/
theorem range_literal_one_three :
    let env : Environment := {}
    let s : ParserState := { stream := .ofTokens [⟨.range "1" "3", 2, .point 0⟩] none none }
    let bound (n : Int64) : Expr := .const (.int n) 1
    ∃ e t, env.grammar.expression true true s = .ok e t ∧ t.stream.atEnd = true ∧
      (Expr.inclusiveRange (bound 1) (bound 3)).Alike e := by
  intro env s bound
  have hreads (text : String) (n : Int64)
      (htokens : Token.ofExpression text 1 0 = .ok [⟨.integer n, 1, ⟨0, 1⟩⟩]) :
      env.ReadsAlone text (bound n) := by
    let start : ParserState := { stream := .ofTokens [⟨.integer n, 1, ⟨0, 1⟩⟩] none none }
    have hrun : parseExpression (below env start.weight) false false start =
        .ok (bound n) start.stepped :=
      expression_of_primary false false rfl rfl rfl rfl ⟨_, rfl⟩
    exact ⟨_, htokens, nofun, start.stepped, hrun, rfl⟩
  have hone : Token.ofExpression "1" 1 0 = .ok [⟨.integer 1, 1, ⟨0, 1⟩⟩] := by cbv
  have hthree : Token.ofExpression "3" 1 0 = .ok [⟨.integer 3, 1, ⟨0, 1⟩⟩] := by cbv
  obtain ⟨hiff, htree⟩ := range_literal env "1" "3" 2 (.point 0) none none true true
  obtain ⟨e, t, he⟩ := hiff.2 ⟨⟨_, hreads _ _ hone⟩, _, hreads _ _ hthree⟩
  obtain ⟨hend, halike, -⟩ := htree e t _ _ _ _ he (hreads _ _ hone) (hreads _ _ hthree) hone hthree
  exact ⟨e, t, he, hend, halike⟩

end LiquidTemplate
