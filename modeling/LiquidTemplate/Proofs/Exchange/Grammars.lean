import LiquidTemplate.Proofs.Conduct.InsideTags
import LiquidTemplate.Proofs.Exchange.Alone
import LiquidTemplate.Proofs.Exchange.Expressions

/-!
# Grammars before another end

The bounded grammars simulate each other: what is left before the old end and before the new one
weighs the same, so that the second grammar goes as deep as the first. The tokens of a range literal
weigh less than the literal, which is an induction of its own.

* `Parser.parseRange_eq_ok`: when a range literal is read.
* `sim_range`: range literals whose tokens are simulated.
* `simulates_below`: the bounded grammars, by induction on the weight.
* `simulates_grammar`: the grammar of an environment.
* `eq_nil_of_not_mem`: nothing is left before the end that a parser has come to.
* `reads_before`: an expression up to the end of the template, before other ends.
-/

namespace LiquidTemplate

open LiquidTemplate.Parser LiquidTemplate.Grammar

variable {x : Exchange} {m n v w : Nat} {env : Environment} {g g' : Grammar} {s s' t t' : ParserState}
  {e : Expr} {ts ts' : List Token} {lines : Bool}

/-! ### Range literals -/

namespace Grammar

/-- **A bound of a range literal**: tokens that are an expression without conditions and filters. -/
structure ReadsBound (g : Grammar) (text : String) (t : Token) (ts : List Token) : Prop where
  tokens : Token.ofExpression text t.line t.span.lo = .ok ts
  ne_nil : ts ≠ []
  alone : ∃ e u, g.expression false false { stream := .ofTokens ts none none } = .ok e u ∧
    u.stream.current.isEnd = true

theorem runOn_eq_ok {p : Parser Expr} {stream : TokenStream} {tok : Token} :
    runOn stream p = .ok (e, tok) ↔ ∃ u, p { stream } = .ok e u ∧ u.stream.current = tok := by
  unfold runOn
  cases p { stream } with
  | error _ _ => exact ⟨nofun, fun ⟨_, h, _⟩ => nomatch h⟩
  | ok e' u =>
    constructor
    · intro h
      obtain ⟨rfl, rfl⟩ := Prod.mk.inj (Except.ok.inj h)
      exact ⟨u, rfl, rfl⟩
    · rintro ⟨u', h, rfl⟩
      obtain ⟨rfl, rfl⟩ := EStateM.Result.ok.inj h
      rfl

theorem accepts_eq_true {p : Parser Expr} {stream : TokenStream} :
    accepts p stream = true ↔ ∃ e u, p { stream } = .ok e u ∧ u.stream.current.isEnd = true := by
  unfold accepts
  cases hrun : runOn stream p with
  | error _ =>
    refine ⟨nofun, fun ⟨e, u, h, _⟩ => ?_⟩
    rw [runOn_eq_ok.2 ⟨u, h, rfl⟩] at hrun
    nomatch hrun
  | ok found =>
    obtain ⟨e, tok⟩ := found
    obtain ⟨u, hu, rfl⟩ := runOn_eq_ok.1 hrun
    refine ⟨fun hend => ⟨e, u, hu, hend⟩, fun ⟨e', u', h, hend⟩ => ?_⟩
    rw [hu] at h
    obtain ⟨-, rfl⟩ := EStateM.Result.ok.inj h
    exact hend

theorem parseBound_eq_ok {text : String} {tok : Token} :
    parseBound g text tok s = .ok ts t ↔ t = s ∧ g.ReadsBound text tok ts := by
  unfold parseBound
  cases hread : Token.ofExpression text tok.line tok.span.lo with
  | error e =>
    constructor
    · rintro ⟨⟩
    · rintro ⟨-, h⟩
      cases hread.symm.trans h.tokens
  | ok tokens =>
    dsimp only
    cases hempty : tokens.isEmpty with
    | true =>
      refine ⟨by rintro ⟨⟩, fun h => ?_⟩
      obtain rfl := Except.ok.inj (hread.symm.trans h.2.tokens)
      exact absurd (List.isEmpty_iff.1 hempty) h.2.ne_nil
    | false =>
      have hne : tokens ≠ [] := fun h => by simp [h] at hempty
      cases haccepts : accepts (g.expression false false) (.ofTokens tokens none none) with
      | true =>
        constructor
        · intro h
          obtain ⟨rfl, rfl⟩ := EStateM.Result.ok.inj h
          exact ⟨rfl, hread, hne, accepts_eq_true.1 haccepts⟩
        · rintro ⟨rfl, h⟩
          obtain rfl := Except.ok.inj (hread.symm.trans h.tokens)
          rfl
      | false =>
        refine ⟨by rintro ⟨⟩, fun h => ?_⟩
        obtain rfl := Except.ok.inj (hread.symm.trans h.2.tokens)
        rw [accepts_eq_true.2 h.2.alone] at haccepts
        cases haccepts

/-- **A range literal is read** if its bounds are, and if its tokens are one expression. -/
theorem parseRange_eq_ok {tok : Token} {start stop : String} :
    parseRange g tok start stop s = .ok e t ↔ t = s ∧ ∃ first last,
      g.ReadsBound start tok first ∧ g.ReadsBound stop tok last ∧
      ∃ u, g.expression true true
        { stream := .ofTokens (rangeTokens tok first last) s.stream.name s.stream.filename } =
          .ok e u ∧ u.stream.current.isEnd = true := by
  constructor
  · intro h
    obtain ⟨first, u, hu, hseparate⟩ := bind_eq_ok.1 h
    obtain ⟨rfl, hfirst⟩ := parseBound_eq_ok.1 hu
    obtain ⟨last, u₂, hu₂, hmade⟩ := bind_eq_ok.1 hseparate
    obtain ⟨rfl, hlast⟩ := parseBound_eq_ok.1 hu₂
    obtain ⟨_, _, hget, hmade⟩ := bind_eq_ok.1 hmade
    obtain ⟨rfl, rfl⟩ := EStateM.Result.ok.inj hget
    cases hrun : runOn (.ofTokens (rangeTokens tok first last) u₂.stream.name u₂.stream.filename)
        (g.expression true true) with
    | error _ =>
      rw [hrun] at hmade
      cases hmade
    | ok found =>
      rw [hrun] at hmade
      obtain ⟨e', behind⟩ := found
      obtain ⟨v, hv, rfl⟩ := runOn_eq_ok.1 hrun
      dsimp only at hmade
      split at hmade
      · next hend =>
        obtain ⟨rfl, rfl⟩ := EStateM.Result.ok.inj hmade
        exact ⟨rfl, first, last, hfirst, hlast, v, hv, hend⟩
      · exact absurd hmade (failAt_ne_ok _ _)
  · rintro ⟨rfl, first, last, hfirst, hlast, v, hv, hend⟩
    refine bind_eq_ok.2 ⟨first, t, parseBound_eq_ok.2 ⟨rfl, hfirst⟩, ?_⟩
    refine bind_eq_ok.2 ⟨last, t, parseBound_eq_ok.2 ⟨rfl, hlast⟩, bind_eq_ok.2 ⟨t, t, rfl, ?_⟩⟩
    rw [runOn_eq_ok.2 ⟨v, hv, rfl⟩]
    dsimp only
    rw [if_pos hend]
    rfl

end Grammar

/-! ### Streams of their own -/

theorem endAfter_line (h : ts.map (Token.seen lines) = ts'.map (Token.seen lines)) :
    seenLine lines (TokenStream.endAfter ts).line =
      seenLine lines (TokenStream.endAfter ts').line := by
  have hlast : ts.getLast?.map (Token.seen lines) = ts'.getLast?.map (Token.seen lines) := by
    rw [← List.getLast?_map, ← List.getLast?_map, h]
  unfold TokenStream.endAfter
  cases ht : ts.getLast? with
  | none =>
    cases ht' : ts'.getLast? with
    | none => rfl
    | some t' =>
      rw [ht, ht'] at hlast
      nomatch hlast
  | some t =>
    cases ht' : ts'.getLast? with
    | none =>
      rw [ht, ht'] at hlast
      nomatch hlast
    | some t' =>
      rw [ht, ht'] at hlast
      exact (Prod.mk.inj (Option.some.inj hlast)).2

/-- The end of a stream is a mark. -/
theorem TokenStream.isMark_endAfter (ts : List Token) : (TokenStream.endAfter ts).IsMark :=
  ⟨_, Token.isEnd_iff.1 (TokenStream.isEnd_endAfter ts)⟩

theorem TokenStream.stops_endAfter (ts : List Token) : (TokenStream.endAfter ts).Stops :=
  (TokenStream.isMark_endAfter ts).stops

/-- **Ends of streams**: the same tokens can be followed by the ends of other streams. -/
def Exchange.ofEnds (h : ts.map (Token.seen lines) = ts'.map (Token.seen lines)) : Exchange where
  lines := lines
  old := TokenStream.endAfter ts
  oldRest := []
  new := TokenStream.endAfter ts'
  newRest := []
  isMark := TokenStream.isMark_endAfter ts
  stops := TokenStream.stops_endAfter ts'
  line_eq := endAfter_line h

theorem isEnd_congr (h : ts.map (Token.seen lines) = ts'.map (Token.seen lines))
    (hend : ∀ t ∈ ts, t.isEnd = false) : ∀ t ∈ ts', t.isEnd = false := by
  intro t' ht'
  have hmem : t'.seen lines ∈ ts.map (Token.seen lines) := h ▸ List.mem_map_of_mem ht'
  obtain ⟨t, ht, hseen⟩ := List.mem_map.1 hmem
  have hkind : t.kind = t'.kind := (Prod.mk.inj hseen).1
  rw [← hend t ht, Token.isEnd, Token.isEnd, Token.isMark, Token.isMark, Token.type, Token.type, hkind]

theorem kinds_eq (h : ts.map (Token.seen lines) = ts'.map (Token.seen lines)) :
    ts.map Token.kind = ts'.map Token.kind := by
  have hfst := congrArg (List.map Prod.fst) h
  rwa [List.map_map, List.map_map] at hfst

/-- The end of the template is not that of a tag. -/
theorem settled_of_isEnd (h : x.old.isEnd = true) : x.Settled := by
  have hold := Token.isEnd_iff.1 h
  rintro (hends | hends) <;> exact absurd (hold.symm.trans (Token.isMark_iff.1 hends)) nofun

/-- Streams of the same tokens are abreast. -/
theorem abreast_ofTokens (h : ts.map (Token.seen lines) = ts'.map (Token.seen lines))
    (hend : ∀ t ∈ ts, t.isEnd = false) (name filename name' filename' : Option String) :
    (Exchange.ofEnds h).Abreast (weightOf (ts.map Token.kind))
      { stream := .ofTokens ts name filename } { stream := .ofTokens ts' name' filename' } := by
  refine ⟨ts, ts', ?_, ?_, h, Nat.le_refl _, .inl ?_, .inl ?_⟩
  · exact (TokenStream.tokens_ofTokens ts name filename).trans (close_eq_append hend)
  · exact (TokenStream.tokens_ofTokens ts' name' filename').trans
      (close_eq_append (isEnd_congr h hend))
  · exact settled_of_isEnd (TokenStream.isEnd_endAfter ts)
  · exact (TokenStream.isMark_endAfter ts').name?_eq_none

/-- The end of one stream is the end of the other one. -/
theorem Exchange.Abreast.isEnd {h : ts.map (Token.seen lines) = ts'.map (Token.seen lines)}
    (hs : (Exchange.ofEnds h).Abreast w s s') (hend : s.stream.current.isEnd = true) :
    s'.stream.current.isEnd = true := by
  rcases hs.inside_or with hin | ⟨-, hnew⟩
  · rw [← hend, Token.isEnd, Token.isEnd, Token.isMark, Token.isMark, Token.type, Token.type, hin.kind]
  · rw [hnew]
    exact TokenStream.isEnd_endAfter ts'

/-! ### Range literals before another end -/

/-- **Simulation on streams of their own**, of tokens that weigh less than `w`. -/
def Grammar.SimulatesAlone (lines : Bool) (w : Nat) (g g' : Grammar) : Prop :=
  ∀ {ts ts' : List Token} (h : ts.map (Token.seen lines) = ts'.map (Token.seen lines)),
    (∀ t ∈ ts, t.isEnd = false) → weightOf (ts.map Token.kind) < w →
    ∀ (conditional filters : Bool) (name filename name' filename' : Option String),
      Sim (Exchange.ofEnds h) (weightOf (ts.map Token.kind)) (g.expression conditional filters)
        (g'.expression conditional filters) (Exchange.ofEnds h).Same
        { stream := .ofTokens ts name filename } { stream := .ofTokens ts' name' filename' }

/-- A bound at another place. -/
theorem Grammar.ReadsBound.seen {tok tok' : Token} {text : String}
    (hg : Grammar.SimulatesAlone lines w g g') (hw : 3 * text.utf8ByteSize < w)
    (htok : tok.seen lines = tok'.seen lines) (h : g.ReadsBound text tok ts) :
    ∃ ts', g'.ReadsBound text tok' ts' ∧ ts.map (Token.seen lines) = ts'.map (Token.seen lines) := by
  obtain ⟨ts', hts', hsame⟩ := seen_ofExpression tok'.span.lo (Prod.mk.inj htok).2 h.tokens
  have hend := not_end_ofExpression h.tokens
  have hweight := weight_ofExpression h.tokens
  obtain ⟨e, u, hu, huend⟩ := h.alone
  obtain ⟨e', u', hu', -, habreast⟩ := hg hsame hend (by omega) false false none none none none e u hu
  refine ⟨ts', ⟨hts', ?_, e', u', hu', habreast.isEnd huend⟩, hsame⟩
  rintro rfl
  exact h.ne_nil (List.map_eq_nil_iff.1 hsame)

theorem seen_rangeTokens {tok tok' : Token} {first first' last last' : List Token}
    (htok : tok.seen lines = tok'.seen lines)
    (hfirst : first.map (Token.seen lines) = first'.map (Token.seen lines))
    (hlast : last.map (Token.seen lines) = last'.map (Token.seen lines)) :
    (rangeTokens tok first last).map (Token.seen lines) =
      (rangeTokens tok' first' last').map (Token.seen lines) := by
  have hplace (kind : Token.Kind) : (⟨kind, tok.line, tok.span⟩ : Token).seen lines =
      (⟨kind, tok'.line, tok'.span⟩ : Token).seen lines :=
    Prod.ext rfl (Prod.mk.inj htok).2
  simp only [rangeTokens, List.cons_append, List.map_cons, List.map_append, List.map_nil, hplace,
    hfirst, hlast]

theorem weightOf_append (a b : List Token.Kind) : weightOf (a ++ b) = weightOf a + weightOf b := by
  induction a with
  | nil => exact (Nat.zero_add _).symm
  | cons k a ih =>
    rw [List.cons_append, weightOf, weightOf, ih]
    omega

theorem weight_rangeTokens (tok : Token) (first last : List Token) :
    weightOf ((rangeTokens tok first last).map Token.kind) =
      weightOf (first.map Token.kind) + weightOf (last.map Token.kind) + 10 := by
  simp only [rangeTokens, List.cons_append, List.map_cons, List.map_append, List.map_nil, weightOf,
    weightOf_append, Token.Kind.weight]
  omega

theorem not_end_rangeTokens (tok : Token) {first last : List Token}
    (hfirst : ∀ t ∈ first, t.isEnd = false) (hlast : ∀ t ∈ last, t.isEnd = false) :
    ∀ t ∈ rangeTokens tok first last, t.isEnd = false := by
  intro t ht
  simp only [rangeTokens, List.cons_append, List.mem_cons, List.mem_append, List.map_cons,
    List.map_nil, List.not_mem_nil, or_false] at ht
  rcases ht with rfl | (ht | rfl | ht) | rfl | rfl | rfl | rfl | rfl | rfl | rfl | rfl
  · rfl
  · exact hfirst t ht
  · rfl
  · exact hlast t ht
  all_goals rfl

/-- **Range literals** whose tokens weigh less than the literal. -/
theorem sim_range {tok tok' : Token} {start stop : String}
    (hg : Grammar.SimulatesAlone x.lines tok.weight g g') (hk : tok.kind = .range start stop)
    (htok : tok.seen x.lines = tok'.seen x.lines) (h : x.Abreast w s s') :
    Sim x w (parseRange g tok start stop) (parseRange g' tok' start stop) x.Same s s' := by
  intro e t he
  obtain ⟨rfl, first, last, hfirst, hlast, u, hu, hend⟩ := parseRange_eq_ok.1 he
  have hweight : tok.weight = 3 * (start.utf8ByteSize + stop.utf8ByteSize) + 12 := by
    rw [Token.weight, hk]
  obtain ⟨first', hfirst', hfirstSame⟩ := hfirst.seen hg (by omega) htok
  obtain ⟨last', hlast', hlastSame⟩ := hlast.seen hg (by omega) htok
  have hsame := seen_rangeTokens htok hfirstSame hlastSame
  have hends := not_end_rangeTokens tok (not_end_ofExpression hfirst.tokens)
    (not_end_ofExpression hlast.tokens)
  have hless : weightOf ((rangeTokens tok first last).map Token.kind) < tok.weight := by
    have := weight_ofExpression hfirst.tokens
    have := weight_ofExpression hlast.tokens
    rw [weight_rangeTokens]
    omega
  obtain ⟨e', u', hu', hee, habreast⟩ := hg hsame hends hless true true t.stream.name t.stream.filename
    s'.stream.name s'.stream.filename e u hu
  exact ⟨e', s', parseRange_eq_ok.2 ⟨rfl, first', last', hfirst', hlast', u', hu',
    habreast.isEnd hend⟩, hee, h⟩

/-! ### The bounded grammars -/

namespace Exchange

/-- The weight of the old end and of what stands behind it. -/
def oldWeight (x : Exchange) : Nat :=
  weightOf ((x.old :: x.oldRest).map Token.kind)

/-- The weight of the new end and of what stands behind it. -/
def newWeight (x : Exchange) : Nat :=
  weightOf ((x.new :: x.newRest).map Token.kind)

theorem Abreast.mono (h : x.Abreast v s s') (hvw : v ≤ w) : x.Abreast w s s' := by
  obtain ⟨ts, ts', hs, hs', hsame, hv, hspares⟩ := h
  exact ⟨ts, ts', hs, hs', hsame, Nat.le_trans hv hvw, hspares⟩

/-- **What is left weighs the same** before the old end and before the new one. -/
theorem Abreast.weight (h : x.Abreast w s s') : ∃ v, v ≤ w ∧ x.Abreast v s s' ∧
    s.weight = v + x.oldWeight ∧ s'.weight = v + x.newWeight := by
  obtain ⟨ts, ts', hs, hs', hsame, hw, hspares⟩ := h
  refine ⟨_, hw, ⟨ts, ts', hs, hs', hsame, Nat.le_refl _, hspares⟩, ?_, ?_⟩
  · rw [ParserState.weight_eq, ParserState.ahead, hs, List.map_append, weightOf_append, oldWeight]
  · rw [ParserState.weight_eq, ParserState.ahead, hs', List.map_append, weightOf_append, newWeight,
      kinds_eq hsame]

end Exchange

/-- **Guarded parsers**: where the first one goes deeper, the second one does so too. -/
theorem guarded_abreast {α : Type} (p q : Nat → Parser α) {y : α} (h : x.Abreast w s s')
    (hroom : m + x.newWeight ≤ n + x.oldWeight)
    (hy : guarded m (fun s _ => p s.weight s) s = .ok y t) :
    ∃ v, v ≤ w ∧ v + x.oldWeight < m ∧ x.Abreast v s s' ∧ p (v + x.oldWeight) s = .ok y t ∧
      guarded n (fun s _ => q s.weight s) s' = q (v + x.newWeight) s' := by
  obtain ⟨hlt, hy⟩ := guarded_eq_ok hy
  obtain ⟨v, hvw, hv, hs, hs'⟩ := h.weight
  refine ⟨v, hvw, hs ▸ hlt, hv, hs ▸ hy, ?_⟩
  rw [guarded_of_lt (p := q) (by omega), hs']

theorem sim_guarded (p q : Nat → Parser Expr) (h : x.Abreast w s s')
    (hroom : m + x.newWeight ≤ n + x.oldWeight)
    (hp : ∀ v, v + x.oldWeight < m → x.Abreast v s s' →
      Sim x v (p (v + x.oldWeight)) (q (v + x.newWeight)) x.Same s s') :
    Sim x w (guarded m fun s _ => p s.weight s) (guarded n fun s _ => q s.weight s) x.Same s s' := by
  intro e t he
  obtain ⟨v, hvw, hless, hv, he, hguarded⟩ := guarded_abreast p q h hroom he
  obtain ⟨e', t', he', hee, ht⟩ := hp v hless hv e t he
  exact ⟨e', t', hguarded.trans he', hee, ht.mono hvw⟩

theorem stuck_guarded (p : Nat → Parser Expr) (h : ∀ j, Stuck (p j) s) :
    Stuck (guarded n fun s _ => p s.weight s) s := by
  intro e t he
  obtain ⟨_, he⟩ := guarded_eq_ok he
  exact h _ e t he

theorem oldWeight_ofEnds (h : ts.map (Token.seen lines) = ts'.map (Token.seen lines)) :
    (Exchange.ofEnds h).oldWeight = 1 := by
  have hold : (Exchange.ofEnds h).old.kind = .mark .endOfTemplate :=
    Token.isEnd_iff.1 (TokenStream.isEnd_endAfter ts)
  rw [Exchange.oldWeight, List.map_cons, hold]
  rfl

theorem newWeight_ofEnds (h : ts.map (Token.seen lines) = ts'.map (Token.seen lines)) :
    (Exchange.ofEnds h).newWeight = 1 := by
  have hnew : (Exchange.ofEnds h).new.kind = .mark .endOfTemplate :=
    Token.isEnd_iff.1 (TokenStream.isEnd_endAfter ts')
  rw [Exchange.newWeight, List.map_cons, hnew]
  rfl

theorem Exchange.newWeight_pos (x : Exchange) : 0 < x.newWeight := by
  have hpos := x.new.kind.weight_pos
  rw [newWeight, List.map_cons, weightOf]
  omega

/-- Bounded grammars on streams of their own, where those of smaller bounds are simulated. -/
theorem simulatesAlone_below (hn : w < n)
    (h : ∀ (v : Nat) (x : Exchange), v + x.oldWeight < m →
      Simulates x v (below env (v + x.oldWeight)) (below env (v + x.newWeight))) :
    SimulatesAlone lines w (below env m) (below env n) := by
  intro ts ts' hsame hend hless conditional filters name filename name' filename' e t he
  have habreast := abreast_ofTokens hsame hend name filename name' filename'
  obtain ⟨v, hv, habreast, hold, hnew⟩ := habreast.weight
  rw [oldWeight_ofEnds] at hold
  rw [newWeight_ofEnds] at hnew
  rw [below_expression] at he ⊢
  obtain ⟨hm, he⟩ :=
    guarded_eq_ok (p := fun j => parseExpression (below env j) conditional filters) he
  have hsim := h v (Exchange.ofEnds hsame) (by rw [oldWeight_ofEnds]; omega)
  rw [oldWeight_ofEnds, newWeight_ofEnds] at hsim
  obtain ⟨e', t', he', hee, ht⟩ := sim_expression hsim conditional filters habreast e t (hold ▸ he)
  refine ⟨e', t', ?_, hee, ht.mono hv⟩
  rw [guarded_of_lt (p := fun j => parseExpression (below env j) conditional filters) (by omega)]
  exact hnew ▸ he'

/-- **The bounded grammars** simulate each other, if the second one leaves as much room. -/
theorem simulates_below (env : Environment) (x : Exchange)
    (hroom : m + x.newWeight ≤ n + x.oldWeight) (hw : w + x.newWeight ≤ n) :
    Simulates x w (below env m) (below env n) := by
  induction m using Nat.strongRecOn generalizing n w x with
  | _ m ih =>
    have hnext (v : Nat) (x : Exchange) (hv : v + x.oldWeight < m) :
        Simulates x v (below env (v + x.oldWeight)) (below env (v + x.newWeight)) :=
      ih _ hv x (by omega) (Nat.le_refl _)
    refine { expression := ?_, negation := ?_, signed := ?_, group := ?_, range := ?_, stuck := ?_ }
    · intro conditional filters s s' h
      rw [below_expression, below_expression]
      exact sim_guarded (fun j => parseExpression (below env j) conditional filters)
        (fun j => parseExpression (below env j) conditional filters) h hroom
        fun v hv h => sim_expression (hnext v x hv) conditional filters h
    · intro filters s s' h
      rw [below_negation, below_negation]
      exact sim_guarded (fun j => parseNegation (below env j) filters)
        (fun j => parseNegation (below env j) filters) h hroom
        fun v hv h => sim_negation (hnext v x hv) filters h
    · intro s s' h
      rw [below_signed, below_signed]
      exact sim_guarded (fun j => parseSigned (below env j) false)
        (fun j => parseSigned (below env j) false) h hroom
        fun v hv h => sim_signed (hnext v x hv) false h
    · intro s s' e t h he hparen
      rw [below_group] at he ⊢
      obtain ⟨v, hvw, hless, hv, he, hguarded⟩ := guarded_abreast
        (fun j => parseTuple (below env j) (.expression true) [] true)
        (fun j => parseTuple (below env j) (.expression true) [] true) h hroom he
      obtain ⟨e', t', he', hee, ht⟩ := sim_tuple (hnext v x hless) true true hv he (.inl hparen)
      exact ⟨e', t', hguarded.trans he', hee, ht.mono hvw⟩
    · intro tok tok' start stop s s' hk htok hseen h
      have hpos := x.newWeight_pos
      have halone : SimulatesAlone x.lines tok.weight (below env m) (below env n) :=
        simulatesAlone_below (by omega) hnext
      exact sim_range halone hk hseen h
    · intro conditional filters s hmark
      rw [below_expression]
      exact stuck_guarded (fun j => parseExpression (below env j) conditional filters)
        fun j => stuck_expression hmark conditional filters

/-! ### The grammar of an environment -/

/-- **The grammar** reads an expression like a bounded one whose bound is not met. -/
theorem Environment.expression_eq_below (env : Environment) (hn : s.weight < n)
    (conditional filters : Bool) :
    env.grammar.expression conditional filters s =
      (below env n).expression conditional filters s := by
  rw [below_expression]
  exact (guarded_of_lt (p := fun j => parseExpression (below env j) conditional filters) hn).symm

theorem weight_ofTokens (hend : ∀ t ∈ ts, t.isEnd = false) (name filename : Option String) :
    ({ stream := .ofTokens ts name filename } : ParserState).weight =
      weightOf (ts.map Token.kind) + 1 := by
  have hkind : (TokenStream.endAfter ts).kind = .mark .endOfTemplate :=
    Token.isEnd_iff.1 (TokenStream.isEnd_endAfter ts)
  have htokens : (TokenStream.ofTokens ts name filename).tokens = ts ++ [TokenStream.endAfter ts] :=
    (TokenStream.tokens_ofTokens ts name filename).trans (close_eq_append hend)
  rw [ParserState.weight_eq, ParserState.ahead, htokens, List.map_append, weightOf_append,
    List.map_singleton, hkind]
  rfl

/-- Bounded grammars that leave the same room. -/
theorem simulates_room (env : Environment) (v : Nat) (x : Exchange) :
    Simulates x v (below env (v + x.oldWeight)) (below env (v + x.newWeight)) :=
  simulates_below env x (by omega) (Nat.le_refl _)

theorem simulatesAlone_grammar (env : Environment) (lines : Bool) (w : Nat) :
    SimulatesAlone lines w env.grammar env.grammar := by
  intro ts ts' hsame hend hless conditional filters name filename name' filename' e t he
  have hkinds := kinds_eq hsame
  have hweight := weight_ofTokens hend name filename
  have hweight' := weight_ofTokens (isEnd_congr hsame hend) name' filename'
  have halone : SimulatesAlone lines w (below env (w + 1)) (below env (w + 1)) :=
    simulatesAlone_below (Nat.lt_succ_self w) fun v x _ => simulates_room env v x
  rw [← hkinds] at hweight'
  rw [env.expression_eq_below (n := w + 1) (by omega)] at he ⊢
  exact halone hsame hend hless conditional filters name filename name' filename' e t he

/-- A parser of the grammar of an environment, which has room for all that is left. -/
theorem sim_unbounded (p : Grammar → Parser Expr) (h : x.Abreast w s s')
    (hp : ∀ v, x.Abreast v s s' → Sim x v (p (below env (v + x.oldWeight)))
      (p (below env (v + x.newWeight))) x.Same s s') :
    Sim x w (fun s => p (below env s.weight) s) (fun s => p (below env s.weight) s) x.Same s s' := by
  intro e t he
  obtain ⟨v, hv, h, hs, hs'⟩ := h.weight
  have he : p (below env (v + x.oldWeight)) s = .ok e t := hs ▸ he
  obtain ⟨e', t', he', hee, ht⟩ := hp v h e t he
  have he' : p (below env s'.weight) s' = .ok e' t' := hs' ▸ he'
  exact ⟨e', t', he', hee, ht.mono hv⟩

/-- **The grammar simulates itself** before another end. -/
theorem simulates_grammar (env : Environment) (w : Nat) (x : Exchange) :
    Simulates x w env.grammar env.grammar := by
  refine { expression := ?_, negation := ?_, signed := ?_, group := ?_, range := ?_, stuck := ?_ }
  · intro conditional filters s s' h
    exact sim_unbounded (fun g => parseExpression g conditional filters) h
      fun v h => sim_expression (simulates_room env v x) conditional filters h
  · intro filters s s' h
    exact sim_unbounded (fun g => parseNegation g filters) h
      fun v h => sim_negation (simulates_room env v x) filters h
  · intro s s' h
    exact sim_unbounded (fun g => parseSigned g false) h
      fun v h => sim_signed (simulates_room env v x) false h
  · intro s s' e t h he hparen
    obtain ⟨v, hv, h, hs, hs'⟩ := h.weight
    have he : parseTuple (below env (v + x.oldWeight)) (.expression true) [] true s = .ok e t :=
      hs ▸ he
    obtain ⟨e', t', he', hee, ht⟩ := sim_tuple (simulates_room env v x) true true h he (.inl hparen)
    refine ⟨e', t', ?_, hee, ht.mono hv⟩
    show parseTuple (below env s'.weight) (.expression true) [] true s' = .ok e' t'
    exact hs' ▸ he'
  · intro tok tok' start stop s s' hk _ hseen h
    exact sim_range (simulatesAlone_grammar env x.lines tok.weight) hk hseen h
  · intro conditional filters s hmark e t he
    have he : parseExpression (below env s.weight) conditional filters s = .ok e t := he
    exact stuck_expression hmark conditional filters e t he

/-! ### What is left -/

/-- A parser of expressions goes forward only. -/
theorem suffix_of_expression {conditional filters : Bool}
    (h : parseExpression (below env n) conditional filters s = .ok e t) :
    t.stream.tokens <:+ s.stream.tokens := by
  have houtcome := obeys_expression (minds_below env obeyedByRanges_insideAlways n) conditional filters s
  rw [h] at houtcome
  exact houtcome trivial

theorem suffix_of_anyTuple (h : parseAnyTuple env.grammar s = .ok e t) :
    t.stream.tokens <:+ s.stream.tokens := by
  have houtcome :=
    obeys_tuple (minds_grammar env obeyedByRanges_insideAlways) (.expression true) [] false s
  have h : parseTuple env.grammar (.expression true) [] false s = .ok e t := h
  rw [h] at houtcome
  exact houtcome trivial

/-- Nothing is left before an end, if the current token is none of those before it. -/
theorem eq_nil_of_not_mem {us rest : List Token} {old : Token}
    (ht : t.stream.tokens = us ++ old :: rest) (hsuf : t.stream.tokens <:+ ts ++ old :: rest)
    (hcur : t.stream.current ∉ ts) : us = [] := by
  have hlast : t.stream.tokens <:+ old :: rest := suffix_of_not_mem hsuf hcur
  have hlength := hlast.length_le
  rw [ht, List.length_append] at hlength
  exact List.eq_nil_of_length_eq_zero (by omega)

/-! ### Reading before another end -/

/-- No expression begins at the end of a tuple. -/
theorem not_tupleEnd_of_expression {conditional filters : Bool}
    (h : parseExpression g conditional filters s = .ok e t) :
    isTupleEnd [] s.stream.current = false := by
  have hmark (m : Mark) : s.stream.current.isMark m = false := by
    refine Bool.eq_false_iff.2 fun hm => ?_
    exact stuck_expression (Token.isMark_of_isMark hm) conditional filters e t h
  have hparen : s.stream.current.isSymbol .rParen = false := by
    refine Bool.eq_false_iff.2 fun hp => ?_
    have hkind := Token.isSymbol_iff.1 hp
    obtain ⟨y, u, hy⟩ := starts_expression conditional filters
      (by rw [Token.isSymbol, Token.type, hkind]; rfl)
      (by rw [Token.isSymbol, Token.type, hkind]; rfl)
      (by rw [Token.isName, Token.name?, hkind]; rfl) e t h
    have hstuck : Stuck (parsePrimary g) s := by
      refine Stuck.see ?_
      rw [hkind]
      exact stuck_failAt
    exact hstuck y u hy
  simp [isTupleEnd, hmark, hparen, Token.fitsAny]

/-- Tokens of the same kinds are seen as the same without their lines. -/
theorem seen_of_kinds (h : ts.map Token.kind = ts'.map Token.kind) :
    ts.map (Token.seen false) = ts'.map (Token.seen false) := by
  have hseen := congrArg (List.map fun kind => (kind, 0)) h
  rwa [List.map_map, List.map_map] at hseen

/-- **What is read up to the end of the template** is read before other ends too: before marks,
commas and closing parentheses, and before a name if no test without arguments stands there. -/
theorem reads_before {ks rest : List Token.Kind} {k : Token.Kind} {conditional filters : Bool}
    (hs : s.ahead = ks ++ [.mark .endOfTemplate])
    (h : parseExpression (below env s.weight) conditional filters s = .ok e t)
    (ht : t.ahead = [.mark .endOfTemplate]) (hk : ∀ tok : Token, tok.kind = k → tok.Stops)
    (htest : (∀ n, k ≠ .name n) ∨ hasBareTest ks = false) :
    Reads n (parseExpression (below env n) conditional filters) (ks ++ k :: rest) (k :: rest)
      e.Alike := by
  intro s' hs' hw
  obtain ⟨ts, ends, hstream, rfl, hends⟩ := List.map_eq_append_iff.1 hs
  obtain ⟨old, oldRest, rfl, hold, hnil⟩ := List.map_eq_cons_iff.1 hends
  obtain rfl := List.map_eq_nil_iff.1 hnil
  obtain ⟨ts', behind, hstream', hkinds, hbehind⟩ := List.map_eq_append_iff.1 hs'
  obtain ⟨new, newRest, rfl, hnew, hnewRest⟩ := List.map_eq_cons_iff.1 hbehind
  let x : Exchange :=
    { lines := false
      old, oldRest := []
      new, newRest
      isMark := ⟨_, hold⟩
      stops := hk new hnew
      line_eq := rfl }
  have hspares : x.Spares ts := by
    refine ⟨.inl (settled_of_isEnd (Token.isEnd_iff.2 hold)), htest.imp_left fun hname => ?_⟩
    show new.name? = none
    cases hkind : new.kind with
    | name m => exact absurd (hnew.symm.trans hkind) (hname m)
    | _ => rw [Token.name?, hkind]
  have habreast : x.Abreast (weightOf (ts.map Token.kind)) s s' :=
    ⟨ts, ts', hstream, hstream', seen_of_kinds hkinds.symm, Nat.le_refl _, hspares⟩
  have holdWeight : x.oldWeight = 1 := by
    show old.kind.weight + 0 = 1
    rw [hold]
    rfl
  have hweight : s.weight = weightOf (ts.map Token.kind) + x.oldWeight := by
    rw [ParserState.weight_eq, ParserState.ahead, hstream, List.map_append, weightOf_append]
    rfl
  have hweight' : s'.weight = weightOf (ts.map Token.kind) + x.newWeight := by
    rw [ParserState.weight_eq, hs', weightOf_append, ← hnew, ← hnewRest]
    rfl
  have hsim : Simulates x (weightOf (ts.map Token.kind)) (below env s.weight) (below env n) :=
    simulates_below env x (by omega) (by omega)
  obtain ⟨e', t', he', hee, us, us', hus, hus', hseen, -⟩ :=
    sim_expression hsim conditional filters habreast e t h
  have hlength := congrArg List.length ht
  rw [ParserState.ahead, hus, List.length_map, List.length_append, List.length_cons] at hlength
  obtain rfl : us = [] := by
    refine List.eq_nil_of_length_eq_zero ?_
    simp only [List.length_cons, List.length_nil] at hlength
    omega
  obtain rfl : us' = [] := List.map_eq_nil_iff.1 hseen.symm
  refine ⟨e', t', he', ?_, suffix_of_expression he', hee.symm⟩
  rw [ParserState.ahead, hus', ← hnew, ← hnewRest]
  rfl

end LiquidTemplate
