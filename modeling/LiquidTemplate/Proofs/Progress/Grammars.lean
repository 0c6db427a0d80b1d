import LiquidTemplate.Proofs.Exchange.Ranges
import LiquidTemplate.Proofs.Progress.Statements

/-!
# Grammars on a route

The bounded grammars agree with the grammar of an environment wherever less than their bound is left
to read. The tokens of a range literal weigh less than the literal, so the streams of its bounds are
read too, and its pair of bounds is always an expression.

* `tracks_range`: range literals.
* `follows_below`, `followsTags_below`: the bounded grammars, by induction on the bound.
* `unbounded_grammar`: the productions of an environment refer to each other without any bound.
-/

namespace LiquidTemplate

open LiquidTemplate.Parser LiquidTemplate.Grammar

variable {α : Type} {r : Route} {m n : Nat} {g g' : Grammar} {env : Environment} {t : Token}
  {text start stop : String} {first last : List Token} {s : ParserState}

/-! ### Errors of a route -/

theorem SyntaxError.Cause.Lexical.ordinary {cause : Cause} (h : cause.Lexical) : cause.Ordinary := by
  cases cause with
  | nestedTooDeep => exact h
  | unknownTag => exact h
  | _ => trivial

/-- **The cause of an error** is one of its route. -/
theorem Route.Fault.causes {e : SyntaxError} (h : r.Fault e) : r.causes e.cause := by
  cases h with
  | atLine _ hcause => exact hcause
  | atToken _ hcause => exact hcause
  | inBound _ _ hread => exact r.ordinary (fails_of_ofExpression hread).2.ordinary

/-! ### Bounds of range literals -/

theorem Token.HasBound.weight_le (h : t.HasBound text) : 3 * text.utf8ByteSize + 12 ≤ t.weight := by
  obtain ⟨start, stop, hk, htext⟩ := h
  rw [Token.weight, hk]
  dsimp only
  rcases htext with rfl | rfl
  · omega
  · omega

theorem Parser.runOn_congr {p p' : Parser Expr} {stream : TokenStream}
    (h : p { stream } = p' { stream }) : runOn stream p = runOn stream p' := by
  rw [runOn, runOn, h]

/-- **A grammar whose expressions are those of an environment** where less than `n` is left. -/
def Grammar.AgreesBelow (env : Environment) (n : Nat) (g : Grammar) : Prop :=
  ∀ conditional filters s, s.weight < n →
    g.expression conditional filters s = env.grammar.expression conditional filters s

/-- A parser that looks at its state. -/
theorem Parser.Tracks.state {f f' : ParserState → Parser α} {must post : α → Prop}
    (h : ∀ s, r.On s → TracksAt r s (f s) (f' s) must post) :
    Tracks r n (get >>= f) (get >>= f') must post :=
  fun s hs _ => ⟨(h s hs).same, (h s hs).arrives⟩

section Range

variable (hg : g.AgreesBelow env n) (hg' : g'.AgreesBelow env n) (ht : t ∈ r.tokens)
  (hweight : t.weight ≤ n)
include hg hg' ht hweight

theorem tracks_bound (htext : t.HasBound text) :
    Tracks r m (parseBound g text t) (parseBound g' text t) Idle (env.grammar.ReadsBound text t) := by
  have hline := r.line_of_beneath t (.token ht)
  refine .state fun s hs => ?_
  cases hread : Token.ofExpression text t.line t.span.lo with
  | error e =>
    refine ⟨rfl, .refl s, ?_⟩
    rw [hs.name, hs.filename]
    exact .inBound ht htext hread
  | ok tokens =>
    have hless : ({ stream := .ofTokens tokens none none } : ParserState).weight < n := by
      rw [weight_ofTokens (not_end_ofExpression hread)]
      have := weight_ofExpression hread
      have := htext.weight_le
      omega
    have haccepts {g : Grammar} (hg : g.AgreesBelow env n) :
        accepts (g.expression false false) (.ofTokens tokens none none) =
          accepts (env.grammar.expression false false) (.ofTokens tokens none none) := by
      rw [accepts, accepts, runOn_congr (hg false false _ hless)]
    dsimp only
    refine .ite (fun _ => .failAt hs hline trivial) fun hne => ?_
    rw [haccepts hg, haccepts hg']
    refine .ite (fun hyes => ⟨rfl, .refl s, False.elim, ?_⟩) fun _ => .failAt hs hline trivial
    exact ⟨hread, fun h => hne (List.isEmpty_iff.2 h), accepts_eq_true.1 hyes⟩

end Range

/-! ### The pair of bounds -/

/-- **The tokens of a pair of bounds**: those of the bounds, and others on the line of the literal. -/
theorem mem_rangeTokens {u : Token} (hu : u ∈ rangeTokens t first last) :
    u ∈ first ∨ u ∈ last ∨ u.line = t.line ∧ ∀ text, ¬ u.HasBound text := by
  simp only [rangeTokens, List.cons_append, List.mem_cons, List.mem_append, List.map_cons,
    List.map_nil, List.not_mem_nil, or_false] at hu
  have hplaced {k : Token.Kind} (hk : ∀ start stop, k ≠ .range start stop) :
      (⟨k, t.line, t.span⟩ : Token).line = t.line ∧
        ∀ text, ¬ (⟨k, t.line, t.span⟩ : Token).HasBound text :=
    ⟨rfl, by rintro _ ⟨_, _, hrange, _⟩; exact hk _ _ hrange⟩
  rcases hu with rfl | (hu | rfl | hu) | rfl | rfl | rfl | rfl | rfl | rfl | rfl | rfl
  · exact .inr (.inr (hplaced (by rintro _ _ ⟨⟩)))
  · exact .inl hu
  · exact .inr (.inr (hplaced (by rintro _ _ ⟨⟩)))
  · exact .inr (.inl hu)
  all_goals exact .inr (.inr (hplaced (by rintro _ _ ⟨⟩)))

theorem endAfter_rangeTokens (t : Token) (first last : List Token) :
    (TokenStream.endAfter (rangeTokens t first last)).line = t.line := by
  have hlast : (rangeTokens t first last).getLast? = some ⟨.symbol .rParen, t.line, t.span⟩ := by
    simp [rangeTokens, List.getLast?_append, List.getLast?_cons]
  rw [TokenStream.endAfter, hlast]

/-- **The pair weighs less** than the literal. -/
theorem weight_pair_lt (hk : t.kind = .range start stop) (hfirst : g.ReadsBound start t first)
    (hlast : g.ReadsBound stop t last) (name filename : Option String) :
    ({ stream := .ofTokens (rangeTokens t first last) name filename } : ParserState).weight <
      t.weight := by
  have hrange : t.weight = 3 * (start.utf8ByteSize + stop.utf8ByteSize) + 12 := by
    rw [Token.weight, hk]
  have := weight_ofExpression hfirst.tokens
  have := weight_ofExpression hlast.tokens
  rw [weight_ofTokens (not_end_rangeTokens t (not_end_ofExpression hfirst.tokens)
    (not_end_ofExpression hlast.tokens)), weight_rangeTokens]
  omega

section Pair

variable (ht : t ∈ r.tokens) (hk : t.kind = .range start stop)
  (hfirst : env.grammar.ReadsBound start t first) (hlast : env.grammar.ReadsBound stop t last)
include ht hk hfirst hlast

/-- What is beneath the pair of bounds is beneath the literal, or stands on its line. -/
theorem beneath_range {u : Token} (hu : Token.Beneath
      (rangeTokens t first last ++ [TokenStream.endAfter (rangeTokens t first last)]) u) :
    Token.Beneath r.tokens u ∨ u.line = t.line ∧ ∀ text, ¬ u.HasBound text := by
  induction hu with
  | @token u hu =>
    rcases List.mem_append.1 hu with hu | hu
    · rcases mem_rangeTokens hu with hu | hu | hu
      · exact .inl (.bound (.token ht) ⟨start, stop, hk, .inl rfl⟩ hfirst.tokens hu)
      · exact .inl (.bound (.token ht) ⟨start, stop, hk, .inr rfl⟩ hlast.tokens hu)
      · exact .inr hu
    · obtain rfl := List.mem_singleton.1 hu
      refine .inr ⟨endAfter_rangeTokens t first last, fun text htext => ?_⟩
      obtain ⟨_, _, hrange, _⟩ := htext
      have hend := Token.isEnd_iff.1 (TokenStream.isEnd_endAfter (rangeTokens t first last))
      exact nomatch hend.symm.trans hrange
  | bound _ htext hread hu ih =>
    rcases ih with ih | ih
    · exact .inl (.bound ih htext hread hu)
    · exact absurd htext (ih.2 _)

/-- **The pair of bounds** is an expression on a line of the route. -/
theorem expression_of_pair
    (hexpression : ∀ r : Route, Tracks r n (env.grammar.expression true true)
      (env.grammar.expression true true) Moving r.Holds)
    (hweight : t.weight ≤ n) (name filename : Option String) :
    ∃ e u, env.grammar.expression true true
        { stream := .ofTokens (rangeTokens t first last) name filename } = .ok e u ∧
      u.stream.current.isEnd = true ∧ r.Holds e := by
  have hend := not_end_rangeTokens t (not_end_ofExpression hfirst.tokens)
    (not_end_ofExpression hlast.tokens)
  let pair : ParserState := { stream := .ofTokens (rangeTokens t first last) name filename }
  have htokens : pair.stream.tokens =
      rangeTokens t first last ++ [TokenStream.endAfter (rangeTokens t first last)] :=
    (TokenStream.tokens_ofTokens _ name filename).trans (close_eq_append hend)
  have hahead : pair.ahead = rangeKinds first last ++ [.mark .endOfTemplate] := by
    have heof := Token.isEnd_iff.1 (TokenStream.isEnd_endAfter (rangeTokens t first last))
    rw [ParserState.ahead, htokens, List.map_append, kinds_rangeTokens, List.map_singleton, heof]
  have hless : pair.weight < n :=
    Nat.lt_of_lt_of_le (weight_pair_lt hk hfirst hlast name filename) hweight
  obtain ⟨a, ha⟩ := hfirst.consumes
  obtain ⟨b, hb⟩ := hlast.consumes
  obtain ⟨e, u, he, hu, -⟩ := expression_of_rangeKinds (not_end_ofExpression hfirst.tokens)
    (not_end_ofExpression hlast.tokens) ha hb hahead
  -- The same run on a route of its own, whose lines are those of the literal's route.
  let nested : Route :=
    { tokens := pair.stream.tokens
      name := pair.stream.name
      filename := pair.stream.filename
      lines := r.lines
      line_of_beneath := fun u hu => by
        rcases beneath_range ht hk hfirst hlast (htokens ▸ hu) with hu | hu
        · exact r.line_of_beneath u hu
        · exact hu.1 ▸ r.line_of_beneath t (.token ht)
      allows := fun _ _ => True
      causes := fun _ => True
      ordinary := fun _ => trivial }
  have harrives := (hexpression nested pair ⟨List.suffix_refl _, rfl, rfl, trivial⟩ hless).arrives
  rw [he] at harrives
  exact ⟨e, u, he, hu, harrives.2.2⟩

end Pair

/-- **Range literals.** -/
theorem tracks_range (hg : g.AgreesBelow env n) (hg' : g'.AgreesBelow env n)
    (hexpression : ∀ r : Route, Tracks r n (env.grammar.expression true true)
      (env.grammar.expression true true) Moving r.Holds)
    (ht : t ∈ r.tokens) (hk : t.kind = .range start stop) (hweight : t.weight ≤ n) :
    Tracks r m (parseRange g t start stop) (parseRange g' t start stop) Idle r.Holds := by
  refine (tracks_bound hg hg' ht hweight ⟨start, stop, hk, .inl rfl⟩).bind fun first hfirst => ?_
  refine (tracks_bound hg hg' ht hweight ⟨start, stop, hk, .inr rfl⟩).bind fun last hlast => ?_
  refine .state fun s _ => ?_
  obtain ⟨e, u, he, hend, hline⟩ := expression_of_pair ht hk hfirst hlast hexpression hweight
    s.stream.name s.stream.filename
  have hless := Nat.lt_of_lt_of_le
    (weight_pair_lt hk hfirst hlast s.stream.name s.stream.filename) hweight
  have hrun {g : Grammar} (hg : g.AgreesBelow env n) :
      runOn (.ofTokens (rangeTokens t first last) s.stream.name s.stream.filename)
        (g.expression true true) = .ok (e, u.stream.current) :=
    runOn_eq_ok.2 ⟨u, (hg true true _ hless).trans he, rfl⟩
  dsimp only
  rw [hrun hg, hrun hg']
  dsimp only
  rw [if_pos hend]
  exact ⟨rfl, .refl s, False.elim, hline⟩

/-! ### The bounded grammars -/

namespace Parser

variable {p p' q : Parser α} {must post : α → Prop}

/-- What agrees with a third parser agrees with each other. -/
theorem Tracks.both (h : Tracks r n p q must post) (h' : Tracks r n p' q must post) :
    Tracks r n p p' must post :=
  fun s hs hw => ⟨(h s hs hw).same.trans (h' s hs hw).same.symm, (h s hs hw).arrives⟩

/-- What another parser agrees with agrees with itself. -/
theorem Tracks.right (h : Tracks r n p q must post) : Tracks r n q q must post := by
  intro s hs hw
  obtain ⟨hsame, harrives⟩ := h s hs hw
  exact ⟨rfl, hsame ▸ harrives⟩

end Parser

section Bounds

variable {p q : Nat → Parser α} {whole : Parser α} {must post : α → Prop}

/-- **Productions without a bound** have room for all that is left. -/
theorem tracks_unbounded (h : ∀ j, j < n → Tracks r (j + 1) (p j) (q j) must post) :
    Tracks r n (fun s => p s.weight s) (fun s => q s.weight s) must post := by
  intro s hs hw
  obtain ⟨hsame, harrives⟩ := h s.weight hw s hs (Nat.lt_succ_self _)
  exact ⟨hsame, harrives⟩

/-- **A reference of a bounded grammar** finds a production that has room for all that is left. -/
theorem tracks_reference (h : ∀ j, j < n → Tracks r (j + 1) (p j) (q j) must post) :
    Tracks r n (guarded n fun s _ => p s.weight s) (fun s => q s.weight s) must post := by
  intro s hs hw
  obtain ⟨hsame, harrives⟩ := tracks_unbounded h s hs hw
  have hp := guarded_of_lt (p := p) hw
  exact ⟨hp.trans hsame, hp ▸ harrives⟩

/-- A reference to the production of the environment. -/
theorem tracks_guarded (h : ∀ j, j < n → Tracks r (j + 1) (p j) whole must post) :
    Tracks r n (guarded n fun s _ => p s.weight s) (fun s => p s.weight s) must post :=
  tracks_reference fun j hj => (h j hj).both (h j hj)

end Bounds

theorem agreesBelow_below (env : Environment) (n : Nat) : (below env n).AgreesBelow env n :=
  fun conditional filters _ hw => (env.expression_eq_below hw conditional filters).symm

theorem agreesBelow_grammar (env : Environment) (n : Nat) : env.grammar.AgreesBelow env n :=
  fun _ _ _ _ => rfl

/-- **The bounded grammars** agree with the grammar of the environment on expressions. -/
theorem follows_below (env : Environment) (n : Nat) : (below env n).Follows n env.grammar := by
  induction n using Nat.strongRecOn with
  | _ n ih =>
    refine { expression := ?_, negation := ?_, signed := ?_, group := ?_, range := ?_ }
    · intro r conditional filters
      rw [below_expression]
      exact tracks_guarded (p := fun j => parseExpression (below env j) conditional filters)
        fun j hj => tracks_expression (ih j hj) conditional filters
    · intro r filters
      rw [below_negation]
      exact tracks_guarded (p := fun j => parseNegation (below env j) filters)
        fun j hj => tracks_negation (ih j hj) filters
    · intro r
      rw [below_signed]
      exact tracks_guarded (p := fun j => parseSigned (below env j) false)
        fun j hj => tracks_signed (ih j hj) false
    · intro r
      rw [below_group]
      exact tracks_guarded (p := fun j => parseTuple (below env j) (.expression true) [] true)
        fun j hj => (tracks_tuple (ih j hj) _ _ _).idle
    · intro r t start stop ht hk hweight
      refine tracks_range (agreesBelow_below env n) (agreesBelow_grammar env n) (fun r => ?_) ht hk
        hweight
      refine tracks_unbounded (p := fun j => parseExpression (below env j) true true)
        (q := fun j => parseExpression (below env j) true true) fun j hj => ?_
      exact (tracks_expression (ih j hj) true true).both (tracks_expression (ih j hj) true true)

/-- **The bounded grammars** agree with the grammar of the environment on statements too. -/
theorem followsTags_below (henv : ∀ x ∈ env.extensions, x.Known) (hr : r.Nests) (n : Nat) :
    (below env n).FollowsTags r n env.grammar := by
  induction n using Nat.strongRecOn with
  | _ n ih =>
    refine { follows_below env n with statement := ?_, branch := ?_ }
    · rw [below_statement]
      exact tracks_guarded (p := fun j => parseStatement env (below env j))
        fun j hj => tracks_statement hr (ih j hj) henv
    · intro line tag
      rw [below_branch]
      exact tracks_guarded (p := fun j => parseBranch (below env j) line tag false)
        fun j hj => tracks_branch hr (ih j hj) line tag false

/-! ### The grammar of an environment -/

theorem follows_grammar (env : Environment) (n : Nat) : env.grammar.Follows n env.grammar :=
  let h := follows_below env n
  { expression := fun r conditional filters => (h.expression r conditional filters).right
    negation := fun r filters => (h.negation r filters).right
    signed := fun r => (h.signed r).right
    group := fun r => (h.group r).right
    range := fun ht hk hweight => (h.range ht hk hweight).right }

/-- **The grammar of an environment** keeps to every route with nested tags. -/
theorem followsTags_grammar (henv : ∀ x ∈ env.extensions, x.Known) (hr : r.Nests) (n : Nat) :
    env.grammar.FollowsTags r n env.grammar :=
  let h := followsTags_below henv hr n
  { follows_grammar env n with
    statement := h.statement.right
    branch := fun line tag => (h.branch line tag).right }

/-- **Errors of a whole run** are those of any route on which it begins. -/
theorem fault_of_parseStream (henv : ∀ x ∈ env.extensions, x.Known) (hr : r.Nests)
    {stream : TokenStream} (hs : r.On { stream }) {e : SyntaxError}
    (h : env.parseStream stream = .error e) : r.Fault e := by
  have htags := followsTags_grammar henv hr ({ stream } : ParserState).weight
  have harrives := (tracks_parts htags [] {} { stream } hs (Nat.lt_succ_self _)).arrives
  have hbody : env.grammar.parseBody none { stream } =
      repeatFrom (parseBodyPart env.grammar []) {} { stream } := rfl
  unfold Environment.parseStream at h
  rw [hbody] at h
  split at h
  · nomatch h
  · next heq =>
    rw [heq] at harrives
    obtain rfl := Except.error.inj h
    exact harrives.2

/-! ### Routes from any state -/

/-- **The route from a state** on which nothing is said about lines and open tags. -/
def ParserState.route (s : ParserState) : Route where
  tokens := s.stream.tokens
  name := s.stream.name
  filename := s.stream.filename
  lines _ := True
  line_of_beneath _ _ := trivial
  allows _ _ := True
  causes cause := cause ≠ .nestedTooDeep
  ordinary := fun h hdeep => by
    subst hdeep
    exact h

theorem ParserState.on_route (s : ParserState) : s.route.On s :=
  ⟨List.suffix_refl _, rfl, rfl, trivial⟩

theorem ParserState.nests_route (s : ParserState) : s.route.Nests :=
  ⟨fun _ _ => trivial, fun _ => nofun⟩

/-- **A grammar without bounds**: its productions refer to those of the same grammar. A branch of a
condition is only ever read inside of its tag. -/
structure Grammar.Unbounded (env : Environment) (g : Grammar) : Prop where
  expression : ∀ conditional filters s,
    g.expression conditional filters s = parseExpression g conditional filters s
  negation : ∀ filters s, g.negation filters s = parseNegation g filters s
  signed : ∀ s, g.signed s = parseSigned g false s
  group : ∀ s, g.group s = parseTuple g (.expression true) [] true s
  statement : ∀ s, g.statement s = parseStatement env g s
  branch : ∀ line tag s, s.openTags.head? = some tag →
    g.branch line tag s = parseBranch g line tag false s

/-- **No bound is ever met** in the grammar of an environment. -/
theorem unbounded_grammar (henv : ∀ x ∈ env.extensions, x.Known) : env.grammar.Unbounded env := by
  have hfollows (s : ParserState) := follows_below env s.weight
  have htags (s : ParserState) := followsTags_below henv s.nests_route s.weight
  have hlt (s : ParserState) : s.weight < s.weight + 1 := Nat.lt_succ_self _
  refine { expression := ?_, negation := ?_, signed := ?_, group := ?_, statement := ?_, branch := ?_ }
  · intro conditional filters s
    exact (tracks_expression (hfollows s) conditional filters s s.on_route (hlt s)).same
  · intro filters s
    exact (tracks_negation (hfollows s) filters s s.on_route (hlt s)).same
  · intro s
    exact (tracks_signed (hfollows s) false s s.on_route (hlt s)).same
  · intro s
    exact (tracks_tuple (hfollows s) (.expression true) [] true s s.on_route (hlt s)).same
  · intro s
    exact (tracks_statement s.nests_route (htags s) henv s s.on_route (hlt s)).same
  · intro line tag s htag
    obtain ⟨outer, houter⟩ := List.head?_eq_some_iff.1 htag
    have hs : (s.route.inside tag).On s := ⟨List.suffix_refl _, rfl, rfl, outer, houter, trivial⟩
    exact (tracks_branch s.nests_route (htags s) line tag false s hs (hlt s)).same

end LiquidTemplate
