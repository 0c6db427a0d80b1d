import LiquidTemplate.Proofs.Progress.Grammars

/-!
# Parsing ends

What a parser of an environment does from any state, on the tokens of a template or on others.

* `ParserState.Precedes`: a state further on in the tokens.
* `Environment.Consuming`, `Environment.Production`: the operations that parse.
* `Environment.Production.arrives`: what they leave as it was.
* `Grammar.Loop.advances`: the rounds of the repetitions.
* `parsing_ends`: no operation, and no round but the last, can stay where it is.
-/

namespace LiquidTemplate

open LiquidTemplate.Parser LiquidTemplate.Grammar

/-- **A state further on**: tokens of the first state were dropped in front, and at least one. -/
structure ParserState.Precedes (s t : ParserState) : Prop where
  tokens : t.stream.tokens <:+ s.stream.tokens
  fewer : t.remaining < s.remaining

/-! ### Operations -/

/-- **Operations that consume** tokens if they succeed. -/
inductive Environment.Consuming (env : Environment) : {α : Type} → Parser α → Prop where
  | expression (conditional filters : Bool) :
      Consuming env (parseExpression env.grammar conditional filters)
  | primary : Consuming env (parsePrimary env.grammar)
  | target (withTuple : Bool) (ends : List TokenRule) :
      Consuming env (parseTarget env.grammar withTuple ends)
  | targetName : Consuming env parseTargetName
  | arguments : Consuming env (parseArguments env.grammar)
  | statement : Consuming env (parseStatement env env.grammar)
  | statements (ends : List TokenRule) (consume : Bool) :
      Consuming env (parseStatements env.grammar ends consume)

/-- **Operations that parse.** A tuple and a body can be empty, and filters need not follow. -/
inductive Environment.Production (env : Environment) : {α : Type} → Parser α → Prop where
  | consuming {α : Type} {p : Parser α} (h : env.Consuming p) : Production env p
  | tuple (item : TupleItem) (ends : List TokenRule) (parentheses : Bool) :
      Production env (parseTuple env.grammar item ends parentheses)
  | filters (node : Option Expr) (bare : Bool) : Production env (parseFilters env.grammar node bare)
  | body (ends : Option (List TokenRule)) : Production env (parseBody env.grammar ends)

variable {α β γ : Type} {env : Environment} {p : Parser α} {s : ParserState}

/-- The grammar of an environment on the route from a state. -/
theorem followsTags_route (henv : ∀ x ∈ env.extensions, x.Known) (s : ParserState) :
    env.grammar.FollowsTags s.route (s.weight + 1) env.grammar :=
  followsTags_grammar henv s.nests_route _

/-- Bodies before any end tags. -/
theorem tracks_statements_route (henv : ∀ x ∈ env.extensions, x.Known) (s : ParserState)
    (ends : List TokenRule) (consume : Bool) :
    Tracks s.route (s.weight + 1) (parseStatements env.grammar ends consume)
      (parseStatements env.grammar ends consume) Moving Anything :=
  (tracks_statements (r := s.route) (followsTags_route henv s) (fun _ _ => True)
    (fun _ _ _ => trivial) consume).mono (Nat.le_succ _)

/-- Nothing is said about expressions. -/
theorem ParserState.holds_route (s : ParserState) (e : Expr) : s.route.Holds e :=
  trivial

/-- A part on the route from the state where it begins. -/
theorem Parser.Tracks.fromState {must post : α → Prop}
    (h : Tracks s.route (s.weight + 1) p p must post) : s.route.Arrives s must post (p s) :=
  (h s s.on_route (Nat.lt_succ_self _)).arrives

/-- The same with one token to spare. -/
theorem Parser.Tracks.fromBefore {must post : α → Prop}
    (h : Tracks s.route (s.weight + 1 + 1) p p must post) : s.route.Arrives s must post (p s) :=
  (h.mono (Nat.le_succ _)).fromState

/-- **Operations that consume** arrive behind a token. -/
theorem Environment.Consuming.arrives (henv : ∀ x ∈ env.extensions, x.Known) (h : env.Consuming p)
    (s : ParserState) : ∃ post, s.route.Arrives s Moving post (p s) := by
  have htags := followsTags_route henv s
  have hg := htags.toFollows
  cases h with
  | expression conditional filters => exact ⟨_, (tracks_expression hg conditional filters).fromBefore⟩
  | primary => exact ⟨_, (tracks_primary hg).fromBefore⟩
  | target withTuple ends => exact ⟨_, (tracks_target hg withTuple ends).fromBefore⟩
  | targetName => exact ⟨_, tracks_targetName.fromState⟩
  | arguments => exact ⟨_, (tracks_arguments hg).fromBefore⟩
  | statement => exact ⟨_, (tracks_statement s.nests_route htags henv).fromBefore⟩
  | statements ends consume =>
    exact ⟨_, (tracks_statements_route henv s ends consume).fromState⟩

/-- **Any operation that parses** keeps to the route from the state where it begins. -/
theorem Environment.Production.arrives (henv : ∀ x ∈ env.extensions, x.Known)
    (h : env.Production p) (s : ParserState) : ∃ must post, s.route.Arrives s must post (p s) := by
  have htags := followsTags_route henv s
  have hg := htags.toFollows
  cases h with
  | consuming h =>
    obtain ⟨post, harrives⟩ := h.arrives henv s
    exact ⟨Moving, post, harrives⟩
  | tuple item ends parentheses => exact ⟨_, _, (tracks_tuple hg item ends parentheses).fromBefore⟩
  | filters node bare =>
    exact ⟨_, _, (tracks_filters hg node bare fun e _ => s.holds_route e).fromState⟩
  | body ends =>
    cases ends with
    | none => exact ⟨_, _, (tracks_parts htags [] {}).fromBefore⟩
    | some rules =>
      exact ⟨_, _, (tracks_body (r := s.route) htags (fun _ _ => True)
        fun _ _ _ => trivial).fromBefore⟩

/-! ### Repetitions -/

/-- **Rounds that move on** unless they are the last. -/
def Parser.Advances (round : α → Parser (α ⊕ β)) : Prop :=
  ∀ x s x' t, round x s = .ok (.inl x') t → s.Precedes t

variable {round : α → Parser (α ⊕ β)}

theorem advances_of_tracks
    (h : ∀ (s : ParserState) x, ∃ must post, Tracks s.route (s.weight + 1) (round x) (round x)
      (Sum.elim Moving must) post) : Advances round := by
  intro x s x' t hround
  obtain ⟨must, post, htracks⟩ := h s x
  have harrives := htracks.fromState
  rw [hround] at harrives
  obtain ⟨hreach, hmoved, -⟩ := harrives
  exact ⟨hreach.tokens, hmoved trivial⟩

theorem advances_nextOperator {operand : Parser Expr}
    {operator? : Token → Option (Expr → Expr → Nat → Expr)} (hop : Chains operator?)
    (h : ∀ s : ParserState, Tracks s.route (s.weight + 1) operand operand Moving s.route.Holds) :
    Advances (parseNextOperator operand operator?) :=
  advances_of_tracks fun s _ => ⟨_, _, tracks_nextOperator hop (h s) ⟨trivial, trivial⟩⟩

/-- **Each repetition** of the grammar has such rounds. -/
theorem Grammar.Loop.advances (henv : ∀ x ∈ env.extensions, x.Known) {p : Parser γ}
    (h : env.grammar.Loop p round) : Advances round := by
  have hg (s : ParserState) : env.grammar.Follows s.weight env.grammar := follows_grammar env _
  have hg' (s : ParserState) : env.grammar.Follows (s.weight + 1) env.grammar := follows_grammar env _
  cases h with
  | arguments form line =>
    exact advances_of_tracks fun s x => ⟨_, _, tracks_nextArgument (hg' s) form trivial x⟩
  | filters =>
    exact advances_of_tracks fun s x => ⟨_, _, tracks_nextFilter (hg' s) x fun e _ => s.holds_route e⟩
  | dottedName => exact advances_of_tracks fun _ x => ⟨_, _, tracks_nextDot x⟩
  | strings => exact advances_of_tracks fun _ x => ⟨_, _, tracks_nextString x⟩
  | list =>
    exact advances_of_tracks fun s x => ⟨_, _, tracks_nextItem
      (((hg' s).expression s.route true true).imp fun _ _ => trivial) x⟩
  | dict => exact advances_of_tracks fun s x => ⟨_, _, tracks_nextItem (tracks_entry (hg' s)) x⟩
  | subscripts => exact advances_of_tracks fun s x => ⟨_, _, tracks_nextSubscript (hg' s) x⟩
  | members =>
    exact advances_of_tracks fun s x => ⟨_, _, tracks_nextPostfix (hg' s) x (s.holds_route _)⟩
  | trailers =>
    exact advances_of_tracks fun s x => ⟨_, _, tracks_nextTrailer (hg' s) x (s.holds_route _)⟩
  | power filters => exact advances_nextOperator chains_power fun s => tracks_signed (hg s) filters
  | product filters =>
    exact advances_nextOperator chains_multiplicative fun s => tracks_power (hg s) filters
  | concat filters =>
    exact advances_of_tracks fun s x => ⟨_, _, tracks_nextConcat (hg s) filters x
      fun e _ => s.holds_route e⟩
  | sum filters => exact advances_nextOperator chains_additive fun s => tracks_concat (hg s) filters
  | comparisons filters =>
    exact advances_of_tracks fun s x => ⟨_, _, tracks_nextOperand (hg s) filters x trivial⟩
  | conjunction filters =>
    exact advances_nextOperator (chains_name fun _ _ _ => rfl) fun s => tracks_negation (hg s) filters
  | disjunction filters =>
    exact advances_nextOperator (chains_name fun _ _ _ => rfl) fun s => tracks_and (hg s) filters
  | conditional filters =>
    exact advances_of_tracks fun s x => ⟨_, _, tracks_nextCondition (hg' s) filters x
      ⟨s.holds_route _, trivial⟩⟩
  | tuple item ends =>
    exact advances_of_tracks fun s _ => ⟨_, _, tracks_nextTupleItem (hg s) item ends trivial
      fun e _ => s.holds_route e⟩
  | body ends =>
    exact advances_of_tracks fun s x => ⟨_, _, (tracks_bodyPart (followsTags_route henv s) _ x).mono
      (Nat.le_succ _)⟩
  | modifiers => exact advances_of_tracks fun s x => ⟨_, _, tracks_nextModifier (hg' s) x⟩
  | printed => exact advances_of_tracks fun s x => ⟨_, _, tracks_nextPrinted (hg' s) x⟩
  | bindings => exact advances_of_tracks fun s x => ⟨_, _, tracks_nextBinding (hg' s) x⟩
  | imports => exact advances_of_tracks fun _ x => ⟨_, _, tracks_nextImport x⟩
  | parameters => exact advances_of_tracks fun s x => ⟨_, _, tracks_nextParameter (hg' s) x⟩
  | whenValues => exact advances_of_tracks fun s x => ⟨_, _, tracks_nextWhenValue (hg' s) x⟩
  | cases =>
    exact advances_of_tracks fun s x => ⟨_, _, tracks_nextBranch (hg' s)
      (fun rules _ => tracks_statements_route henv s rules false) x⟩

/-! ### Every operation -/

/-- **Parsing ends.** The productions of an environment refer to each other without a bound, and no
operation fails for its depth. An operation that consumes tokens is further on if it succeeds, and so
is each round of each repetition unless it is the last one. -/
theorem parsing_ends (henv : ∀ x ∈ env.extensions, x.Known) :
    env.grammar.Unbounded env ∧
      (∀ {α : Type} {p : Parser α}, env.Production p →
        ∀ s e t, p s = .error e t → e.cause ≠ .nestedTooDeep) ∧
      (∀ {α : Type} {p : Parser α}, env.Consuming p → ∀ s x t, p s = .ok x t → s.Precedes t) ∧
      ∀ {α β γ : Type} {p : Parser γ} {round : α → Parser (α ⊕ β)}, env.grammar.Loop p round →
        Repeats round p ∧ Advances round := by
  refine ⟨unbounded_grammar henv, fun hp s e t h => ?_, fun hp s x t h => ?_,
    fun hloop => ⟨hloop.repeats, hloop.advances henv⟩⟩
  · obtain ⟨must, post, harrives⟩ := hp.arrives henv s
    rw [h] at harrives
    exact harrives.2.causes
  · obtain ⟨post, harrives⟩ := hp.arrives henv s
    rw [h] at harrives
    obtain ⟨hreach, hmoved, -⟩ := harrives
    exact ⟨hreach.tokens, hmoved trivial⟩

/-- A statement of tokens that were never in a template, in an environment with all extensions. -/
theorem parsing_ends_break :
    let env : Environment := { extensions := [.case, .doExpr, .shout ["shout"]] }
    let s : ParserState := { stream := .ofTokens [⟨.name "break", 1, ⟨0, 5⟩⟩] none none }
    (∀ x ∈ env.extensions, x.Known) ∧
      ∃ x t, parseStatement env env.grammar s = .ok x t ∧ s.Precedes t := by
  intro env s
  obtain ⟨-, -, hconsuming, -⟩ := @parsing_ends env known_extensions
  cases hrun : parseStatement env env.grammar s with
  | ok x t => exact ⟨known_extensions, x, t, rfl, hconsuming .statement s x t hrun⟩
  | error e t =>
    have hok : runOn s.stream (parseStatement env env.grammar) =
        .ok (.single (.breakLoop 1), ⟨.mark .endOfTemplate, 1, ⟨5, 5⟩⟩) := by
      cbv
    rw [runOn, hrun] at hok
    cases hok

end LiquidTemplate
