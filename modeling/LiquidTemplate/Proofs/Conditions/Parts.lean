import LiquidTemplate.Proofs.Echoes.Grammars
import LiquidTemplate.Proofs.Operands.Enclosed
import LiquidTemplate.Proofs.Progress.Grammars

/-!
# The parts of a condition

The tests and the bodies of conditions are any tokens that are read by themselves: a test up to the
end of a tag, a body as a template. They are read the same in every condition, wherever it stands. How
many names have been made up before is a part of that, since the names in a body are numbered.

* `Parser.Passes`: reading from states of which it is known how many names have been made up and which
  tags are open.
* `Environment.IsTest`, `IsTest.passes`: tests.
* `Body`, `Branch`: bodies, and bodies with a test before them.
* `Body.passes`: a body up to the name of an end tag.
-/

namespace LiquidTemplate

open LiquidTemplate.Parser LiquidTemplate.Grammar

variable {α β : Type} {env : Environment} {a b c rest ks : List Token.Kind} {k : Token.Kind}
  {m m' m'' : Nat} {tags : List String} {s t : ParserState} {ends : List TokenRule}

/-! ### Reading with made-up names -/

namespace Parser

/-- **Passing.** From every state that has `a` ahead, where `m` names have been made up and the tags
`tags` are open, the parser succeeds with a value that satisfies `post`. Then it has `b` ahead, `m'`
names have been made up, and the same tags are open. -/
def Passes (tags : List String) (m : Nat) (p : Parser α) (a b : List Token.Kind) (m' : Nat)
    (post : α → Prop) : Prop :=
  ∀ s, s.ahead = a → s.madeUp = m → s.openTags = tags →
    ∃ x t, p s = .ok x t ∧ t.ahead = b ∧ t.madeUp = m' ∧ t.openTags = tags ∧ post x

namespace Passes

variable {p : Parser α} {f : α → Parser β} {post : α → Prop} {post' : β → Prop}

theorem pure {x : α} (h : post x) : Passes tags m (Pure.pure x) a a m post :=
  fun s hs hm htags => ⟨x, s, rfl, hs, hm, htags, h⟩

/-- **One part after another.** -/
theorem bind (hp : Passes tags m p a b m' post)
    (hf : ∀ x, post x → Passes tags m' (f x) b c m'' post') : Passes tags m (p >>= f) a c m'' post' := by
  intro s hs hm htags
  obtain ⟨x, t, hx, ht, htm, httags, hpost⟩ := hp s hs hm htags
  obtain ⟨y, u, hy, hu, hum, hutags, hpost'⟩ := hf x hpost t ht htm httags
  exact ⟨y, u, bind_eq_ok.2 ⟨x, t, hx, hy⟩, hu, hum, hutags, hpost'⟩

theorem imp {weaker : α → Prop} (h : Passes tags m p a b m' post) (hp : ∀ x, post x → weaker x) :
    Passes tags m p a b m' weaker := by
  intro s hs hm htags
  obtain ⟨x, t, hx, ht, htm, httags, hpost⟩ := h s hs hm htags
  exact ⟨x, t, hx, ht, htm, httags, hp x hpost⟩

theorem map {g : α → β} (h : Passes tags m p a b m' fun x => post' (g x)) :
    Passes tags m (g <$> p) a b m' post' := by
  intro s hs hm htags
  obtain ⟨x, t, hx, ht⟩ := h s hs hm htags
  exact ⟨g x, t, map_eq_ok.2 ⟨x, hx, rfl⟩, ht⟩

/-- What is done with the current token, which stays. -/
theorem see {f : Token → Parser β}
    (h : ∀ line span, Passes tags m (f ⟨k, line, span⟩) (k :: a) b m' post') :
    Passes tags m (current >>= f) (k :: a) b m' post' := by
  intro s hs hm htags
  obtain ⟨y, t, hy, ht⟩ := h s.stream.current.line s.stream.current.span s hs hm htags
  exact ⟨y, t, bind_eq_ok.2 ⟨_, s, rfl, s.current_eq hs ▸ hy⟩, ht⟩

/-- What is done whatever the current token is. -/
theorem look {f : Token → Parser β} (h : ∀ t, Passes tags m (f t) a b m' post') :
    Passes tags m (current >>= f) a b m' post' := by
  intro s hs hm htags
  obtain ⟨y, t, hy, ht⟩ := h s.stream.current s hs hm htags
  exact ⟨y, t, bind_eq_ok.2 ⟨_, s, rfl, hy⟩, ht⟩

/-- What is done behind a token that is dropped. -/
theorem drop {f : Unit → Parser β} (hk : k.type ≠ .mark .endOfTemplate)
    (h : Passes tags m (f ()) a b m' post') : Passes tags m (step >>= f) (k :: a) b m' post' := by
  intro s hs hm htags
  obtain ⟨y, t, hy, ht⟩ := h s.stepped (s.ahead_stepped hs hk) hm htags
  exact ⟨y, t, bind_eq_ok.2 ⟨(), s.stepped, rfl, hy⟩, ht⟩

/-- What is done with a token that is consumed. -/
theorem take {f : Token → Parser β} (hk : k.type ≠ .mark .endOfTemplate)
    (h : ∀ line span, Passes tags m (f ⟨k, line, span⟩) a b m' post') :
    Passes tags m (advance >>= f) (k :: a) b m' post' := by
  intro s hs hm htags
  obtain ⟨y, t, hy, ht⟩ := h s.stream.current.line s.stream.current.span s.stepped
    (s.ahead_stepped hs hk) hm htags
  exact ⟨y, t, bind_eq_ok.2 ⟨_, s.stepped, rfl, s.current_eq hs ▸ hy⟩, ht⟩

/-- What is done behind a token that is demanded. -/
theorem demand {f : Token → Parser β} {rule : TokenRule} (hk : k.type ≠ .mark .endOfTemplate)
    (hfit : k.fits rule = true) (h : ∀ line span, Passes tags m (f ⟨k, line, span⟩) a b m' post') :
    Passes tags m (expect rule >>= f) (k :: a) b m' post' := by
  intro s hs hm htags
  obtain ⟨y, t, hy, ht⟩ := h s.stream.current.line s.stream.current.span s.stepped
    (s.ahead_stepped hs hk) hm htags
  have hcurrent := s.current_eq hs
  refine ⟨y, t, bind_eq_ok.2 ⟨_, s.stepped, expect_eq_ok.2 ⟨?_, rfl, rfl⟩, hcurrent ▸ hy⟩, ht⟩
  rw [hcurrent, Token.fits_eq, hfit]

/-- What is done before a token that could be skipped, but is another one. -/
theorem stays {f : Bool → Parser β} {rule : TokenRule} (hfit : k.fits rule = false)
    (h : Passes tags m (f false) (k :: a) b m' post') :
    Passes tags m (skipIf rule >>= f) (k :: a) b m' post' := by
  have hskip : Passes tags m (skipIf rule) (k :: a) (k :: a) m fun skipped => skipped = false := by
    refine see fun line span => ?_
    rw [Token.fits_eq, if_neg (by simp [hfit])]
    exact pure rfl
  exact hskip.bind fun _ hx => hx ▸ h

theorem inTag {tag : String} (h : Passes (tag :: tags) m p a b m' post) :
    Passes tags m (Parser.inTag tag p) a b m' post := by
  intro s hs hm htags
  obtain ⟨x, t, hx, ht, htm, httags, hpost⟩ :=
    h { s with openTags := tag :: s.openTags } hs hm (htags ▸ rfl)
  refine ⟨x, { t with openTags := t.openTags.tail }, ?_, ht, htm, congrArg List.tail httags, hpost⟩
  rw [Parser.inTag, afterwards, hx]

theorem awaiting (h : Passes tags m p a b m' post) (ends : List TokenRule) :
    Passes tags m (Parser.awaiting ends p) a b m' post := by
  intro s hs hm htags
  obtain ⟨x, t, hx, ht, htm, httags, hpost⟩ :=
    h { s with expectedEnds := ends :: s.expectedEnds } hs hm htags
  refine ⟨x, { t with expectedEnds := t.expectedEnds.tail }, ?_, ht, htm, httags, hpost⟩
  rw [Parser.awaiting, afterwards, hx]

/-- **The last round** of a repetition. -/
theorem stop {step : α → Parser (α ⊕ β)} {x : α}
    (h : Passes tags m (step x) a b m' fun r => ∃ y, r = .inr y ∧ post' y) :
    Passes tags m (repeatFrom step x) a b m' post' := by
  intro s hs hm htags
  obtain ⟨_, t, hx, ht, htm, httags, y, rfl, hy⟩ := h s hs hm htags
  exact ⟨y, t, repeatFrom_eq_ok.2 (.inl hx), ht, htm, httags, hy⟩

/-- **A round** of a repetition that consumes tokens, and the others. -/
theorem round {step : α → Parser (α ⊕ β)} {x : α} (hlt : b.length < a.length)
    (h : Passes tags m (step x) a b m' fun r => ∃ y, r = .inl y ∧ post y)
    (hmore : ∀ y, post y → Passes tags m' (repeatFrom step y) b c m'' post') :
    Passes tags m (repeatFrom step x) a c m'' post' := by
  intro s hs hm htags
  obtain ⟨_, t, hx, ht, htm, httags, y, rfl, hy⟩ := h s hs hm htags
  obtain ⟨z, u, hz, hu⟩ := hmore y hy t ht htm httags
  have hshorter : t.remaining < s.remaining := by
    rw [ParserState.remaining_eq, ParserState.remaining_eq, ht, hs]
    exact hlt
  exact ⟨z, u, repeatFrom_eq_ok.2 (.inr ⟨y, t, hx, hshorter, hz⟩), hu⟩

end Passes

/-- A run on any route ends where it began but for the tokens in front. -/
theorem Tracks.reaches {p q : Parser α} {must post : α → Prop} {x : α}
    (h : Tracks s.route (s.weight + 1) p q must post) (hx : p s = .ok x t) : s.Reaches t := by
  have harrives := (h s s.on_route (Nat.lt_succ_self _)).arrives
  rw [hx] at harrives
  exact harrives.1

end Parser

/-! ### Tests -/

/-- **A test**: tokens that are read up to the end of a tag, as an expression or, with commas between
them, as a tuple of expressions. -/
def Environment.IsTest (env : Environment) (ks : List Token.Kind) (e : Expr) : Prop :=
  ∃ s x t rest, s.ahead = ks ++ .mark .blockEnd :: rest ∧
    parseTuple env.grammar (.expression false) [] false s = .ok x t ∧
    t.ahead = .mark .blockEnd :: rest ∧ e.Alike x

/-- **A test in any tag**: it makes up no names. -/
theorem Environment.IsTest.passes {e : Expr} (h : env.IsTest ks e) :
    Passes tags m (parseTuple env.grammar (.expression false) [] false) (ks ++ .mark .blockEnd :: rest)
      (.mark .blockEnd :: rest) m e.Alike := by
  obtain ⟨s, y, t, oldRest, hs, hy, ht, hey⟩ := h
  intro s' hs' hm htags
  obtain ⟨ts, behind, hstream, rfl, hbehind⟩ := List.map_eq_append_iff.1 hs
  obtain ⟨old, olds, rfl, hold, holds⟩ := List.map_eq_cons_iff.1 hbehind
  obtain ⟨ts', behind', hstream', hkinds, hbehind'⟩ := List.map_eq_append_iff.1 hs'
  obtain ⟨new, news, rfl, hnew, hnews⟩ := List.map_eq_cons_iff.1 hbehind'
  let x : Exchange :=
    { lines := false
      old, oldRest := olds
      new, newRest := news
      isMark := ⟨_, hold⟩
      stops := Token.IsMark.stops ⟨_, hnew⟩
      line_eq := rfl }
  have hspares : x.Spares ts :=
    ⟨.inl fun _ => .inr (Token.isMark_iff.2 hnew), .inl (Token.IsMark.name?_eq_none ⟨_, hnew⟩)⟩
  have habreast : x.Abreast (weightOf (ts.map Token.kind)) s s' :=
    ⟨ts, ts', hstream, hstream', seen_of_kinds hkinds.symm, Nat.le_refl _, hspares⟩
  obtain ⟨e', t', he', hee, us, us', hus, hus', hseen, -⟩ := sim_tuple (simulates_grammar env _ x) false
    false habreast hy (.inr ⟨⟨_, hnew⟩, rfl⟩)
  have hlength := congrArg List.length ht
  rw [ParserState.ahead, hus, List.length_map, List.length_append, ← holds] at hlength
  have hnil : us = [] := by
    refine List.eq_nil_of_length_eq_zero ?_
    simp only [x, List.length_cons, List.length_map] at hlength
    omega
  subst hnil
  obtain rfl : us' = [] := List.map_eq_nil_iff.1 hseen.symm
  have hminds : env.grammar.Minds .still := minds_grammar env obeyedByRanges_counts
  have hstill := obeys_tuple hminds (.expression false) [] false s'
  rw [he'] at hstill
  have htracks :=
    tracks_tuple (r := s'.route) (follows_grammar env s'.weight) (.expression false) [] false
  refine ⟨e', t', he', ?_, hstill.trans hm, (htracks.reaches he').openTags.trans htags, ?_⟩
  · rw [ParserState.ahead, hus', ← hnew, ← hnews]
    rfl
  · exact hee.symm.trans hey

/-- **An expression in parentheses** is a test. -/
theorem Environment.Spells.isTest {e : Expr} (h : env.Spells ks e) : env.IsTest (parens ks) e := by
  let kinds := parens ks ++ [.mark .blockEnd, .mark .endOfTemplate]
  let start := ParserState.before kinds
  have hclosed : start.stream.tokens = TokenStream.close _ := TokenStream.tokens_ofTokens ..
  have hs : start.ahead = parens ks ++ .mark .blockEnd :: [.mark .endOfTemplate] := by
    rw [ParserState.ahead, hclosed]
    simp [kinds, TokenStream.close, Token.isEnd, Token.isMark, Token.type, Token.Kind.type,
      Function.comp_def]
  have hends : (Token.Kind.mark .blockEnd).Ends false true := fun _ h => by cases h
  have hread : Parser.Reads start.weight (parseExpression env.grammar false true)
      (parens ks ++ .mark .blockEnd :: [.mark .endOfTemplate]) _ _ :=
    (Environment.Spells.readBy_grammar (x := ⟨ks, e⟩) h).reads hends
  have htuple : Parser.Reads start.weight (parseTuple env.grammar (.expression false) [] false)
      (parens ks ++ .mark .blockEnd :: [.mark .endOfTemplate])
        (.mark .blockEnd :: [.mark .endOfTemplate])
      e.Alike := reads_tuple_one (fun _ _ => rfl) (by rintro ⟨⟩) hread
  obtain ⟨x, t, hx, ht, -, hex⟩ := htuple start hs (Nat.le_refl _)
  exact ⟨start, x, t, _, hs, hx, ht, hex⟩

/-! ### Bodies -/

/-- **A body**: tokens that are the statements `stmts` as a template of their own, for which `names`
names are made up. -/
structure Body (env : Environment) where
  kinds : List Token.Kind
  stmts : List Stmt
  names : Nat
  not_end : .mark .endOfTemplate ∉ kinds
  reads : ∃ s t, s.ahead = kinds ++ [.mark .endOfTemplate] ∧ s.madeUp = 0 ∧
    env.grammar.parseBody none s = .ok stmts t ∧ t.madeUp = names

/-- **A branch**: a body with a test before it. -/
structure Branch (env : Environment) extends Body env where
  test : List Token.Kind
  testTree : Expr
  isTest : env.IsTest test testTree

/-- The statements of a body where `m` names have been made up before. -/
def Body.after (body : Body env) (m : Nat) : List Stmt :=
  body.stmts.map (Stmt.renamed (renumbered m))

/-- **A stretch of text** as a body. -/
def Body.text (env : Environment) (data : String) (hdata : data.isEmpty = false) : Body env where
  kinds := [.data data]
  stmts := [.output [.templateData data 1] 1]
  names := 0
  not_end := by simp
  reads := by
    let s := ParserState.before [.data data, .mark .endOfTemplate]
    have hahead : s.ahead = [.data data, .mark .endOfTemplate] := rfl
    have hshorter : s.stepped.remaining < s.remaining := by
      rw [ParserState.remaining_eq, ParserState.remaining_eq, s.ahead_stepped hahead nofun, hahead]
      exact Nat.lt_succ_self 1
    have hlast :
        parseBodyPart env.grammar [] (PartialBody.addText {} data s.stream.current.line) s.stepped =
          .ok (.inr [.output [.templateData data 1] 1]) s.stepped := by
      rw [PartialBody.addText, if_neg (by simp [hdata])]
      rfl
    exact ⟨s, s.stepped, hahead, rfl, repeatFrom_eq_ok.2 (.inr ⟨_, s.stepped, rfl, hshorter,
      repeatFrom_eq_ok.2 (.inl hlast)⟩), rfl⟩

/-- A stream with other tokens in front of some of its own. -/
theorem TokenStream.exists_append (stream : TokenStream) (ts : List Token) {u : Token} {us : List Token}
    (h : u :: us <:+ stream.tokens) : ∃ other : TokenStream, other.tokens = ts ++ u :: us := by
  obtain ⟨front, last, hlast, hend⟩ := stream.exists_end
  have hclosed : (u :: us).getLast? = some last := by
    obtain ⟨before, hbefore⟩ := h
    rw [hlast] at hbefore
    have hgetLast := congrArg List.getLast? hbefore
    rwa [List.getLast?_append_cons, List.getLast?_concat] at hgetLast
  refine ⟨.ofTokens (ts ++ u :: us) none none, (tokens_ofTokens ..).trans ?_⟩
  rw [close, List.getLast?_append_cons, hclosed, Option.map_some, hend]
  rfl

/-- **Tags that end the bodies of conditions.** -/
def conditionEnds : List TokenRule :=
  [.name "elif", .name "else", endTag "if", endTag "unless"]

/-- **They are no statements** themselves. -/
theorem tag?_eq_none (henv : ∀ y ∈ env.extensions, y.Known) {g : Grammar} {word : String}
    (hword : .name word ∈ conditionEnds) : tag? env g word = none := by
  have hword : word ∈ ["elif", "else", "endif", "endunless"] := by
    simpa [conditionEnds, endTag] using hword
  have hextension : env.extension? word = none := by
    cases hext : env.extension? word with
    | none => rfl
    | some y =>
      obtain ⟨hmem, htag⟩ := Environment.extension?_mem hext
      have hnot {tags : List String} (htags : ∀ tag ∈ tags, tag ∈ ["case", "shout", "if", "do"]) :
          word ∉ tags := by
        intro hmem
        have hboth := htags word hmem
        simp only [List.mem_cons, List.not_mem_nil, or_false] at hword hboth
        rcases hword with rfl | rfl | rfl | rfl <;> revert hboth <;> decide
      cases henv y hmem with
      | doExpr => exact absurd htag (hnot (by decide))
      | case => exact absurd htag (hnot (by decide))
      | shout h => exact absurd htag (hnot fun tag hmem => List.mem_cons_of_mem _ (h tag hmem))
  have hbuiltin : builtin? g word = none := by
    simp only [List.mem_cons, List.not_mem_nil, or_false] at hword
    rcases hword with rfl | rfl | rfl | rfl <;> rfl
  unfold tag?
  rw [hbuiltin, hextension]
  rfl

/-- **No statement begins at the end of a body.** -/
theorem statement_not_end (henv : ∀ y ∈ env.extensions, y.Known) (hends : ends ⊆ conditionEnds)
    {y : Expansion} (h : env.grammar.statement s = .ok y t) : s.stream.current.fitsAny ends = false := by
  refine Bool.eq_false_iff.2 fun hfits => ?_
  obtain ⟨rule, hrule, hfit⟩ := List.any_eq_true.1 hfits
  obtain ⟨word, rfl⟩ : ∃ word, rule = .name word := by
    have hmem := hends hrule
    simp only [conditionEnds, endTag, List.mem_cons, List.not_mem_nil, or_false] at hmem
    rcases hmem with rfl | rfl | rfl | rfl <;> exact ⟨_, rfl⟩
  rw [(unbounded_grammar henv).statement] at h
  obtain ⟨tok, u, hu, h⟩ := bind_eq_ok.1 h
  obtain ⟨rfl, rfl⟩ := current_eq_ok.1 hu
  have hname : u.stream.current.name? = some word := Token.name?_eq_some_iff.2 (Token.isName_iff.1 hfit)
  rw [hname] at h
  dsimp only at h
  rw [tag?_eq_none henv (hends hrule)] at h
  cases h

namespace Body

variable (henv : ∀ y ∈ env.extensions, y.Known) (body : Body env) (hends : ends ⊆ conditionEnds)
  {tag : String} (htag : .name tag ∈ ends)
include henv hends htag

/-- **A body before the name of an end tag** has the statements that it has by itself, with the made-up
names that belong there. -/
theorem passes_body : Passes tags m (parseBody env.grammar (some ends))
    (body.kinds ++ .mark .blockBegin :: .name tag :: rest) (.name tag :: rest) (m + body.names)
    (Stmt.AllAlike (body.after m)) := by
  obtain ⟨s, t, hs, hzero, hread, hnames⟩ := body.reads
  intro s' hs' hm htags
  obtain ⟨ts, behind, hstream, hkinds, hbehind⟩ := List.map_eq_append_iff.1 hs
  obtain ⟨last, lasts, rfl, hlast, hnil⟩ := List.map_eq_cons_iff.1 hbehind
  obtain rfl := List.map_eq_nil_iff.1 hnil
  obtain ⟨ts', behind', hstream', hkinds', hbehind'⟩ := List.map_eq_append_iff.1 hs'
  obtain ⟨first, firsts, rfl, hfirst, hfirsts⟩ := List.map_eq_cons_iff.1 hbehind'
  obtain ⟨word, more, rfl, hword, hmore⟩ := List.map_eq_cons_iff.1 hfirsts
  -- the tokens of the template stand before the end tag; only then are those of the condition looked at
  have hsuffix : first :: word :: more <:+ s'.stream.tokens := ⟨ts', hstream'.symm⟩
  obtain ⟨other, hother⟩ := s'.stream.exists_append ts hsuffix
  let x : Sequel :=
    { old := [last]
      new := first :: word :: more
      shift := m
      names := renumbered m
      ends := .inr ⟨⟨_, [], rfl, _, hlast⟩, _, _, rfl, _, hfirst⟩
      weight_le := by
        rw [List.map_cons, List.map_cons, hlast, hfirst]
        exact Nat.le_add_right 1 _
      renames := renumbered_internalName m }
  let start : ParserState := { s' with stream := other }
  have halong : x.Along s { start with expectedEnds := ends :: start.expectedEnds } :=
    ⟨⟨ts, hstream, hother⟩, hm.trans (by rw [hzero, Nat.zero_add])⟩
  have hclosing : x.Closing := List.forall_mem_singleton.2 (Token.isEnd_iff.2 hlast)
  have hparts : repeatFrom (parseBodyPart env.grammar []) {} s = .ok body.stmts t := hread
  obtain ⟨hsuf, hend, c, u, hc, hu, hrest⟩ := body_along hclosing (continues_grammar env _)
    (forming_grammar env) (carries_grammarStatement (.of_known henv) _) [] ends
    (fun _ _ _ => statement_not_end henv hends) halong hparts
  obtain ⟨us, hus, hus'⟩ := hu.tokens
  obtain rfl : us = [] := by
    refine eq_nil_of_not_mem hus (hstream ▸ hsuf) fun hmem => body.not_end ?_
    rw [← hkinds, ← Token.isEnd_iff.1 hend]
    exact List.mem_map_of_mem hmem
  have hbegin : u.stream.current.kind = .mark .blockBegin := (List.cons.inj hus').1 ▸ hfirst
  have hahead : u.ahead = .mark .blockBegin :: .name tag :: rest := by
    rw [ParserState.ahead, hus', ← hword, ← hmore, ← hfirst]
    rfl
  have hstepped : u.stepped.ahead = .name tag :: rest := u.ahead_stepped hahead (by rintro ⟨⟩)
  have hfits : u.stepped.stream.current.fitsAny ends = true := by
    refine List.any_eq_true.2 ⟨_, htag, ?_⟩
    rw [Token.fits_eq, (List.cons.inj hstepped).1]
    exact beq_self_eq_true tag
  have hlastPart : repeatFrom (parseBodyPart env.grammar ends) (c.behind [] x.names) u =
      .ok (body.after m) u.stepped := by
    refine repeatFrom_eq_ok.2 (.inl (bind_eq_ok.2 ⟨_, u, rfl, ?_⟩))
    rw [hbegin]
    refine bind_eq_ok.2 ⟨(), u.stepped, rfl, bind_eq_ok.2 ⟨_, u.stepped, rfl, ?_⟩⟩
    rw [hfits, PartialBody.stmts_behind_flush, hc]
    rfl
  have hstart : parseBody env.grammar (some ends) start =
      .ok (body.after m) { u.stepped with expectedEnds := u.stepped.expectedEnds.tail } := by
    have hall : repeatFrom (parseBodyPart env.grammar ends) {}
        { start with expectedEnds := ends :: start.expectedEnds } = .ok (body.after m) u.stepped :=
      hrest _ _ hlastPart
    show Parser.awaiting ends (repeatFrom (parseBodyPart env.grammar ends) {}) start = _
    rw [Parser.awaiting, afterwards, hall]
  have hparallel : start.Parallel false start.weight s' := by
    refine ⟨?_, rfl, Nat.le_refl _⟩
    rw [show start.stream.tokens = _ from hother, hstream', List.map_append, List.map_append,
      seen_of_kinds (hkinds.trans hkinds'.symm)]
  obtain ⟨stmts, t', ht', hsame, hparallel'⟩ := body_parallel henv hparallel hstart
  have htracks : Tracks _ (s'.weight + 1) (parseBody env.grammar (some ends)) _ _ _ :=
    tracks_body (followsTags_grammar henv s'.nests_route s'.weight) s'.route.allows fun _ _ _ => trivial
  refine ⟨stmts, t', ht', ?_, ?_, (htracks.reaches ht').openTags.trans htags, hsame.symm⟩
  · exact hparallel'.ahead.symm.trans hstepped
  · rw [← hparallel'.madeUp, ← hnames, Nat.add_comm]
    exact hu.madeUp

/-- **From the end of a tag on** to the name of an end tag, which may be consumed. -/
theorem passes (consume : Bool) : Passes tags m (parseStatements env.grammar ends consume)
    (.mark .blockEnd :: (body.kinds ++ .mark .blockBegin :: .name tag :: rest))
    (if consume then rest else .name tag :: rest) (m + body.names) (Stmt.AllAlike (body.after m)) := by
  refine .stays rfl (.demand nofun rfl fun _ _ => ?_)
  refine (body.passes_body henv hends htag).bind fun stmts hstmts => .see fun line span => ?_
  have hopen : Token.isEnd ⟨.name tag, line, span⟩ = false := rfl
  rw [hopen, if_neg Bool.false_ne_true]
  cases consume with
  | true => exact .drop nofun (.pure hstmts)
  | false => exact .pure hstmts

end Body

end LiquidTemplate
