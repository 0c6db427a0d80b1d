import LiquidTemplate.Proofs.Conduct.Statements
import LiquidTemplate.Proofs.Errors.Lexing
import LiquidTemplate.Proofs.Scanning.Shape
import LiquidTemplate.Proofs.Texts.Templates

/-!
# Errors inside of tags

The tokens of a template have a shape, and between two parts of a body the parser always stands
between two tags. So it never meets a token of a tag where a text or another tag has to be.

* `Conduct.inside`: the rule that no error is about a token outside of a tag.
* `obeyedByRanges_insideAlways`: range literals keep to it, and so do all expressions.
* `Shaped.behind_end`: behind the end of a tag the rest is shaped.
* `obeys_body`: bodies keep to the rule within the tokens of a template.
* `shape_of_template`: the shape of the tokens of a template, and the errors of their parser.
-/

namespace LiquidTemplate

open LiquidTemplate.Parser LiquidTemplate.Grammar

/-- **No error outside of tags** from the states whose tokens are at a place that is never left. -/
def Conduct.inside (place : List Token → Prop)
    (hplace : ∀ {ts us}, us <:+ ts → place ts → place us) : Conduct where
  moves s t := place s.stream.tokens → t.stream.tokens <:+ s.stream.tokens
  fails s e _ := place s.stream.tokens → e.cause.Inside
  refl _ := fun _ => List.suffix_refl _
  trans h h' := fun hs => (h' (hplace (h hs) hs)).trans (h hs)
  carry h h' := fun hs => h' (hplace (h hs) hs)
  step s := fun _ => s.stepped_suffix
  mismatch s rule := by
    intro _
    show SyntaxError.Cause.Inside (if s.stream.current.isEnd then _ else _)
    split
    · exact nofun
    · exact nofun
  error s cause line h := by
    intro _
    show SyntaxError.Cause.Inside (SyntaxError.cause (if _ then _ else _))
    split
    · exact h
    · exact h
  inTag h := h
  inTag_fails h := h

/-! ### Expressions -/

theorem SyntaxError.Cause.Lexical.inside {cause : Cause} (h : cause.Lexical) : cause.Inside := by
  rintro got rfl
  exact h

variable {g : Grammar} {env : Environment}

/-- **The rule everywhere**, which expressions keep to. -/
def Conduct.insideAlways : Conduct :=
  .inside (fun _ => True) fun _ _ => trivial

/-- Range literals are read from streams of their own, whose tokens have no shape. -/
theorem obeyedByRanges_insideAlways : Conduct.insideAlways.ObeyedByRanges := by
  intro g h t start stop
  have hbound (text : String) : Obeys .insideAlways (parseBound g text t) := by
    refine Obeys.state fun s => ?_
    cases hlex : Token.ofExpression text t.line t.span.lo with
    | error e =>
      intro _
      have hinside : e.cause.Inside := (fails_of_ofExpression hlex).2.inside
      exact hinside
    | ok tokens =>
      have hempty : SyntaxError.Cause.emptyRangeBound.Inside := nofun
      have hinvalid : (SyntaxError.Cause.invalidRangeBound text).Inside := nofun
      exact (Obeys.ite (obeys_failAt _ hempty) (.ite .pure (obeys_failAt _ hinvalid))) s
  refine (hbound start).bind fun first => (hbound stop).bind fun last => .state fun s => ?_
  have houtcome := h true true
    { stream := .ofTokens (rangeTokens t first last) s.stream.name s.stream.filename }
  cases hrun : runOn (.ofTokens (rangeTokens t first last) s.stream.name s.stream.filename)
      (g.expression true true) with
  | error e =>
    intro _
    unfold runOn at hrun
    split at hrun
    · nomatch hrun
    · next e' u hu =>
      obtain rfl := Except.error.inj hrun
      rw [hu] at houtcome
      exact houtcome trivial
  | ok x => exact (Obeys.ite .pure (obeys_failAt _ (by exact nofun))) s

/-! ### Places within a template -/

/-- **Within the tokens of a template.** -/
def WithinTemplate (ts : List Token) : Prop :=
  ∃ all, Shaped all ∧ ts <:+ all

/-- **The rule within templates**, which statements keep to. -/
def Conduct.insideTemplate : Conduct :=
  .inside WithinTemplate fun h ⟨all, hall, hts⟩ => ⟨all, hall, h.trans hts⟩

/-- A made-up name changes no token. -/
theorem Conduct.allowsFresh_insideTemplate : Conduct.insideTemplate.AllowsFresh :=
  fun _ _ => List.suffix_refl _

theorem obeys_insideTemplate {α : Type} {p : Parser α} (h : Obeys .insideAlways p) :
    Obeys .insideTemplate p := by
  intro s
  have hs := h s
  cases hp : p s with
  | ok x t =>
    rw [hp] at hs
    exact fun _ => hs trivial
  | error e t =>
    rw [hp] at hs
    exact fun _ => hs trivial

theorem Grammar.Minds.insideTemplate (hg : g.Minds .insideAlways) : g.Minds .insideTemplate where
  expression conditional filters := obeys_insideTemplate (hg.expression conditional filters)
  negation filters := obeys_insideTemplate (hg.negation filters)
  signed := obeys_insideTemplate hg.signed
  group := obeys_insideTemplate hg.group
  range t start stop := obeys_insideTemplate (hg.range t start stop)

/-- A suffix that begins with none of the tokens in front begins behind them. -/
theorem suffix_of_not_mem {t : Token} {ts front back : List Token} (h : t :: ts <:+ front ++ back)
    (ht : t ∉ front) : t :: ts <:+ back := by
  induction front with
  | nil => exact h
  | cons x front ih =>
    rcases List.suffix_cons_iff.1 h with heq | h
    · obtain ⟨rfl, -⟩ := List.cons.inj heq
      exact absurd List.mem_cons_self ht
    · exact ih h fun hmem => ht (List.mem_cons_of_mem x hmem)

/-- Marks of the end of a tag. -/
def Token.ClosesTag (t : Token) : Prop :=
  t.kind = .mark .variableEnd ∨ t.kind = .mark .blockEnd

/-- **Behind the end of a tag** the tokens are shaped. -/
theorem Shaped.behind_end {t : Token} {ts all : List Token} (h : Shaped all) (ht : t.ClosesTag)
    (hsuf : t :: ts <:+ all) : Shaped ts := by
  have hkind {u : Token} {k : Token.Kind} (hu : u.kind = k)
      (hk : k ≠ .mark .variableEnd ∧ k ≠ .mark .blockEnd) : t ≠ u := by
    rintro rfl
    rcases ht with ht | ht
    · exact hk.1 (hu.symm.trans ht)
    · exact hk.2 (hu.symm.trans ht)
  have htag {u v : Token} {inside ts' : List Token} (hu : t ≠ u) (hinside : ∀ x ∈ inside, x.kind.Inner)
      (hrest : Shaped ts') (ih : t :: ts <:+ ts' → Shaped ts)
      (hsuf : t :: ts <:+ u :: inside ++ v :: ts') : Shaped ts := by
    have hno : t ∉ u :: inside := by
      intro hmem
      rcases List.mem_cons.1 hmem with heq | hmem
      · exact hu heq
      · have hinner := hinside t hmem
        rcases ht with ht | ht
        · rw [ht] at hinner
          exact hinner
        · rw [ht] at hinner
          exact hinner
    rcases List.suffix_cons_iff.1 (suffix_of_not_mem hsuf hno) with heq | hsuf
    · obtain ⟨-, rfl⟩ := List.cons.inj heq
      exact hrest
    · exact ih hsuf
  induction h with
  | @finish u hu =>
    rcases List.suffix_cons_iff.1 hsuf with heq | hsuf
    · exact absurd (List.cons.inj heq).1 (hkind hu (by simp))
    · exact absurd (List.suffix_nil.1 hsuf) (List.cons_ne_nil _ _)
  | @text u data us hu _ _ ih =>
    rcases List.suffix_cons_iff.1 hsuf with heq | hsuf
    · exact absurd (List.cons.inj heq).1 (hkind hu (by simp))
    · exact ih hsuf
  | output hu _ hinside _ hrest ih => exact htag (hkind hu (by simp)) hinside hrest ih hsuf
  | block hu _ hinside _ hrest ih => exact htag (hkind hu (by simp)) hinside hrest ih hsuf

/-- **What a shaped list begins with**: the end of the template, a text with a shaped list behind it,
or a tag. -/
theorem Shaped.first {t : Token} {ts : List Token} (h : Shaped (t :: ts)) :
    t.kind = .mark .endOfTemplate ∨ (∃ data, t.kind = .data data ∧ Shaped ts) ∨
      t.kind = .mark .variableBegin ∨ t.kind = .mark .blockBegin := by
  generalize hall : t :: ts = all at h
  cases h with
  | finish ht =>
    obtain ⟨rfl, -⟩ := List.cons.inj hall
    exact .inl ht
  | text ht _ hrest =>
    obtain ⟨rfl, rfl⟩ := List.cons.inj hall
    exact .inr (.inl ⟨_, ht, hrest⟩)
  | output ht _ _ _ _ =>
    obtain ⟨rfl, -⟩ := List.cons.inj hall
    exact .inr (.inr (.inl ht))
  | block ht _ _ _ _ =>
    obtain ⟨rfl, -⟩ := List.cons.inj hall
    exact .inr (.inr (.inr ht))

/-! ### Bodies -/

section Bodies

variable {s t : ParserState} {α : Type}

/-- Behind a mark that is demanded at the end of a tag the tokens are shaped. -/
theorem shaped_of_expect {m : Mark} {tok : Token} (hm : m = .variableEnd ∨ m = .blockEnd)
    (hplace : WithinTemplate s.stream.tokens) (h : expectMark m s = .ok tok t) :
    Shaped t.stream.tokens := by
  obtain ⟨hfits, -, rfl⟩ := expect_eq_ok.1 h
  have hmark : s.stream.current.kind = .mark m := Token.isMark_iff.1 hfits
  have hcloses : s.stream.current.ClosesTag := by
    rcases hm with rfl | rfl
    · exact .inl hmark
    · exact .inr hmark
  have hend : s.stream.atEnd = false := by
    unfold TokenStream.atEnd Token.isEnd Token.isMark Token.type
    rw [hmark]
    rcases hm with rfl | rfl <;> rfl
  obtain ⟨all, hall, hsuf⟩ := hplace
  show Shaped s.stream.next.tokens
  rw [TokenStream.tokens_next, if_neg (s.stream.later_ne_nil hend)]
  exact hall.behind_end hcloses hsuf

/-- A production within a template, with the mark of the end of its tag. -/
theorem shaped_of_closed {β : Type} {p : Parser α} {f : α → Token → β} {m : Mark} {y : β}
    (hp : Obeys .insideTemplate p) (hm : m = .variableEnd ∨ m = .blockEnd)
    (hplace : WithinTemplate s.stream.tokens)
    (h : (do let x ← p; let tok ← expectMark m; return f x tok) s = .ok y t) :
    Shaped t.stream.tokens := by
  obtain ⟨x, u, hu, h⟩ := bind_eq_ok.1 h
  obtain ⟨tok, v, hv, h⟩ := bind_eq_ok.1 h
  obtain ⟨-, rfl⟩ := EStateM.Result.ok.inj h
  have hmoves := hp s
  rw [hu] at hmoves
  obtain ⟨all, hall, hsuf⟩ := hplace
  exact shaped_of_expect hm ⟨all, hall, (hmoves ⟨all, hall, hsuf⟩).trans hsuf⟩ hv

variable (hg : g.Minds .insideTemplate) (hstatement : Obeys .insideTemplate g.statement)

include hg hstatement

/-- **A part of a body** begins where the tokens are shaped, and so does the next one. -/
theorem outcome_bodyPart (ends : List TokenRule) (b : PartialBody) (hs : Shaped s.stream.tokens) :
    Conduct.insideTemplate.Outcome s (parseBodyPart g ends b s) ∧
      ∀ b' t, parseBodyPart g ends b s = .ok (.inl b') t → Shaped t.stream.tokens := by
  have hplace : WithinTemplate s.stream.tokens := ⟨_, hs, List.suffix_refl _⟩
  have hstepped : WithinTemplate s.stepped.stream.tokens := ⟨_, hs, s.stepped_suffix⟩
  have houtput : Obeys .insideTemplate (parseOutput g) :=
    (obeys_anyTuple hg).bind fun _ => (obeys_expect _).bind fun _ => .pure
  have hclosed : Obeys .insideTemplate (parseClosedStatement g) :=
    hstatement.bind fun _ => (obeys_expect _).bind fun _ => .pure
  have hfirst := Shaped.first hs
  constructor
  · unfold parseBodyPart
    refine outcome_bind (obeys_current s) fun tok u hu => ?_
    obtain ⟨rfl, rfl⟩ := current_eq_ok.1 hu
    rcases hfirst with hk | ⟨data, hk, -⟩ | hk | hk <;> rw [hk]
    · exact Obeys.pure _
    · exact (obeys_step.bind fun _ => .pure) _
    · exact (obeys_step.bind fun _ => houtput.bind fun _ => .pure) _
    · refine (obeys_step.bind fun _ => obeys_current.bind fun _ => .ite .pure ?_) _
      exact hclosed.bind fun _ => .pure
  · intro b' t h
    cases bodyStep_of_ok h with
    | text hk =>
      rcases hfirst with hk' | ⟨_, hk', hrest⟩ | hk' | hk' <;> rw [hk] at hk'
      · nomatch hk'
      · show Shaped s.stream.next.tokens
        rw [TokenStream.tokens_next]
        split
        · exact hs
        · exact hrest
      · nomatch hk'
      · nomatch hk'
    | output _ h =>
      exact shaped_of_closed (f := fun e _ => e) (obeys_anyTuple hg) (.inl rfl) hstepped h
    | statement _ h =>
      exact shaped_of_closed (f := fun (x : Expansion) _ => x.toList) hstatement (.inr rfl) hstepped h

/-- **A body** that begins where the tokens are shaped. -/
theorem outcome_body (ends : Option (List TokenRule)) (hs : Shaped s.stream.tokens) :
    Conduct.insideTemplate.Outcome s (parseBody g ends s) := by
  have hparts (rules : List TokenRule) {s : ParserState} (hs : Shaped s.stream.tokens) :
      Conduct.insideTemplate.Outcome s (repeatFrom (parseBodyPart g rules) {} s) :=
    outcome_repeatFrom (fun s => Shaped s.stream.tokens)
      (fun b _ hs => outcome_bodyPart hg hstatement rules b hs) hs
  cases ends with
  | none => exact hparts [] hs
  | some rules =>
    have hrun := hparts rules (s := { s with expectedEnds := rules :: s.expectedEnds }) hs
    show Conduct.insideTemplate.Outcome s (awaiting rules (repeatFrom (parseBodyPart g rules) {}) s)
    unfold awaiting afterwards
    split
    · next x t h =>
      rw [h] at hrun
      exact hrun
    · next e t h =>
      rw [h] at hrun
      exact hrun

/-- **The body of a statement** begins behind the end of its tag. -/
theorem obeys_body (ends : List TokenRule) (consume : Bool) :
    Obeys .insideTemplate (parseStatements g ends consume) := by
  intro s
  by_cases hplace : WithinTemplate s.stream.tokens
  · refine outcome_bind (obeys_skipIf _ s) fun found t ht => ?_
    refine outcome_bind (obeys_expect _ t) fun tok u hu => ?_
    have hmoves := obeys_skipIf (c := .insideTemplate) (.type (.symbol .colon)) s
    have ht : skipIf (.type (.symbol .colon)) s = .ok found t := ht
    rw [ht] at hmoves
    obtain ⟨all, hall, hsuf⟩ := hplace
    have hshaped := shaped_of_expect (.inr rfl) ⟨all, hall, (hmoves ⟨all, hall, hsuf⟩).trans hsuf⟩ hu
    refine outcome_bind (outcome_body hg hstatement (some ends) hshaped) fun body v _ => ?_
    refine (obeys_current.bind fun _ => .ite (obeys_failUnclosed _ _) (.ite ?_ .pure)) v
    exact obeys_step.bind fun _ => .pure
  · cases parseStatements g ends consume s with
    | ok body t => exact fun h => absurd h hplace
    | error e t => exact fun h => absurd h hplace

end Bodies

/-! ### Grammars and templates -/

/-- The statements of the grammar of an environment. -/
theorem outcome_template (henv : ∀ x ∈ env.extensions, x.Known) {s : ParserState}
    (hs : Shaped s.stream.tokens) :
    Conduct.insideTemplate.Outcome s (env.grammar.parseBody none s) := by
  have hminds (n : Nat) := (minds_below env obeyedByRanges_insideAlways n).insideTemplate
  have hgrammar := (minds_grammar env obeyedByRanges_insideAlways).insideTemplate
  have hext : Conduct.insideTemplate.ObeyedByExtensions env :=
    obeyedByExtensions_known henv fun _ => Conduct.allowsFresh_insideTemplate
  have horderly := orderly_grammar hext (fun _ => obeys_body) hminds hgrammar
  exact outcome_body hgrammar horderly.statement none hs

/-- **The shape of the tokens of a template**: texts that are not empty, and tags whose brackets are
balanced, up to the end. So no parser of an environment with known extensions meets a token of a tag
outside of that. -/
theorem shape_of_template {d : Delimiters} {source : String} {tokens : List Token}
    (h : Token.ofTemplate d source = .ok tokens) :
    Shaped tokens ∧ ∀ env : Environment, (∀ x ∈ env.extensions, x.Known) →
      ∀ (name filename : Option String) (e : SyntaxError),
        env.parseStream (.ofTokens tokens name filename) = .error e →
          ∀ got, e.cause ≠ .outsideTag got := by
  have hshaped := shaped_of_ok h
  refine ⟨hshaped, fun env henv name filename e he => ?_⟩
  have hstream : Shaped (TokenStream.ofTokens tokens name filename).tokens := by
    rw [TokenStream.tokens_ofTokens, TokenStream.close_ofTemplate h]
    exact hshaped
  have houtcome := outcome_template henv (s := { stream := .ofTokens tokens name filename }) hstream
  unfold Environment.parseStream at he
  split at he
  · nomatch he
  · next e' t ht =>
    obtain rfl := Except.error.inj he
    rw [ht] at houtcome
    exact houtcome ⟨_, hstream, List.suffix_refl _⟩

/-- A tag that is not known, between two texts. -/
theorem shape_of_template_unknown :
    let source := "a\x7b%x%\x7db"
    let env : Environment := {}
    ∃ tokens e, Token.ofTemplate {} source = .ok tokens ∧ Shaped tokens ∧
      env.parseStream (.ofTokens tokens none none) = .error e ∧ ∀ got, e.cause ≠ .outsideTag got := by
  intro source env
  let tokens : List Token := [⟨.data "a", 1, ⟨0, 1⟩⟩, ⟨.mark .blockBegin, 1, ⟨1, 3⟩⟩,
    ⟨.name "x", 1, ⟨3, 4⟩⟩, ⟨.mark .blockEnd, 1, ⟨4, 6⟩⟩, ⟨.data "b", 1, ⟨6, 7⟩⟩,
    ⟨.mark .endOfTemplate, 1, ⟨7, 7⟩⟩]
  have htokens : Token.ofTemplate {} source = .ok tokens := by cbv
  have hnone : (env.parseStream (.ofTokens tokens none none)).toOption.isSome = false := by cbv
  obtain ⟨hshaped, hinside⟩ := shape_of_template htokens
  cases h : env.parseStream (.ofTokens tokens none none) with
  | ok body =>
    rw [h] at hnone
    cases hnone
  | error e => exact ⟨tokens, e, htokens, hshaped, h, hinside env (List.forall_mem_nil _) none none e h⟩

end LiquidTemplate
