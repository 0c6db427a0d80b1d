import LiquidTemplate.Proofs.Conduct.Counting
import LiquidTemplate.Proofs.Forms.Bodies
import LiquidTemplate.Proofs.Exchange.Grammars
import LiquidTemplate.Proofs.RoundTrip.Tags

/-!
# The same tokens at other places

A parser looks at the kinds of tokens and puts their lines into trees. So it makes the same of tokens
that stand elsewhere: the same tree up to lines, and the same tree if the lines are the same.

* `ParserState.Parallel`: two states with tokens that look the same.
* `Parser.Echoes`: a success of the first parser is one of the second one, and the values look the
  same.
* `Echoes.bind`, `Echoes.loop`: parts one after the other, and repetitions.
* `echoes_current` and its like: single tokens.
-/

namespace LiquidTemplate

open LiquidTemplate.Parser LiquidTemplate.Grammar

variable {α β γ δ : Type} {lines : Bool} {m n : Nat} {s s' t t' : ParserState}

/-! ### States -/

/-- **Parallel states**: what is left looks the same, weighs at most `n`, and as many names have been
made up. -/
structure ParserState.Parallel (lines : Bool) (n : Nat) (s s' : ParserState) : Prop where
  seen : s.stream.tokens.map (Token.seen lines) = s'.stream.tokens.map (Token.seen lines)
  madeUp : s.madeUp = s'.madeUp
  weight_le : s.weight ≤ n

namespace ParserState.Parallel

theorem current (h : s.Parallel lines n s') :
    s.stream.current.seen lines = s'.stream.current.seen lines :=
  (List.cons.inj h.seen).1

theorem fits (h : s.Parallel lines n s') (rule : TokenRule) :
    s.stream.current.fits rule = s'.stream.current.fits rule :=
  Token.fits_congr (Prod.mk.inj h.current).1 rule

theorem ahead (h : s.Parallel lines n s') : s.ahead = s'.ahead :=
  kinds_eq h.seen

theorem weight (h : s.Parallel lines n s') : s.weight = s'.weight := by
  rw [weight_eq, weight_eq, h.ahead]

theorem remaining (h : s.Parallel lines n s') : s.remaining = s'.remaining := by
  rw [remaining_eq, remaining_eq, h.ahead]

theorem mono (h : s.Parallel lines m s') (hmn : m ≤ n) : s.Parallel lines n s' :=
  ⟨h.seen, h.madeUp, Nat.le_trans h.weight_le hmn⟩

/-- Up to the weight of what is left. -/
theorem own (h : s.Parallel lines n s') : s.Parallel lines s.weight s' :=
  ⟨h.seen, h.madeUp, Nat.le_refl _⟩

/-- What is open has nothing to do with the tokens. -/
theorem of_eq (h : s.Parallel lines n s') (hs : t.stream = s.stream) (hm : t.madeUp = s.madeUp)
    (hs' : t'.stream = s'.stream) (hm' : t'.madeUp = s'.madeUp) : t.Parallel lines n t' := by
  refine ⟨by rw [hs, hs', h.seen], by rw [hm, hm', h.madeUp], ?_⟩
  have hweight : t.weight = s.weight := by
    unfold ParserState.weight
    rw [hs]
  exact hweight ▸ h.weight_le

/-- **A step** of both. -/
theorem stepped (h : s.Parallel lines n s') : s.stepped.Parallel lines n s'.stepped := by
  refine ⟨?_, h.madeUp, Nat.le_trans (weight_le_of_suffix s.stepped_suffix) h.weight_le⟩
  show s.stream.next.tokens.map _ = s'.stream.next.tokens.map _
  have hlater := (List.cons.inj h.seen).2
  have hnil : s.stream.later = [] ↔ s'.stream.later = [] := by
    rw [← List.map_eq_nil_iff (f := Token.seen lines), hlater, List.map_eq_nil_iff]
  rw [TokenStream.tokens_next, TokenStream.tokens_next]
  by_cases hs : s.stream.later = []
  · rw [if_pos hs, if_pos (hnil.1 hs), h.seen]
  · rw [if_neg hs, if_neg (mt hnil.2 hs), hlater]

theorem look (h : s.Parallel lines n s') :
    s.stream.look.seen lines = s'.stream.look.seen lines := by
  rw [TokenStream.look_eq_current_next, TokenStream.look_eq_current_next]
  exact h.stepped.current

end ParserState.Parallel

/-! #### Tokens that look the same -/

namespace Token

variable {t t' : Token}

theorem kind_of_seen (h : t.seen lines = t'.seen lines) : t.kind = t'.kind :=
  (Prod.mk.inj h).1

theorem line_of_seen (h : t.seen lines = t'.seen lines) :
    seenLine lines t.line = seenLine lines t'.line :=
  (Prod.mk.inj h).2

theorem type_of_seen (h : t.seen lines = t'.seen lines) : t.type = t'.type := by
  rw [type, type, kind_of_seen h]

theorem name?_of_seen (h : t.seen lines = t'.seen lines) : t.name? = t'.name? := by
  rw [name?, name?, kind_of_seen h]

theorem isName_of_seen (h : t.seen lines = t'.seen lines) (word : String) :
    t.isName word = t'.isName word := by
  rw [isName, isName, name?_of_seen h]

theorem isSymbol_of_seen (h : t.seen lines = t'.seen lines) (c : Symbol) :
    t.isSymbol c = t'.isSymbol c := by
  rw [isSymbol, isSymbol, type_of_seen h]

theorem fitsAny_of_seen (h : t.seen lines = t'.seen lines) (rules : List TokenRule) :
    t.fitsAny rules = t'.fitsAny rules := by
  have hfits : t.fits = t'.fits := funext (fits_congr (kind_of_seen h))
  rw [fitsAny, fitsAny, hfits]

theorem isTupleEnd_of_seen (h : t.seen lines = t'.seen lines) (ends : List TokenRule) :
    isTupleEnd ends t = isTupleEnd ends t' := by
  simp only [isTupleEnd, isMark, isSymbol, type_of_seen h, fitsAny_of_seen h]

end Token

/-! ### Parsers -/

namespace Parser

/-- **Echo**: where the first parser succeeds, the second one does so in parallel states, and `look`
sees no difference between the values. -/
def Echoes (lines : Bool) (n : Nat) (look : α → γ) (p p' : Parser α) : Prop :=
  ∀ s s' y t, s.Parallel lines n s' → p s = .ok y t →
    ∃ y' t', p' s' = .ok y' t' ∧ look y = look y' ∧ t.Parallel lines n t'

variable {d : α → γ} {look : β → δ} {p p' q q' : Parser α} {f f' : α → Parser β}

/-! #### Parts -/

theorem Echoes.pure_value {y y' : α} (h : d y = d y') :
    Echoes lines n d (Pure.pure y) (Pure.pure y') := by
  intro s s' z t hs hz
  obtain ⟨rfl, rfl⟩ := EStateM.Result.ok.inj hz
  exact ⟨y', s', rfl, h, hs⟩

theorem Echoes.pure {y : α} : Echoes lines n d (Pure.pure y) (Pure.pure y) :=
  .pure_value rfl

/-- **One part after another.** -/
theorem Echoes.bind_value (hp : Echoes lines n d p p')
    (hf : ∀ y y', d y = d y' → Echoes lines n look (f y) (f' y')) :
    Echoes lines n look (p >>= f) (p' >>= f') := by
  intro s s' z u hs h
  obtain ⟨y, t, hy, hz⟩ := bind_eq_ok.1 h
  obtain ⟨y', t', hy', hsee, ht⟩ := hp s s' y t hs hy
  obtain ⟨z', u', hz', hlook, hu⟩ := hf y y' hsee t t' z u ht hz
  exact ⟨z', u', bind_eq_ok.2 ⟨y', t', hy', hz'⟩, hlook, hu⟩

/-- A part after another one with the same value. -/
theorem Echoes.bind (hp : Echoes lines n id p p') (hf : ∀ y, Echoes lines n look (f y) (f' y)) :
    Echoes lines n look (p >>= f) (p' >>= f') := by
  refine hp.bind_value fun y y' h => ?_
  obtain rfl : y = y' := h
  exact hf y

theorem Echoes.map {f : α → β} (hp : Echoes lines n d p p')
    (hf : ∀ y y', d y = d y' → look (f y) = look (f y')) :
    Echoes lines n look (f <$> p) (f <$> p') := by
  intro s s' z t hs h
  obtain ⟨y, hy, rfl⟩ := map_eq_ok.1 h
  obtain ⟨y', t', hy', hsee, ht⟩ := hp s s' y t hs hy
  exact ⟨f y', t', map_eq_ok.2 ⟨y', hy', rfl⟩, hf y y' hsee, ht⟩

theorem Echoes.ite {b b' : Prop} [Decidable b] [Decidable b'] (hb : b ↔ b')
    (hp : Echoes lines n d p p') (hq : Echoes lines n d q q') :
    Echoes lines n d (if b then p else q) (if b' then p' else q') := by
  by_cases h : b
  · rw [if_pos h, if_pos (hb.1 h)]
    exact hp
  · rw [if_neg h, if_neg (mt hb.2 h)]
    exact hq

theorem echoes_failAt {cause : SyntaxError.Cause} {line : Nat} :
    Echoes lines n d (failAt cause line : Parser α) p' :=
  fun _ _ _ _ _ h => absurd h (failAt_ne_ok _ _)

theorem echoes_fail {cause : SyntaxError.Cause} : Echoes lines n d (fail cause : Parser α) p' :=
  fun _ _ _ _ _ h => absurd h (fail_ne_ok _)

/-! #### Single tokens -/

theorem echoes_current : Echoes lines n (Token.seen lines) current current := by
  intro s s' y t hs h
  obtain ⟨rfl, rfl⟩ := current_eq_ok.1 h
  exact ⟨_, s', rfl, hs.current, hs⟩

theorem echoes_look : Echoes lines n (Token.seen lines) Parser.look Parser.look := by
  intro s s' y t hs h
  obtain ⟨rfl, rfl⟩ := EStateM.Result.ok.inj h
  exact ⟨_, s', rfl, hs.look, hs⟩

theorem echoes_step : Echoes lines n id step step := by
  intro s s' y t hs h
  obtain rfl := step_eq_ok.1 h
  exact ⟨(), s'.stepped, rfl, rfl, hs.stepped⟩

theorem echoes_advance : Echoes lines n (Token.seen lines) advance advance :=
  echoes_current.bind_value fun _ _ h => echoes_step.bind fun _ => .pure_value h

theorem echoes_skip_two : Echoes lines n id (skip 2) (skip 2) := by
  have hsteps : (skip 2 : Parser Unit) = (do step; step) := rfl
  rw [hsteps]
  exact echoes_step.bind fun _ => echoes_step

theorem echoes_skipIf (rule : TokenRule) : Echoes lines n id (skipIf rule) (skipIf rule) := by
  refine echoes_current.bind_value fun t t' h => .ite ?_ (echoes_step.bind fun _ => .pure) .pure
  rw [Token.fits_congr (Token.kind_of_seen h)]

theorem echoes_expect (rule : TokenRule) :
    Echoes lines n (Token.seen lines) (expect rule) (expect rule) := by
  intro s s' y t hs h
  obtain ⟨hfits, rfl, rfl⟩ := expect_eq_ok.1 h
  exact ⟨_, s'.stepped, expect_eq_ok.2 ⟨hs.fits rule ▸ hfits, rfl, rfl⟩, hs.current, hs.stepped⟩

theorem echoes_atSymbol (c : Symbol) : Echoes lines n id (atSymbol c) (atSymbol c) :=
  echoes_current.bind_value fun _ _ h => .pure_value (Token.isSymbol_of_seen h c)

theorem echoes_atMark (mark : Mark) : Echoes lines n id (atMark mark) (atMark mark) :=
  echoes_current.bind_value fun t t' h => .pure_value (by
    show t.isMark mark = t'.isMark mark
    rw [Token.isMark, Token.isMark, Token.type_of_seen h])

theorem echoes_separator (needed : Bool) :
    Echoes lines n id (parseSeparator needed) (parseSeparator needed) :=
  .ite Iff.rfl ((echoes_expect _).bind_value fun _ _ _ => .pure) .pure

/-! #### Names and brackets of the state -/

/-- A made-up name has the same number. -/
theorem echoes_freshName {line line' : Nat} (hline : seenLine lines line = seenLine lines line') :
    Echoes lines n (Expr.seen lines) (freshName line) (freshName line') := by
  intro s s' y t hs h
  obtain ⟨rfl, rfl⟩ := EStateM.Result.ok.inj h
  refine ⟨_, _, rfl, ?_, hs.seen, congrArg (· + 1) hs.madeUp, hs.weight_le⟩
  rw [hs.madeUp]
  cases lines with
  | true => exact congrArg (Expr.internalName _) hline
  | false => rfl

/-- **A bracket of the state** around both. -/
theorem Echoes.afterwards (hp : Echoes lines n d p p') (before after : ParserState → ParserState)
    (hbefore : ∀ s, (before s).stream = s.stream ∧ (before s).madeUp = s.madeUp)
    (hafter : ∀ s, (after s).stream = s.stream ∧ (after s).madeUp = s.madeUp) :
    Echoes lines n d (fun s => Parser.afterwards p after (before s))
      (fun s => Parser.afterwards p' after (before s)) := by
  intro s s' y t hs h
  obtain ⟨v, hv, rfl⟩ := of_afterwards h
  obtain ⟨y', v', hv', hsee, hvv⟩ := hp _ (before s') _ _
    (hs.of_eq (hbefore s).1 (hbefore s).2 (hbefore s').1 (hbefore s').2) hv
  refine ⟨y', after v', ?_, hsee, hvv.of_eq (hafter v).1 (hafter v).2 (hafter v').1 (hafter v').2⟩
  show Parser.afterwards p' after (before s') = _
  rw [Parser.afterwards, hv']

theorem Echoes.inTag (hp : Echoes lines n d p p') (tag : String) :
    Echoes lines n d (Parser.inTag tag p) (Parser.inTag tag p') :=
  hp.afterwards _ _ (fun _ => ⟨rfl, rfl⟩) fun _ => ⟨rfl, rfl⟩

theorem Echoes.awaiting (hp : Echoes lines n d p p') (ends : List TokenRule) :
    Echoes lines n d (Parser.awaiting ends p) (Parser.awaiting ends p') :=
  hp.afterwards _ _ (fun _ => ⟨rfl, rfl⟩) fun _ => ⟨rfl, rfl⟩

/-! #### Repetitions -/

/-- **A repetition** whose rounds are echoed. -/
theorem Echoes.loop {step step' : α → Parser (α ⊕ β)}
    (h : ∀ y y', d y = d y' → Echoes lines n (Sum.map d look) (step y) (step' y')) {y y' : α}
    (hy : d y = d y') : Echoes lines n look (repeatFrom step y) (repeatFrom step' y') := by
  intro s s' z t hs hz
  induction hn : s.remaining using Nat.strongRecOn generalizing y y' s s' with
  | _ k ih =>
    rcases repeatFrom_eq_ok.1 hz with hlast | ⟨x, u, hx, hlt, hrest⟩
    · obtain ⟨r, t', hr, hsame, ht⟩ := h y y' hy s s' _ t hs hlast
      cases r with
      | inl x => nomatch hsame
      | inr z' => exact ⟨z', t', repeatFrom_eq_ok.2 (.inl hr), Sum.inr.inj hsame, ht⟩
    · obtain ⟨r, u', hr, hsame, hu⟩ := h y y' hy s s' _ u hs hx
      cases r with
      | inr z' => nomatch hsame
      | inl x' =>
        obtain ⟨z', t', hz', hlook, ht⟩ := ih _ (hn ▸ hlt) (Sum.inl.inj hsame) u u' hu hrest rfl
        have hlt' : u'.remaining < s'.remaining := by
          rw [← hu.remaining, ← hs.remaining]
          exact hlt
        exact ⟨z', t', repeatFrom_eq_ok.2 (.inr ⟨x', u', hr, hlt', hz'⟩), hlook, ht⟩

end Parser

end LiquidTemplate
