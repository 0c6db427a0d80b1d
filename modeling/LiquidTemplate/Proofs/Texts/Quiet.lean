import LiquidTemplate.Proofs.Success
import LiquidTemplate.Proofs.Texts.Shown

/-!
# Quiet parsers

What a parser of an expression consumes if it succeeds are tokens from the inside of a tag: no text,
and no beginning of another tag.

* `Token.Kind.Plain`: such tokens.
* `ParserState.Passes`: from one state to another one behind plain tokens.
* `Parser.Quiet`: a parser that passes plain tokens only, and what holds of its value.
* `Quiet.bind`, `Quiet.loop`: parts one after the other, and repetitions.
-/

namespace LiquidTemplate

/-! ### Plain tokens -/

/-- **Plain tokens**: all but texts and beginnings of tags. -/
def Token.Kind.Plain : Token.Kind → Prop
  | .data _ | .mark .blockBegin => False
  | _ => True

/-- Rules that only plain tokens fit. -/
def TokenRule.Plain : TokenRule → Prop
  | .type .data | .type (.mark .blockBegin) => False
  | _ => True

theorem Token.plain_of_fits {t : Token} (rule : TokenRule) (hrule : rule.Plain)
    (h : t.fits rule = true) : t.kind.Plain := by
  obtain ⟨k, line, span⟩ := t
  cases k with
  | data text =>
      cases rule with
      | name n => cases h
      | type u =>
          obtain rfl : TokenType.data = u := by simpa [fits, type, Kind.type] using h
          exact hrule
  | mark m =>
      cases m with
      | blockBegin =>
          cases rule with
          | name n => cases h
          | type u =>
              obtain rfl : TokenType.mark .blockBegin = u := by
                simpa [fits, type, Kind.type] using h
              exact hrule
      | _ => trivial
  | _ => trivial

theorem Token.plain_of_isSymbol {t : Token} {s : Symbol} (h : t.isSymbol s = true) : t.kind.Plain :=
  plain_of_fits (.type (.symbol s)) trivial h

theorem Token.plain_of_isName {t : Token} {text : String} (h : t.isName text = true) :
    t.kind.Plain :=
  plain_of_fits (.name text) trivial h

namespace ParserState

/-- **Passing plain tokens** on the way from one state to another one. -/
def Passes (s t : ParserState) : Prop :=
  ∃ used, s.stream.tokens = used ++ t.stream.tokens ∧ ∀ u ∈ used, u.kind.Plain

theorem Passes.refl (s : ParserState) : s.Passes s :=
  ⟨[], rfl, nofun⟩

theorem Passes.trans {s t u : ParserState} (h : s.Passes t) (h' : t.Passes u) : s.Passes u := by
  obtain ⟨used, hs, hplain⟩ := h
  obtain ⟨used', ht, hplain'⟩ := h'
  refine ⟨used ++ used', by rw [hs, ht, List.append_assoc], fun x hx => ?_⟩
  rcases List.mem_append.1 hx with hx | hx
  · exact hplain x hx
  · exact hplain' x hx

/-- A step from a plain token. -/
theorem passes_stepped {s : ParserState} (h : s.stream.current.kind.Plain) : s.Passes s.stepped := by
  show ∃ used, s.stream.tokens = used ++ s.stream.next.tokens ∧ _
  rw [TokenStream.tokens_next]
  by_cases hl : s.stream.later = []
  · rw [if_pos hl]
    exact ⟨[], rfl, nofun⟩
  · rw [if_neg hl]
    refine ⟨[s.stream.current], rfl, fun u hu => ?_⟩
    rw [List.mem_singleton.1 hu]
    exact h

/-- A step from a token that is not the end of the template drops that token. -/
theorem tokens_stepped {s : ParserState} {k : Token.Kind} (hk : s.stream.current.kind = k)
    (h : k.type ≠ .mark .endOfTemplate) : s.stepped.stream.tokens = s.stream.later := by
  have hend : s.stream.atEnd = false := by
    rw [TokenStream.atEnd, Token.isEnd, Token.isMark, Token.type, hk]
    exact beq_eq_false_iff_ne.2 h
  show s.stream.next.tokens = _
  rw [TokenStream.tokens_next, if_neg (s.stream.later_ne_nil hend)]

end ParserState

namespace Parser

variable {α β : Type} {p : Parser α} {f : α → Parser β} {s : ParserState} {post : α → Prop}
  {post' : β → Prop}

/-- **Quiet.** If the parser succeeds in this state, it passes plain tokens only, and its value
satisfies `post`. -/
def Quiet (p : Parser α) (s : ParserState) (post : α → Prop) : Prop :=
  ∀ x t, p s = .ok x t → s.Passes t ∧ post x

/-! ### Parts -/

theorem Quiet.pure {x : α} (h : post x) : Quiet (Pure.pure x) s post := by
  intro y t hy
  obtain ⟨rfl, rfl⟩ : x = y ∧ s = t := EStateM.Result.ok.inj hy
  exact ⟨.refl s, h⟩

theorem Quiet.failAt {cause : SyntaxError.Cause} {line : Nat} :
    Quiet (Parser.failAt cause line) s post :=
  fun _ _ h => absurd h (failAt_ne_ok cause line)

theorem Quiet.throw {error : SyntaxError} : Quiet (throw error : Parser α) s post :=
  nofun

theorem Quiet.fail {cause : SyntaxError.Cause} : Quiet (Parser.fail cause) s post :=
  fun _ _ h => absurd h (fail_ne_ok cause)

/-- **One part after another.** -/
theorem Quiet.bind_ok (hp : Quiet p s post)
    (hf : ∀ x t, p s = .ok x t → post x → Quiet (f x) t post') : Quiet (p >>= f) s post' := by
  intro y u h
  obtain ⟨x, t, hx, hy⟩ := bind_eq_ok.1 h
  obtain ⟨hst, hpost⟩ := hp x t hx
  obtain ⟨htu, hpost'⟩ := hf x t hx hpost y u hy
  exact ⟨hst.trans htu, hpost'⟩

theorem Quiet.bind (hp : Quiet p s post) (hf : ∀ x, post x → ∀ t, Quiet (f x) t post') :
    Quiet (p >>= f) s post' :=
  hp.bind_ok fun x t _ hx => hf x hx t

/-! ### Single tokens -/

/-- What is done with the current token. -/
theorem Quiet.see {f : Token → Parser β} (h : Quiet (f s.stream.current) s post') :
    Quiet (current >>= f) s post' :=
  h

/-- What is done with the state. -/
theorem Quiet.state {f : ParserState → Parser β} (h : Quiet (f s) s post') :
    Quiet (get >>= f) s post' :=
  h

/-- What is done with the token after the current one. -/
theorem Quiet.foresee {f : Token → Parser β} (h : Quiet (f s.stream.look) s post') :
    Quiet (look >>= f) s post' :=
  h

/-- What is done with the answer whether the current token is a symbol. -/
theorem Quiet.symbol {f : Bool → Parser β} {c : Symbol}
    (h : Quiet (f (s.stream.current.isSymbol c)) s post') : Quiet (atSymbol c >>= f) s post' :=
  h

/-- What is done with the answer whether the current token is a mark. -/
theorem Quiet.mark {f : Bool → Parser β} {m : Mark}
    (h : Quiet (f (s.stream.current.isMark m)) s post') : Quiet (atMark m >>= f) s post' :=
  h

/-- What is done behind a plain token. -/
theorem Quiet.drop {f : Unit → Parser β} (hk : s.stream.current.kind.Plain)
    (h : Quiet (f ()) s.stepped post') : Quiet (step >>= f) s post' := by
  intro y t hy
  obtain ⟨ht, hpost⟩ := h y t hy
  exact ⟨(s.passes_stepped hk).trans ht, hpost⟩

/-- What is done behind two plain tokens. -/
theorem Quiet.drop_two {f : Unit → Parser β} (hk : s.stream.current.kind.Plain)
    (hl : s.stream.look.kind.Plain) (h : Quiet (f ()) s.stepped.stepped post') :
    Quiet (skip 2 >>= f) s post' := by
  have hl : s.stepped.stream.current.kind.Plain := by
    rw [TokenStream.look_eq_current_next] at hl
    exact hl
  intro y t hy
  obtain ⟨ht, hpost⟩ := h y t hy
  exact ⟨((s.passes_stepped hk).trans (s.stepped.passes_stepped hl)).trans ht, hpost⟩

/-- What is done behind a plain token that is taken. -/
theorem Quiet.take {f : Token → Parser β} (hk : s.stream.current.kind.Plain)
    (h : Quiet (f s.stream.current) s.stepped post') : Quiet (advance >>= f) s post' := by
  intro y t hy
  obtain ⟨ht, hpost⟩ := h y t hy
  exact ⟨(s.passes_stepped hk).trans ht, hpost⟩

/-- What is done behind a token that fits, or before one that does not. -/
theorem Quiet.skips {f : Bool → Parser β} {rule : TokenRule} (hrule : rule.Plain)
    (hyes : Quiet (f true) s.stepped post') (hno : Quiet (f false) s post') :
    Quiet (skipIf rule >>= f) s post' := by
  intro y u h
  obtain ⟨found, t, hfound, hy⟩ := bind_eq_ok.1 h
  cases found with
  | true =>
      obtain ⟨hfits, rfl⟩ := skipIf_eq_true.1 hfound
      obtain ⟨hu, hpost⟩ := hyes y u hy
      exact ⟨(s.passes_stepped (Token.plain_of_fits rule hrule hfits)).trans hu, hpost⟩
  | false =>
      obtain ⟨rfl, _⟩ := skipIf_eq_false.1 hfound
      exact hno y u hy

/-- What is done behind a token that is demanded. -/
theorem Quiet.demand {f : Token → Parser β} {rule : TokenRule} (hrule : rule.Plain)
    (h : Quiet (f s.stream.current) s.stepped post') : Quiet (expect rule >>= f) s post' := by
  intro y u hy
  obtain ⟨tok, t, ht, hy⟩ := bind_eq_ok.1 hy
  obtain ⟨hfits, rfl, rfl⟩ := expect_eq_ok.1 ht
  obtain ⟨hu, hpost⟩ := h y u hy
  exact ⟨(s.passes_stepped (Token.plain_of_fits rule hrule hfits)).trans hu, hpost⟩

/-! ### Repetitions -/

/-- **A repetition** whose rounds are quiet and keep `inv`. -/
theorem Quiet.loop {step : α → Parser (α ⊕ β)} (inv : α → Prop) {x : α} (hx : inv x)
    (hround : ∀ x, inv x → ∀ s, Quiet (step x) s (Sum.elim inv post')) :
    Quiet (repeatFrom step x) s post' := by
  intro y t h
  have hinv : inv x ∧ s.Passes s := ⟨hx, .refl s⟩
  obtain ⟨x', u, ⟨hx', hu⟩, hlast⟩ :=
    repeatFrom_induction (fun x u => inv x ∧ s.Passes u) (fun x u x' v h hstep _ =>
      ⟨(hround x h.1 u _ v hstep).2, h.2.trans (hround x h.1 u _ v hstep).1⟩) hinv h
  obtain ⟨ht, hy⟩ := hround x' hx' u _ t hlast
  exact ⟨hu.trans ht, hy⟩

end Parser

end LiquidTemplate
