import LiquidTemplate.Grammar.Statement

/-!
# Reading

A parser reads a stretch of tokens if it succeeds wherever that stretch is ahead, and stops right
behind it. What is ahead counts by the kinds of the tokens only, so that lines and spans are free.
The weight that is left bounds what a grammar can do, so a reading holds up to a weight.

* `ParserState.ahead`: the kinds of the tokens that are left.
* `Parser.Reads`: from every state with one list ahead to a state with another one ahead.
* `Reads.bind`, `Reads.bind_lt`: readings one after the other; after a token less weight is left.
* `Reads.round`, `Reads.stop`: the rounds of a repetition.
* `Parser.Leads`: a parser that has come to a loop.
* `reads_guarded`: a reference of the bounded grammar reads what its production reads at all smaller
  bounds.
-/

namespace LiquidTemplate

/-! ### What is ahead -/

/-- **Weight of a kind** of token. -/
def Token.Kind.weight : Token.Kind → Nat
  | .range start stop => 3 * (start.utf8ByteSize + stop.utf8ByteSize) + 12
  | _ => 1

theorem Token.weight_eq (t : Token) : t.weight = t.kind.weight := by
  unfold Token.weight Token.Kind.weight
  cases t.kind <;> rfl

theorem Token.Kind.weight_pos (k : Token.Kind) : 0 < k.weight := by
  cases k <;> simp only [Token.Kind.weight] <;> omega

/-- Whether a kind of token fits a rule. -/
def Token.Kind.fits (k : Token.Kind) : TokenRule → Bool
  | .type expected => k.type == expected
  | .name text =>
    match k with
    | .name n => n == text
    | _ => false

theorem Token.fits_eq (t : Token) (rule : TokenRule) : t.fits rule = t.kind.fits rule := by
  obtain ⟨k, line, span⟩ := t
  cases rule with
  | type expected => rfl
  | name text => cases k <;> simp [Token.fits, Token.isName, Token.name?, Token.Kind.fits]

/-- What is left behind some kinds is shorter than all of them. -/
theorem length_behind_lt (k : Token.Kind) (a b : List Token.Kind) :
    b.length < (k :: (a ++ b)).length := by
  rw [List.length_cons, List.length_append]
  omega

theorem length_behind_append_lt (k : Token.Kind) (a b c : List Token.Kind) :
    b.length < (c ++ k :: (a ++ b)).length := by
  have hlt := length_behind_lt k a b
  rw [List.length_append]
  omega

/-- The weight of a list of kinds. -/
def weightOf : List Token.Kind → Nat
  | [] => 0
  | k :: ks => k.weight + weightOf ks

namespace ParserState

/-- **What is ahead**: the kinds of the tokens that are left. -/
def ahead (s : ParserState) : List Token.Kind :=
  s.stream.tokens.map Token.kind

theorem weight_eq (s : ParserState) : s.weight = weightOf s.ahead := by
  unfold weight ahead
  induction s.stream.tokens with
  | nil => rfl
  | cons t ts ih =>
      rw [List.foldr_cons, ih, List.map_cons, weightOf, Token.weight_eq]

theorem weight_le_of_suffix {s t : ParserState} (h : t.stream.tokens <:+ s.stream.tokens) :
    t.weight ≤ s.weight := by
  obtain ⟨ts, hts⟩ := h
  rw [weight_eq, weight_eq, ahead, ahead, ← hts, List.map_append]
  induction ts.map Token.kind with
  | nil => exact Nat.le_refl _
  | cons k ks ih =>
      rw [List.cons_append, weightOf]
      omega

theorem remaining_eq (s : ParserState) : s.remaining = s.ahead.length := by
  rw [remaining, ahead, List.length_map]

/-- The state after one step of the stream. -/
def stepped (s : ParserState) : ParserState :=
  { s with stream := s.stream.next }

/-- The current token has the first kind that is ahead. -/
theorem current_eq {s : ParserState} {k : Token.Kind} {ks : List Token.Kind}
    (h : s.ahead = k :: ks) :
    s.stream.current = ⟨k, s.stream.current.line, s.stream.current.span⟩ := by
  have hk : s.stream.current.kind = k := (List.cons.inj h).1
  rw [← hk]

/-- **A step drops one kind**, unless it is the end of the template. -/
theorem ahead_stepped {s : ParserState} {k : Token.Kind} {ks : List Token.Kind}
    (h : s.ahead = k :: ks) (hk : k.type ≠ .mark .endOfTemplate) : s.stepped.ahead = ks := by
  obtain ⟨rfl, rfl⟩ := List.cons.inj h
  have hend : s.stream.atEnd = false := by
    simpa [TokenStream.atEnd, Token.isEnd, Token.isMark, Token.type] using hk
  have hl := s.stream.later_ne_nil hend
  show s.stream.next.tokens.map Token.kind = s.stream.later.map Token.kind
  rw [TokenStream.tokens_next, if_neg hl]

theorem stepped_suffix (s : ParserState) : s.stepped.stream.tokens <:+ s.stream.tokens := by
  show s.stream.next.tokens <:+ s.stream.tokens
  rw [TokenStream.tokens_next]
  split
  · exact List.suffix_refl _
  · exact List.suffix_cons _ _

end ParserState

namespace Parser

variable {α β : Type} {j m n : Nat} {a b c : List Token.Kind} {k l : Token.Kind}

/-- **Reading.** From every state that has `a` ahead and weighs at most `n`, the parser succeeds
with a value that satisfies `post`, and then has `b` ahead as the rest of the same tokens. -/
def Reads (n : Nat) (p : Parser α) (a b : List Token.Kind) (post : α → Prop) : Prop :=
  ∀ s, s.ahead = a → s.weight ≤ n →
    ∃ x t, p s = .ok x t ∧ t.ahead = b ∧ t.stream.tokens <:+ s.stream.tokens ∧ post x

/-- Reading at every smaller bound, which is what is left behind a token. -/
def ReadsBelow (n : Nat) (p : Parser α) (a b : List Token.Kind) (post : α → Prop) : Prop :=
  ∀ j, j < n → Reads j p a b post

namespace Reads

variable {p : Parser α} {f : α → Parser β} {post : α → Prop} {post' : β → Prop}

/-- A smaller bound asks for less. -/
theorem mono (h : Reads n p a b post) (hmn : m ≤ n) : Reads m p a b post :=
  fun s hs hw => h s hs (Nat.le_trans hw hmn)

theorem below (h : Reads n p a b post) : ReadsBelow n p a b post :=
  fun _ hj => h.mono (Nat.le_of_lt hj)

/-- A weaker statement about the value. -/
theorem imp {weaker : α → Prop} (h : Reads n p a b post) (hp : ∀ x, post x → weaker x) :
    Reads n p a b weaker := by
  intro s hs hw
  obtain ⟨x, t, hx, ht, hsuf, hpost⟩ := h s hs hw
  exact ⟨x, t, hx, ht, hsuf, hp x hpost⟩

theorem pure {x : α} (h : post x) : Reads n (Pure.pure x) a a post :=
  fun s hs _ => ⟨x, s, rfl, hs, List.suffix_refl _, h⟩

/-- **One reading after another.** -/
theorem bind (hp : Reads n p a b post) (hf : ∀ x, post x → Reads n (f x) b c post') :
    Reads n (p >>= f) a c post' := by
  intro s hs hw
  obtain ⟨x, t, hx, ht, hsuf, hpost⟩ := hp s hs hw
  have htw := ParserState.weight_le_of_suffix hsuf
  obtain ⟨y, u, hy, hu, hsuf', hpost'⟩ := hf x hpost t ht (Nat.le_trans htw hw)
  refine ⟨y, u, ?_, hu, hsuf'.trans hsuf, hpost'⟩
  show EStateM.bind p f s = _
  rw [EStateM.bind, hx]
  exact hy

/-- **After a token** less weight is left. -/
theorem bind_lt (hp : Reads n p (k :: b) b post)
    (hf : ∀ x, post x → ReadsBelow n (f x) b c post') : Reads n (p >>= f) (k :: b) c post' := by
  intro s hs hw
  obtain ⟨x, t, hx, ht, hsuf, hpost⟩ := hp s hs hw
  have hlt : t.weight < s.weight := by
    rw [ParserState.weight_eq, ParserState.weight_eq, ht, hs, weightOf]
    have := k.weight_pos
    omega
  obtain ⟨y, u, hy, hu, hsuf', hpost'⟩ :=
    hf x hpost t.weight (Nat.lt_of_lt_of_le hlt hw) t ht (Nat.le_refl _)
  refine ⟨y, u, ?_, hu, hsuf'.trans hsuf, hpost'⟩
  show EStateM.bind p f s = _
  rw [EStateM.bind, hx]
  exact hy

theorem map {f : α → β} (hp : Reads n p a b post) (hf : ∀ x, post x → post' (f x)) :
    Reads n (f <$> p) a b post' := by
  intro s hs hw
  obtain ⟨x, t, hx, ht, hsuf, hpost⟩ := hp s hs hw
  refine ⟨f x, t, ?_, ht, hsuf, hf x hpost⟩
  show EStateM.map f p s = _
  rw [EStateM.map, hx]

end Reads

namespace ReadsBelow

variable {p : Parser α} {f : α → Parser β} {post : α → Prop} {post' : β → Prop}

theorem bind (hp : ReadsBelow n p a b post) (hf : ∀ x, post x → ReadsBelow n (f x) b c post') :
    ReadsBelow n (p >>= f) a c post' :=
  fun j hj => (hp j hj).bind fun x hx => hf x hx j hj

end ReadsBelow

/-! ### Single tokens -/

theorem reads_current :
    Reads n current (k :: a) (k :: a) (fun t => ∃ line span, t = ⟨k, line, span⟩) :=
  fun s hs _ => ⟨_, s, rfl, hs, List.suffix_refl _, _, _, s.current_eq hs⟩

theorem reads_step (hk : k.type ≠ .mark .endOfTemplate) :
    Reads n step (k :: a) a (fun _ => True) :=
  fun s hs _ => ⟨(), s.stepped, rfl, s.ahead_stepped hs hk, s.stepped_suffix, trivial⟩

theorem reads_advance (hk : k.type ≠ .mark .endOfTemplate) :
    Reads n advance (k :: a) a (fun t => ∃ line span, t = ⟨k, line, span⟩) :=
  reads_current.bind fun _ ht => (reads_step hk).bind fun _ _ => Reads.pure ht

theorem reads_atSymbol (s : Symbol) :
    Reads n (atSymbol s) (k :: a) (k :: a) (fun b => b = (k.type == .symbol s)) := by
  refine reads_current.bind ?_
  intro _ hy
  obtain ⟨line, span, rfl⟩ := hy
  exact Reads.pure rfl

theorem reads_atMark (m : Mark) :
    Reads n (atMark m) (k :: a) (k :: a) (fun b => b = (k.type == .mark m)) := by
  refine reads_current.bind ?_
  intro _ hy
  obtain ⟨line, span, rfl⟩ := hy
  exact Reads.pure rfl

/-- Looking ahead changes nothing. -/
theorem reads_look_any : Reads n look a a (fun _ => True) :=
  fun s hs _ => ⟨s.stream.look, s, rfl, hs, List.suffix_refl _, trivial⟩

theorem reads_look (hk : k.type ≠ .mark .endOfTemplate) :
    Reads n look (k :: l :: a) (k :: l :: a) (fun t => ∃ line span, t = ⟨l, line, span⟩) := by
  intro s hs _
  refine ⟨s.stream.look, s, rfl, hs, List.suffix_refl _, ?_⟩
  rw [TokenStream.look_eq_current_next]
  exact ⟨_, _, s.stepped.current_eq (s.ahead_stepped hs hk)⟩

theorem reads_skip_two (hk : k.type ≠ .mark .endOfTemplate) (hl : l.type ≠ .mark .endOfTemplate) :
    Reads n (skip 2) (k :: l :: a) a (fun _ => True) :=
  fun s hs _ => ⟨(), s.stepped.stepped, rfl, s.stepped.ahead_stepped (s.ahead_stepped hs hk) hl,
    s.stepped.stepped_suffix.trans s.stepped_suffix, trivial⟩

/-- A token that fits the rule is consumed. -/
theorem reads_skipIf {rule : TokenRule} (hk : k.type ≠ .mark .endOfTemplate)
    (hfit : k.fits rule = true) : Reads n (skipIf rule) (k :: a) a (fun b => b = true) := by
  refine reads_current.bind ?_
  intro _ hy
  obtain ⟨line, span, rfl⟩ := hy
  rw [Token.fits_eq, if_pos hfit]
  exact (reads_step hk).bind fun _ _ => Reads.pure rfl

/-- A token that does not fit the rule stays. -/
theorem reads_skipIf_not {rule : TokenRule} (hfit : k.fits rule = false) :
    Reads n (skipIf rule) (k :: a) (k :: a) (fun b => b = false) := by
  refine reads_current.bind ?_
  intro _ hy
  obtain ⟨line, span, rfl⟩ := hy
  rw [Token.fits_eq, if_neg (by simp [hfit])]
  exact Reads.pure rfl

theorem reads_expect {rule : TokenRule} (hk : k.type ≠ .mark .endOfTemplate)
    (hfit : k.fits rule = true) :
    Reads n (expect rule) (k :: a) a (fun t => ∃ line span, t = ⟨k, line, span⟩) := by
  intro s hs _
  refine ⟨s.stream.current, s.stepped, ?_, s.ahead_stepped hs hk, s.stepped_suffix, _, _,
    s.current_eq hs⟩
  have hcur : s.stream.current.fits rule = true := by
    rw [s.current_eq hs, Token.fits_eq, hfit]
  rw [expect, TokenStream.expect, TokenStream.nextIf?, if_pos hcur]
  rfl

/-! ### A token and what is done behind it -/

section Behind

variable {post : β → Prop}

/-- What is done with the current token, which stays. -/
theorem Reads.see {f : Token → Parser β}
    (h : ∀ line span, Reads n (f ⟨k, line, span⟩) (k :: a) b post) :
    Reads n (current >>= f) (k :: a) b post := by
  refine reads_current.bind fun t ht => ?_
  obtain ⟨line, span, rfl⟩ := ht
  exact h line span

/-- What is done behind a token that is dropped. -/
theorem Reads.drop {f : Unit → Parser β} (hk : k.type ≠ .mark .endOfTemplate)
    (h : Reads n (f ()) a b post) : Reads n (step >>= f) (k :: a) b post :=
  (reads_step hk).bind fun _ _ => h

/-- Behind a token that is dropped less weight is left. -/
theorem Reads.drop_lt {f : Unit → Parser β} (hk : k.type ≠ .mark .endOfTemplate)
    (h : ReadsBelow n (f ()) a b post) : Reads n (step >>= f) (k :: a) b post :=
  (reads_step hk).bind_lt fun _ _ => h

/-- What is done behind a token that is taken. -/
theorem Reads.take {f : Token → Parser β} (hk : k.type ≠ .mark .endOfTemplate)
    (h : ∀ line span, Reads n (f ⟨k, line, span⟩) a b post) :
    Reads n (advance >>= f) (k :: a) b post := by
  refine (reads_advance hk).bind fun t ht => ?_
  obtain ⟨line, span, rfl⟩ := ht
  exact h line span

/-- What is done behind a token that is demanded. -/
theorem Reads.demand {f : Token → Parser β} {rule : TokenRule}
    (hk : k.type ≠ .mark .endOfTemplate) (hfit : k.fits rule = true)
    (h : ∀ line span, Reads n (f ⟨k, line, span⟩) a b post) :
    Reads n (expect rule >>= f) (k :: a) b post := by
  refine (reads_expect hk hfit).bind fun t ht => ?_
  obtain ⟨line, span, rfl⟩ := ht
  exact h line span

theorem Reads.demand_lt {f : Token → Parser β} {rule : TokenRule}
    (hk : k.type ≠ .mark .endOfTemplate) (hfit : k.fits rule = true)
    (h : ∀ line span, ReadsBelow n (f ⟨k, line, span⟩) a b post) :
    Reads n (expect rule >>= f) (k :: a) b post := by
  refine (reads_expect hk hfit).bind_lt fun t ht => ?_
  obtain ⟨line, span, rfl⟩ := ht
  exact h line span

/-- What is done behind a token that fits. -/
theorem Reads.skips {f : Bool → Parser β} {rule : TokenRule}
    (hk : k.type ≠ .mark .endOfTemplate) (hfit : k.fits rule = true)
    (h : Reads n (f true) a b post) : Reads n (skipIf rule >>= f) (k :: a) b post := by
  refine (reads_skipIf hk hfit).bind fun found hfound => ?_
  rw [hfound]
  exact h

theorem Reads.skips_lt {f : Bool → Parser β} {rule : TokenRule}
    (hk : k.type ≠ .mark .endOfTemplate) (hfit : k.fits rule = true)
    (h : ReadsBelow n (f true) a b post) : Reads n (skipIf rule >>= f) (k :: a) b post := by
  refine (reads_skipIf hk hfit).bind_lt fun found hfound => ?_
  rw [hfound]
  exact h

/-- What is done before a token that does not fit. -/
theorem Reads.stays {f : Bool → Parser β} {rule : TokenRule} (hfit : k.fits rule = false)
    (h : Reads n (f false) (k :: a) b post) : Reads n (skipIf rule >>= f) (k :: a) b post := by
  refine (reads_skipIf_not hfit).bind fun found hfound => ?_
  rw [hfound]
  exact h

/-- What is done with the answer whether the current token is a symbol. -/
theorem Reads.symbol {f : Bool → Parser β} (s : Symbol)
    (h : Reads n (f (k.type == .symbol s)) (k :: a) b post) :
    Reads n (atSymbol s >>= f) (k :: a) b post := by
  refine (reads_atSymbol s).bind fun found hfound => ?_
  rw [hfound]
  exact h

/-- What is done with the answer whether the current token is a mark. -/
theorem Reads.mark {f : Bool → Parser β} (m : Mark)
    (h : Reads n (f (k.type == .mark m)) (k :: a) b post) :
    Reads n (atMark m >>= f) (k :: a) b post := by
  refine (reads_atMark m).bind fun found hfound => ?_
  rw [hfound]
  exact h

end Behind

/-! ### Repetitions -/

section Repetition

variable {step : α → Parser (α ⊕ β)} {x : α} {post : α → Prop} {post' : β → Prop}

/-- **The last round of a repetition.** -/
theorem Reads.stop (h : Reads n (step x) a b (fun r => ∃ y, r = .inr y ∧ post' y)) :
    Reads n (repeatFrom step x) a b post' := by
  intro s hs hw
  obtain ⟨_, t, hx, ht, hsuf, y, rfl, hy⟩ := h s hs hw
  refine ⟨y, t, ?_, ht, hsuf, hy⟩
  rw [repeatFrom, Loop.iterate, hx]

/-- **Coming to a loop.** From every state that has `a` ahead and weighs at most `n`, the parser
does what `loop` does for a value that satisfies `post`, in a state that has `b` ahead. -/
def Leads (n : Nat) (p : Parser β) (loop : α → Parser β) (a b : List Token.Kind) (post : α → Prop) :
    Prop :=
  ∀ s, s.ahead = a → s.weight ≤ n →
    ∃ x t, p s = loop x t ∧ t.ahead = b ∧ t.stream.tokens <:+ s.stream.tokens ∧ post x

/-- **A round of a repetition** that consumes tokens. -/
theorem Leads.round (h : Reads n (step x) a b (fun r => ∃ y, r = .inl y ∧ post y))
    (hlt : b.length < a.length) : Leads n (repeatFrom step x) (repeatFrom step) a b post := by
  intro s hs hw
  obtain ⟨_, t, hx, ht, hsuf, y, rfl, hy⟩ := h s hs hw
  refine ⟨y, t, ?_, ht, hsuf, hy⟩
  have hsize : t.remaining < s.remaining := by
    rw [ParserState.remaining_eq, ParserState.remaining_eq, ht, hs]
    exact hlt
  rw [repeatFrom, Loop.iterate, hx]
  exact if_pos hsize

/-- What is read before a loop leads to it. -/
theorem Reads.leads {p : Parser α} {loop : α → Parser β} (h : Reads n p a b post) :
    Leads n (p >>= loop) loop a b post := by
  intro s hs hw
  obtain ⟨x, t, hx, ht, hsuf, hpost⟩ := h s hs hw
  refine ⟨x, t, ?_, ht, hsuf, hpost⟩
  show EStateM.bind p loop s = _
  rw [EStateM.bind, hx]

theorem Leads.imp {p : Parser β} {loop : α → Parser β} {weaker : α → Prop}
    (h : Leads n p loop a b post) (hp : ∀ x, post x → weaker x) : Leads n p loop a b weaker := by
  intro s hs hw
  obtain ⟨x, t, hx, ht, hsuf, hpost⟩ := h s hs hw
  exact ⟨x, t, hx, ht, hsuf, hp x hpost⟩

theorem Leads.trans {p : Parser β} {loop : α → Parser β} {post₂ : α → Prop}
    (h : Leads n p loop a b post) (hloop : ∀ x, post x → Leads n (loop x) loop b c post₂) :
    Leads n p loop a c post₂ := by
  intro s hs hw
  obtain ⟨x, t, hx, ht, hsuf, hpost⟩ := h s hs hw
  have htw := ParserState.weight_le_of_suffix hsuf
  obtain ⟨y, u, hy, hu, hsuf', hpost'⟩ := hloop x hpost t ht (Nat.le_trans htw hw)
  exact ⟨y, u, hx.trans hy, hu, hsuf'.trans hsuf, hpost'⟩

theorem Leads.reads {p : Parser β} {loop : α → Parser β} (h : Leads n p loop a b post)
    (hloop : ∀ x, post x → Reads n (loop x) b c post') : Reads n p a c post' := by
  intro s hs hw
  obtain ⟨x, t, hx, ht, hsuf, hpost⟩ := h s hs hw
  have htw := ParserState.weight_le_of_suffix hsuf
  obtain ⟨y, u, hy, hu, hsuf', hpost'⟩ := hloop x hpost t ht (Nat.le_trans htw hw)
  exact ⟨y, u, hx.trans hy, hu, hsuf'.trans hsuf, hpost'⟩

/-- A round, and what the repetition reads from then on. -/
theorem Reads.round (h : Reads n (step x) a b (fun r => ∃ y, r = .inl y ∧ post y))
    (hlt : b.length < a.length) (hnext : ∀ y, post y → Reads n (repeatFrom step y) b c post') :
    Reads n (repeatFrom step x) a c post' :=
  (Leads.round h hlt).reads hnext

end Repetition

/-! ### Brackets of the state and the grammar of a bound -/

theorem Reads.inTag {p : Parser α} {post : α → Prop} (h : Reads n p a b post) (tag : String) :
    Reads n (inTag tag p) a b post := by
  intro s hs hw
  obtain ⟨x, t, hx, ht, hsuf, hpost⟩ := h { s with openTags := tag :: s.openTags } hs hw
  refine ⟨x, { t with openTags := t.openTags.tail }, ?_, ht, hsuf, hpost⟩
  rw [Parser.inTag, afterwards, hx]

theorem Reads.awaiting {p : Parser α} {post : α → Prop} (h : Reads n p a b post)
    (ends : List TokenRule) : Reads n (awaiting ends p) a b post := by
  intro s hs hw
  obtain ⟨x, t, hx, ht, hsuf, hpost⟩ := h { s with expectedEnds := ends :: s.expectedEnds } hs hw
  refine ⟨x, { t with expectedEnds := t.expectedEnds.tail }, ?_, ht, hsuf, hpost⟩
  rw [Parser.awaiting, afterwards, hx]

/-- A guarded parser where less than its bound is left. -/
theorem guarded_of_lt {p : Nat → Parser α} {s : ParserState} (hlt : s.weight < n) :
    Grammar.guarded n (fun s _ => p s.weight s) s = p s.weight s :=
  dif_pos hlt

/-- What a guarded parser reads, if it reads that at every smaller bound. -/
theorem reads_guarded {p : Nat → Parser α} {post : α → Prop}
    (h : ∀ j, j < n → Reads j (p j) a b post) :
    ReadsBelow n (Grammar.guarded n fun s _ => p s.weight s) a b post := by
  intro j hj s hs hw
  have hlt : s.weight < n := Nat.lt_of_le_of_lt hw hj
  rw [guarded_of_lt hlt]
  exact h s.weight hlt s hs (Nat.le_refl _)

end Parser

end LiquidTemplate
