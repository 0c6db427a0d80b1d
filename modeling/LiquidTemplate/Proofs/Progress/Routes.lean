import LiquidTemplate.Proofs.Errors.Lexing
import LiquidTemplate.Proofs.Success

/-!
# Routes

A run of a parser keeps to a route: it only ever drops tokens in front, leaves the tags that are open
as they were, and fails at a place of the template. Two grammars whose productions agree where little
is left to read agree on all runs of a route, and so a bound on what is left is never noticed.

* `ParserState.Reaches`: what a run leaves unchanged, whether it succeeds or fails.
* `Route`: the tokens of a run, the lines of its errors, and which tags can be open.
* `Route.Fault`: the errors of a route.
* `Parser.Tracks`: two parsers that agree on a route, with what they must consume.
* `Tracks.bind`, `Tracks.behind`, `Tracks.loop`: parts one after the other, parts behind a token, and
  repetitions, each round of which moves on or is the last.
-/

namespace LiquidTemplate

/-- **Causes of every kind of text**: all but those about the depth of the nesting, which is no
property of a text, and those about unknown tags, which depend on what is open. -/
def SyntaxError.Cause.Ordinary : Cause → Prop
  | .nestedTooDeep | .unknownTag .. => False
  | _ => True

/-- A token of another kind is not the end. -/
theorem Token.isEnd_of_kind {t : Token} {k : Token.Kind} (h : t.kind = k)
    (hk : k ≠ .mark .endOfTemplate) : t.isEnd = false :=
  Bool.eq_false_iff.2 fun hend => hk (h.symm.trans (Token.isEnd_iff.1 hend))

theorem Token.isEnd_of_isSymbol {t : Token} {x : Symbol} (h : t.isSymbol x = true) :
    t.isEnd = false :=
  t.isEnd_of_kind (Token.isSymbol_iff.1 h) nofun

theorem Token.isEnd_of_isName {t : Token} {text : String} (h : t.isName text = true) :
    t.isEnd = false :=
  t.isEnd_of_kind (Token.isName_iff.1 h) nofun

/-- **Tokens of a list**, and those of the bounds of range literals among them, however deep. -/
inductive Token.Beneath (ts : List Token) : Token → Prop where
  | token {t : Token} (ht : t ∈ ts) : Beneath ts t
  | bound {t u : Token} {text : String} {us : List Token} (ht : Beneath ts t)
      (htext : t.HasBound text) (hread : Token.ofExpression text t.line t.span.lo = .ok us)
      (hu : u ∈ us) : Beneath ts u

namespace ParserState

/-- **What a run leaves unchanged**: the tokens are those of before without some in front, and the
same tags are open. -/
structure Reaches (s t : ParserState) : Prop where
  tokens : t.stream.tokens <:+ s.stream.tokens
  name : t.stream.name = s.stream.name
  filename : t.stream.filename = s.stream.filename
  openTags : t.openTags = s.openTags
  expectedEnds : t.expectedEnds = s.expectedEnds

variable {s t u : ParserState}

@[refl]
theorem Reaches.refl (s : ParserState) : s.Reaches s :=
  ⟨List.suffix_refl _, rfl, rfl, rfl, rfl⟩

theorem Reaches.trans (h : s.Reaches t) (h' : t.Reaches u) : s.Reaches u :=
  ⟨h'.tokens.trans h.tokens, h'.name.trans h.name, h'.filename.trans h.filename,
    h'.openTags.trans h.openTags, h'.expectedEnds.trans h.expectedEnds⟩

theorem Reaches.remaining_le (h : s.Reaches t) : t.remaining ≤ s.remaining :=
  h.tokens.length_le

theorem Reaches.weight_le (h : s.Reaches t) : t.weight ≤ s.weight :=
  weight_le_of_suffix h.tokens

theorem weight_current_le (s : ParserState) : s.stream.current.weight ≤ s.weight :=
  Nat.le_add_right ..

/-- A token that is dropped has a weight. -/
theorem Reaches.weight_lt (h : s.Reaches t) (hlt : t.remaining < s.remaining) :
    t.weight < s.weight := by
  obtain ⟨ts, hts⟩ := h.tokens
  cases ts with
  | nil =>
    have : t.stream.tokens = s.stream.tokens := hts
    rw [remaining, remaining, this] at hlt
    exact absurd hlt (Nat.lt_irrefl _)
  | cons x ts =>
    have hw : s.weight = weightOf ((x :: (ts ++ t.stream.tokens)).map Token.kind) := by
      rw [weight_eq, ahead, ← hts]
      rfl
    have hrest : t.weight ≤ weightOf ((ts ++ t.stream.tokens).map Token.kind) := by
      rw [weight_eq, ahead, List.map_append]
      induction ts.map Token.kind with
      | nil => exact Nat.le_refl _
      | cons k ks ih =>
        rw [List.cons_append, weightOf]
        omega
    rw [List.map_cons, weightOf] at hw
    have := x.kind.weight_pos
    omega

theorem reaches_stepped (s : ParserState) : s.Reaches s.stepped := by
  have hname (x : TokenStream) : x.next.name = x.name ∧ x.next.filename = x.filename := by
    unfold TokenStream.next
    split
    · exact ⟨rfl, rfl⟩
    · exact ⟨rfl, rfl⟩
  exact ⟨s.stepped_suffix, (hname s.stream).1, (hname s.stream).2, rfl, rfl⟩

/-- **A step from a token that is not the end** leaves fewer tokens. -/
theorem remaining_stepped (s : ParserState) (h : s.stream.current.isEnd = false) :
    s.stepped.remaining < s.remaining :=
  s.stream.length_tokens_next_lt h

end ParserState

/-! ### Routes and their errors -/

/-- **Route of a run.** The lines are those that an error can have, `allows` says which tags can be
open where the run begins, with the end tags that are looked for, and `causes` what can be wrong. -/
structure Route where
  tokens : List Token
  name : Option String
  filename : Option String
  lines : Nat → Prop
  line_of_beneath : ∀ t, Token.Beneath tokens t → lines t.line
  allows : List String → List (List TokenRule) → Prop
  causes : SyntaxError.Cause → Prop
  ordinary : ∀ {cause}, cause.Ordinary → causes cause

namespace Route

/-- The route where other tags can be open. -/
def standing (r : Route) (allows : List String → List (List TokenRule) → Prop) : Route :=
  { r with allows := allows }

/-- **Inside a tag.** It is open besides those that were open before. -/
def inside (r : Route) (tag : String) : Route :=
  r.standing fun tags ends => ∃ outer, tags = tag :: outer ∧ r.allows outer ends

/-- Expressions on a line of the route. -/
def Holds (r : Route) (e : Expr) : Prop :=
  r.lines e.line

/-- **A state on the route.** -/
structure On (r : Route) (s : ParserState) : Prop where
  tokens : s.stream.tokens <:+ r.tokens
  name : s.stream.name = r.name
  filename : s.stream.filename = r.filename
  allowed : r.allows s.openTags s.expectedEnds

/-- **Errors of a route**: at a line of it, at a token, or in the bound of a range literal. -/
inductive Fault (r : Route) : SyntaxError → Prop where
  | atLine {cause : SyntaxError.Cause} {line : Nat} (hline : r.lines line) (hcause : r.causes cause) :
      Fault r ((SyntaxError.atLine cause line).inTemplate r.name r.filename)
  | atToken {cause : SyntaxError.Cause} {t : Token} (ht : t ∈ r.tokens) (hcause : r.causes cause) :
      Fault r ((SyntaxError.atSpan cause t.line t.span).inTemplate r.name r.filename)
  | inBound {t : Token} {text : String} {e : SyntaxError} (ht : t ∈ r.tokens)
      (htext : t.HasBound text) (hread : Token.ofExpression text t.line t.span.lo = .error e) :
      Fault r (e.inTemplate r.name r.filename)

variable {r : Route} {s t : ParserState}

/-- Errors do not depend on what is open. -/
theorem Fault.standing {allows : List String → List (List TokenRule) → Prop} {e : SyntaxError}
    (h : (r.standing allows).Fault e) : r.Fault e := by
  cases h with
  | atLine hline hcause => exact .atLine hline hcause
  | atToken ht hcause => exact .atToken ht hcause
  | inBound ht htext hread => exact .inBound ht htext hread

theorem On.reaches (hs : r.On s) (h : s.Reaches t) : r.On t :=
  ⟨h.tokens.trans hs.tokens, h.name.trans hs.name, h.filename.trans hs.filename, by
    rw [h.openTags, h.expectedEnds]
    exact hs.allowed⟩

/-- The current token is one of the route. -/
theorem On.current_mem (hs : r.On s) : s.stream.current ∈ r.tokens :=
  hs.tokens.mem List.mem_cons_self

theorem On.current_beneath (hs : r.On s) : Token.Beneath r.tokens s.stream.current :=
  .token hs.current_mem

theorem On.current_line (hs : r.On s) : r.lines s.stream.current.line :=
  r.line_of_beneath _ hs.current_beneath

/-- **An error at the current place** is one of the route. -/
theorem On.fault_error (hs : r.On s) {cause : SyntaxError.Cause} {line : Nat} (hline : r.lines line)
    (hcause : r.causes cause) : r.Fault (s.error cause line) := by
  unfold ParserState.error
  dsimp only
  rw [hs.name, hs.filename]
  split
  · next heq =>
    rw [← heq]
    exact .atToken hs.current_mem hcause
  · exact .atLine hline hcause

/-- A token that does not fit is the place of the error about it. -/
theorem On.fault_mismatch (hs : r.On s) (rule : TokenRule) : r.Fault (s.stream.mismatch rule) := by
  unfold TokenStream.mismatch
  dsimp only
  rw [hs.name, hs.filename]
  refine .atToken hs.current_mem (r.ordinary ?_)
  split <;> trivial

/-- **Where a run arrives** from a state: with a value that satisfies `post`, and behind a token if
`must` says so of the value; or with an error of the route. -/
def Arrives {α : Type} (r : Route) (s : ParserState) (must post : α → Prop) :
    EStateM.Result SyntaxError ParserState α → Prop
  | .ok x t => s.Reaches t ∧ (must x → t.remaining < s.remaining) ∧ post x
  | .error e t => s.Reaches t ∧ r.Fault e

end Route

namespace Parser

variable {α β : Type} {r : Route} {m n : Nat} {s : ParserState} {p p' q q' : Parser α}
  {f f' : α → Parser β} {must post : α → Prop} {must' post' : β → Prop}

/-! ### Parsers side by side -/

/-- No value needs to be behind a token. -/
abbrev Idle {α : Type} : α → Prop :=
  fun _ => False

/-- Every value is behind a token. -/
abbrev Moving {α : Type} : α → Prop :=
  fun _ => True

/-- Nothing is said about a value. -/
abbrev Anything {α : Type} : α → Prop :=
  fun _ => True

/-- The value of a round is behind a token unless the round is the last one. -/
abbrev Going {α β : Type} : α ⊕ β → Prop :=
  Sum.elim Moving Idle

/-- **Two parsers agree** in a state of a route. -/
structure TracksAt (r : Route) (s : ParserState) (p p' : Parser α) (must post : α → Prop) :
    Prop where
  same : p s = p' s
  arrives : r.Arrives s must post (p s)

/-- **Two parsers agree** on a route where less than `n` is left to read. -/
def Tracks (r : Route) (n : Nat) (p p' : Parser α) (must post : α → Prop) : Prop :=
  ∀ s, r.On s → s.weight < n → TracksAt r s p p' must post

theorem TracksAt.imp {weaker less : α → Prop} (h : TracksAt r s p p' must post)
    (hmust : ∀ x, less x → must x) (hpost : ∀ x, post x → weaker x) :
    TracksAt r s p p' less weaker := by
  refine ⟨h.same, ?_⟩
  have ha := h.arrives
  cases hp : p s with
  | ok x t =>
    rw [hp] at ha
    exact ⟨ha.1, fun hx => ha.2.1 (hmust x hx), hpost x ha.2.2⟩
  | error e t =>
    rw [hp] at ha
    exact ha

theorem Tracks.mono (h : Tracks r n p p' must post) (hm : m ≤ n) : Tracks r m p p' must post :=
  fun s hs hw => h s hs (Nat.lt_of_lt_of_le hw hm)

theorem Tracks.imp {weaker : α → Prop} (h : Tracks r n p p' must post)
    (hpost : ∀ x, post x → weaker x) : Tracks r n p p' must weaker :=
  fun s hs hw => (h s hs hw).imp (fun _ => id) hpost

/-- Who has to move need not say so. -/
theorem Tracks.idle (h : Tracks r n p p' must post) : Tracks r n p p' Idle post :=
  fun s hs hw => (h s hs hw).imp (fun _ => False.elim) fun _ => id

/-- **Parts one after the other** in a state. It is enough that one of them moves. -/
theorem TracksAt.bind (hp : TracksAt r s p p' must post) (musts : α → β → Prop)
    (hf : ∀ x t, s.Reaches t → (must x → t.remaining < s.remaining) → post x →
      TracksAt r t (f x) (f' x) (musts x) post')
    (hmust : ∀ x y, post x → must' y → must x ∨ musts x y) :
    TracksAt r s (p >>= f) (p' >>= f') must' post' := by
  have hsame := hp.same
  have ha := hp.arrives
  constructor
  · show EStateM.bind p f s = EStateM.bind p' f' s
    rw [EStateM.bind, EStateM.bind, ← hsame]
    cases h : p s with
    | error e t => rfl
    | ok x t =>
      rw [h] at ha
      exact (hf x t ha.1 ha.2.1 ha.2.2).same
  · show r.Arrives s must' post' (EStateM.bind p f s)
    rw [EStateM.bind]
    cases h : p s with
    | error e t =>
      rw [h] at ha
      exact ha
    | ok x t =>
      rw [h] at ha
      obtain ⟨hreach, hmoved, hx⟩ := ha
      have hrest := (hf x t hreach hmoved hx).arrives
      dsimp only
      cases h' : f x t with
      | error e u =>
        rw [h'] at hrest
        exact ⟨hreach.trans hrest.1, hrest.2⟩
      | ok y u =>
        rw [h'] at hrest
        refine ⟨hreach.trans hrest.1, fun hy => ?_, hrest.2.2⟩
        rcases hmust x y hx hy with hfirst | hsecond
        · exact Nat.lt_of_le_of_lt hrest.1.remaining_le (hmoved hfirst)
        · exact Nat.lt_of_lt_of_le (hrest.2.1 hsecond) hreach.remaining_le

/-- **Parts one after the other**, where the value of the first says what the second must consume. -/
theorem Tracks.bindOf (hp : Tracks r n p p' must post) (musts : α → β → Prop)
    (hf : ∀ x, post x → Tracks r n (f x) (f' x) (musts x) post')
    (hmust : ∀ x y, post x → must' y → must x ∨ musts x y) :
    Tracks r n (p >>= f) (p' >>= f') must' post' :=
  fun s hs hw => (hp s hs hw).bind musts
    (fun x t hreach _ hx => hf x hx t (hs.reaches hreach) (Nat.lt_of_le_of_lt hreach.weight_le hw))
    hmust

/-- **Parts one after the other.** -/
theorem Tracks.bind (hp : Tracks r n p p' must post)
    (hf : ∀ x, post x → Tracks r n (f x) (f' x) must' post') :
    Tracks r n (p >>= f) (p' >>= f') must' post' :=
  hp.bindOf (fun _ => must') hf fun _ _ _ => .inr

/-- **Behind a part that moves** less is left to read, and nothing has to move any more. -/
theorem Tracks.behind (hp : Tracks r (n + 1) p p' Moving post)
    (hf : ∀ x, post x → Tracks r n (f x) (f' x) Idle post') :
    Tracks r (n + 1) (p >>= f) (p' >>= f') must' post' := by
  refine fun s hs hw => (hp s hs hw).bind (fun _ => Idle) (fun x t hreach hmoved hx => ?_)
    fun _ _ _ _ => .inl trivial
  have hlt := hreach.weight_lt (hmoved trivial)
  exact hf x hx t (hs.reaches hreach) (by omega)

/-- The same where the bound stays. -/
theorem Tracks.andThen (hp : Tracks r n p p' Moving post)
    (hf : ∀ x, post x → Tracks r n (f x) (f' x) Idle post') :
    Tracks r n (p >>= f) (p' >>= f') must' post' :=
  hp.bindOf (fun _ => Idle) hf fun _ _ _ _ => .inl trivial

theorem TracksAt.map {g : α → β} (hp : TracksAt r s p p' must post)
    (hpost : ∀ x, post x → post' (g x)) (hmust : ∀ x, must' (g x) → must x) :
    TracksAt r s (g <$> p) (g <$> p') must' post' := by
  obtain ⟨hsame, ha⟩ := hp
  constructor
  · show EStateM.map g p s = EStateM.map g p' s
    rw [EStateM.map, EStateM.map, ← hsame]
  · show r.Arrives s must' post' (EStateM.map g p s)
    rw [EStateM.map]
    cases h : p s with
    | error e t =>
      rw [h] at ha
      exact ha
    | ok x t =>
      rw [h] at ha
      exact ⟨ha.1, fun hx => ha.2.1 (hmust x hx), hpost x ha.2.2⟩

/-- A value that need not be behind a token. -/
theorem Tracks.stay {x : α} (hx : post x) (hmust : ¬ must x) :
    Tracks r n (Pure.pure x) (Pure.pure x) must post :=
  fun s _ _ => ⟨rfl, .refl s, fun h => absurd h hmust, hx⟩

theorem Tracks.pure {x : α} (hx : post x) : Tracks r n (Pure.pure x) (Pure.pure x) Idle post :=
  .stay hx id

/-- The result of a repetition, where the last round need not move. -/
theorem Tracks.last {I : α → Prop} {x : β} (hx : post' x) :
    Tracks r n (Pure.pure (.inr x)) (Pure.pure (.inr x)) Going (Sum.elim I post') :=
  .stay hx id

theorem TracksAt.ite {b : Prop} [Decidable b] (hp : b → TracksAt r s p p' must post)
    (hq : ¬ b → TracksAt r s q q' must post) :
    TracksAt r s (if b then p else q) (if b then p' else q') must post := by
  split
  · next h => exact hp h
  · next h => exact hq h

theorem Tracks.ite {b : Prop} [Decidable b] (hp : Tracks r n p p' must post)
    (hq : Tracks r n q q' must post) :
    Tracks r n (if b then p else q) (if b then p' else q') must post := by
  split
  · exact hp
  · exact hq

/-! ### Single tokens -/

/-- **What the current token decides.** -/
theorem Tracks.see {f f' : Token → Parser β}
    (h : ∀ s, r.On s → s.weight < n →
      TracksAt r s (f s.stream.current) (f' s.stream.current) must' post') :
    Tracks r n (current >>= f) (current >>= f') must' post' :=
  fun s hs hw => ⟨(h s hs hw).same, (h s hs hw).arrives⟩

theorem tracks_current : Tracks r n current current Idle (Token.Beneath r.tokens) :=
  fun s hs _ => ⟨rfl, .refl s, False.elim, hs.current_beneath⟩

theorem tracks_look : Tracks r n look look Idle Anything :=
  fun s _ _ => ⟨rfl, .refl s, False.elim, trivial⟩

theorem tracks_atSymbol (x : Symbol) : Tracks r n (atSymbol x) (atSymbol x) Idle Anything :=
  fun s _ _ => ⟨rfl, .refl s, False.elim, trivial⟩

theorem tracks_atMark (m : Mark) : Tracks r n (atMark m) (atMark m) Idle Anything :=
  fun s _ _ => ⟨rfl, .refl s, False.elim, trivial⟩

theorem tracks_step : Tracks r n step step Idle Anything :=
  fun s _ _ => ⟨rfl, s.reaches_stepped, False.elim, trivial⟩

theorem tracks_advance : Tracks r n advance advance Idle (Token.Beneath r.tokens) :=
  fun s hs _ => ⟨rfl, s.reaches_stepped, False.elim, hs.current_beneath⟩

theorem tracks_skip_two : Tracks r n (skip 2) (skip 2) Idle Anything :=
  fun s _ _ => ⟨rfl, s.reaches_stepped.trans s.stepped.reaches_stepped, False.elim, trivial⟩

/-- **A step from a token that is not the end** moves. -/
theorem TracksAt.step (hs : r.On s) (hw : s.weight < n + 1) (hend : s.stream.current.isEnd = false)
    (h : Tracks r n p p' Idle post) :
    TracksAt r s (step >>= fun _ => p) (step >>= fun _ => p') must post := by
  have hreach := s.reaches_stepped
  have hlt := s.remaining_stepped hend
  have hstep : TracksAt r s Parser.step Parser.step Moving Anything :=
    ⟨rfl, hreach, fun _ => hlt, trivial⟩
  refine hstep.bind (fun _ => Idle) (fun _ t hreach hmoved _ => ?_)
    fun _ _ _ _ => .inl trivial
  have hweight := hreach.weight_lt (hmoved trivial)
  exact h t (hs.reaches hreach) (by omega)

theorem TracksAt.advance {f f' : Token → Parser β} (hs : r.On s) (hw : s.weight < n + 1)
    (hend : s.stream.current.isEnd = false)
    (h : ∀ t, Token.Beneath r.tokens t → Tracks r n (f t) (f' t) Idle post') :
    TracksAt r s (advance >>= f) (advance >>= f') must' post' := by
  obtain ⟨hsame, ha⟩ : TracksAt r s (Parser.step >>= fun _ => f s.stream.current)
      (Parser.step >>= fun _ => f' s.stream.current) must' post' :=
    .step hs hw hend (h _ hs.current_beneath)
  exact ⟨hsame, ha⟩

end Parser

/-- **Rules that the end of a template does not fit.** -/
class TokenRule.Solid (rule : TokenRule) : Prop where
  ne_end : rule ≠ .type (.mark .endOfTemplate)

namespace TokenRule

instance (text : String) : Solid (.name text) :=
  ⟨nofun⟩

instance (x : Symbol) : Solid (.type (.symbol x)) :=
  ⟨nofun⟩

instance : Solid (.type .name) :=
  ⟨nofun⟩

instance : Solid (.type (.mark .blockEnd)) :=
  ⟨nofun⟩

instance : Solid (.type (.mark .variableEnd)) :=
  ⟨nofun⟩

end TokenRule

theorem Token.isEnd_of_fits {t : Token} {rule : TokenRule} [h : rule.Solid]
    (ht : t.fits rule = true) : t.isEnd = false := by
  refine Bool.eq_false_iff.2 fun hend => h.ne_end ?_
  have hkind := Token.isEnd_iff.1 hend
  cases rule with
  | type expected =>
    obtain rfl : t.type = expected := beq_iff_eq.1 ht
    rw [Token.type, hkind]
    rfl
  | name text => cases hkind.symm.trans (Token.isName_iff.1 ht)

namespace Parser

variable {α β : Type} {r : Route} {m n : Nat} {s : ParserState} {p p' q q' : Parser α}
  {f f' : α → Parser β} {must post : α → Prop} {must' post' : β → Prop}

/-- A token that is skipped if it fits. -/
theorem tracks_skipIf (rule : TokenRule) : Tracks r n (skipIf rule) (skipIf rule) Idle Anything := by
  intro s _ _
  refine ⟨rfl, ?_⟩
  rw [skipIf_eq]
  split
  · exact ⟨s.reaches_stepped, False.elim, trivial⟩
  · exact ⟨.refl s, False.elim, trivial⟩

/-- **Behind a token that fits** nothing has to move. -/
theorem Tracks.skips {rule : TokenRule} [rule.Solid] (hp : Tracks r n p p' Idle post)
    (hq : Tracks r n q q' must post) :
    Tracks r n (skipIf rule >>= fun found => if found = true then p else q)
      (skipIf rule >>= fun found => if found = true then p' else q') must post := by
  intro s hs hw
  have hskip : TracksAt r s (skipIf rule) (skipIf rule) (· = true) Anything := by
    refine ⟨rfl, ?_⟩
    rw [skipIf_eq]
    split
    · next hfits =>
      have hend := Token.isEnd_of_fits hfits
      exact ⟨s.reaches_stepped, fun _ => s.remaining_stepped hend, trivial⟩
    · exact ⟨.refl s, nofun, trivial⟩
  refine hskip.bind (fun found x => found = false ∧ must x) (fun found t hreach _ _ => ?_)
    fun found x _ hx => ?_
  · have ht := hs.reaches hreach
    have hwt := Nat.lt_of_le_of_lt hreach.weight_le hw
    cases found with
    | true => exact (hp t ht hwt).imp (fun _ h => nomatch h.1) fun _ => id
    | false => exact (hq t ht hwt).imp (fun _ h => h.2) fun _ => id
  · cases found with
    | true => exact .inl rfl
    | false => exact .inr ⟨rfl, hx⟩

/-- A current token that fits is skipped. -/
theorem TracksAt.skipped {rule : TokenRule} [rule.Solid] (hs : r.On s) (hw : s.weight < n)
    (hfits : s.stream.current.fits rule = true) (hp : Tracks r n p p' Idle post) :
    TracksAt r s (skipIf rule >>= fun found => if found = true then p else q)
      (skipIf rule >>= fun found => if found = true then p' else q') must post := by
  have hskip : skipIf rule s = .ok true s.stepped := skipIf_eq_true.2 ⟨hfits, rfl⟩
  have hfirst : TracksAt r s (skipIf rule) (skipIf rule) Moving (· = true) := by
    refine ⟨rfl, ?_⟩
    rw [hskip]
    exact ⟨s.reaches_stepped, fun _ => s.remaining_stepped (Token.isEnd_of_fits hfits), rfl⟩
  refine hfirst.bind (fun _ => Idle) (fun found t hreach _ hfound => ?_)
    fun _ _ _ _ => .inl trivial
  rw [if_pos hfound, if_pos hfound]
  exact hp t (hs.reaches hreach) (Nat.lt_of_le_of_lt hreach.weight_le hw)

/-- **A token that is demanded** moves. -/
theorem tracks_expect (rule : TokenRule) [rule.Solid] :
    Tracks r n (expect rule) (expect rule) Moving (Token.Beneath r.tokens) := by
  intro s hs _
  refine ⟨rfl, ?_⟩
  unfold expect TokenStream.expect TokenStream.nextIf?
  by_cases hfits : s.stream.current.fits rule = true
  · rw [if_pos hfits]
    have hend := Token.isEnd_of_fits hfits
    exact ⟨s.reaches_stepped, fun _ => s.remaining_stepped hend, hs.current_beneath⟩
  · rw [if_neg hfits]
    exact ⟨.refl s, hs.fault_mismatch rule⟩

/-! ### Errors, names and brackets of the state -/

theorem TracksAt.failAt {cause : SyntaxError.Cause} {line : Nat} (hs : r.On s)
    (hline : r.lines line) (hcause : cause.Ordinary) :
    TracksAt r s (failAt cause line : Parser α) (failAt cause line) must post :=
  ⟨rfl, .refl s, hs.fault_error hline (r.ordinary hcause)⟩

theorem tracks_failAt {cause : SyntaxError.Cause} {line : Nat} (hline : r.lines line)
    (hcause : cause.Ordinary) :
    Tracks r n (failAt cause line : Parser α) (failAt cause line) must post :=
  fun _ hs _ => .failAt hs hline hcause

theorem tracks_fail {cause : SyntaxError.Cause} (hcause : cause.Ordinary) :
    Tracks r n (fail cause : Parser α) (fail cause) must post :=
  fun s hs _ => ⟨rfl, .refl s, hs.fault_error hs.current_line (r.ordinary hcause)⟩

theorem tracks_failUnclosed (ends : Option (List TokenRule)) {line : Nat} (hline : r.lines line) :
    Tracks r n (failUnclosed ends line : Parser α) (failUnclosed ends line) must post :=
  fun s hs _ => ⟨rfl, .refl s, hs.fault_error hline (r.ordinary trivial)⟩

theorem tracks_freshName (line : Nat) :
    Tracks r n (freshName line) (freshName line) Idle fun e => e.line = line :=
  fun _ _ _ => ⟨rfl, ⟨List.suffix_refl _, rfl, rfl, rfl, rfl⟩, False.elim, rfl⟩

/-- **A bracket of the state** around a run, which is taken away after success and after failure. -/
theorem TracksAt.bracket {allows : List String → List (List TokenRule) → Prop} (u : ParserState)
    (close : ParserState → ParserState) (hu : u.stream = s.stream)
    (hstream : ∀ t, (close t).stream = t.stream) (hclose : ∀ t, u.Reaches t → s.Reaches (close t))
    (h : TracksAt (r.standing allows) u p p' must post) :
    TracksAt r s (fun _ => afterwards p close u) (fun _ => afterwards p' close u) must post := by
  obtain ⟨hsame, ha⟩ := h
  unfold afterwards
  refine ⟨by rw [hsame], ?_⟩
  cases hp : p u with
  | ok x t =>
    rw [hp] at ha
    refine ⟨hclose t ha.1, fun hx => ?_, ha.2.2⟩
    have hlt := ha.2.1 hx
    unfold ParserState.remaining at hlt ⊢
    rw [hstream, ← hu]
    exact hlt
  | error e t =>
    rw [hp] at ha
    exact ⟨hclose t ha.1, ha.2.standing⟩

/-- **A tag that is opened** is closed again. -/
theorem TracksAt.inTag {tag : String}
    (h : TracksAt (r.inside tag) { s with openTags := tag :: s.openTags } p p' must post) :
    TracksAt r s (inTag tag p) (inTag tag p') must post := by
  obtain ⟨hsame, ha⟩ := TracksAt.bracket (s := s) { s with openTags := tag :: s.openTags }
    (fun t => { t with openTags := t.openTags.tail }) rfl (fun _ => rfl)
    (fun t hreach => ⟨hreach.tokens, hreach.name, hreach.filename,
      congrArg List.tail hreach.openTags, hreach.expectedEnds⟩) h
  exact ⟨hsame, ha⟩

/-- **End tags that are looked for** are looked for no more behind them. -/
theorem Tracks.awaiting (allows : List String → List (List TokenRule) → Prop) {rules : List TokenRule}
    (h : Tracks (r.standing allows) n p p' must post)
    (hallows : ∀ tags ends, r.allows tags ends → allows tags (rules :: ends)) :
    Tracks r n (awaiting rules p) (awaiting rules p') must post := by
  intro s hs hw
  have hopen : (r.standing allows).On { s with expectedEnds := rules :: s.expectedEnds } :=
    ⟨hs.tokens, hs.name, hs.filename, hallows _ _ hs.allowed⟩
  obtain ⟨hsame, ha⟩ := TracksAt.bracket (s := s) { s with expectedEnds := rules :: s.expectedEnds }
    (fun t => { t with expectedEnds := t.expectedEnds.tail }) rfl (fun _ => rfl)
    (fun t hreach => ⟨hreach.tokens, hreach.name, hreach.filename, hreach.openTags,
      congrArg List.tail hreach.expectedEnds⟩) (h _ hopen hw)
  exact ⟨hsame, ha⟩

/-! ### Repetitions -/

/-- One round of a repetition, and what follows from its result. -/
theorem repeatFrom_eq (round : α → Parser (α ⊕ β)) (x : α) (s : ParserState) :
    repeatFrom round x s =
      match round x s with
      | .error e t => .error e t
      | .ok (.inr y) t => .ok y t
      | .ok (.inl x') t =>
        if t.remaining < s.remaining then repeatFrom round x' t else fail .nestedTooDeep t := by
  rw [repeatFrom, Loop.iterate]
  cases round x s with
  | error e t => rfl
  | ok z t => cases z <;> rfl

section Repetition

variable {round round' : α → Parser (α ⊕ β)} {I : α → Prop}

/-- **A repetition** whose rounds move unless they are the last. So it is never stuck. What it must
consume is said by its first round. -/
theorem TracksAt.loop {x : α} (hs : r.On s) (hw : s.weight < n)
    (hfirst : TracksAt r s (round x) (round' x) (Sum.elim Moving must') (Sum.elim I post'))
    (h : ∀ x, I x → Tracks r n (round x) (round' x) Going (Sum.elim I post')) :
    TracksAt r s (repeatFrom round x) (repeatFrom round' x) must' post' := by
  induction hn : s.remaining using Nat.strongRecOn generalizing must' x s with
  | _ k ih =>
    obtain ⟨hsame, ha⟩ := hfirst
    have hround := repeatFrom_eq round x s
    have hround' := repeatFrom_eq round' x s
    rw [← hsame] at hround'
    cases hr : round x s with
    | error e t =>
      rw [hr] at hround hround' ha
      exact ⟨hround.trans hround'.symm, hround ▸ ha⟩
    | ok z t =>
      rw [hr] at hround hround' ha
      obtain ⟨hreach, hmoved, hz⟩ := ha
      cases z with
      | inr y => exact ⟨hround.trans hround'.symm, hround ▸ ⟨hreach, hmoved, hz⟩⟩
      | inl x' =>
        have hlt := hmoved trivial
        dsimp only at hround hround'
        rw [if_pos hlt] at hround hround'
        have ht := hs.reaches hreach
        have hwt := Nat.lt_of_le_of_lt hreach.weight_le hw
        obtain ⟨hsame', ha'⟩ := ih t.remaining (hn ▸ hlt) ht hwt (h x' hz t ht hwt) rfl
        refine ⟨hround.trans (hsame'.trans hround'.symm), ?_⟩
        rw [hround]
        cases hrest : repeatFrom round x' t with
        | error e u =>
          rw [hrest] at ha'
          exact ⟨hreach.trans ha'.1, ha'.2⟩
        | ok y u =>
          rw [hrest] at ha'
          exact ⟨hreach.trans ha'.1, fun _ => Nat.lt_of_le_of_lt ha'.1.remaining_le hlt, ha'.2.2⟩

theorem Tracks.loopFrom {x : α}
    (hfirst : Tracks r n (round x) (round' x) (Sum.elim Moving must') (Sum.elim I post'))
    (h : ∀ x, I x → Tracks r n (round x) (round' x) Going (Sum.elim I post')) :
    Tracks r n (repeatFrom round x) (repeatFrom round' x) must' post' :=
  fun s hs hw => .loop hs hw (hfirst s hs hw) h

theorem Tracks.loop {x : α}
    (h : ∀ x, I x → Tracks r n (round x) (round' x) Going (Sum.elim I post')) (hx : I x) :
    Tracks r n (repeatFrom round x) (repeatFrom round' x) Idle post' :=
  .loopFrom (h x hx) h

/-- A part whose value the next round begins with. -/
theorem TracksAt.next (h : TracksAt r s p p' Moving I) :
    TracksAt r s (do let x ← p; return .inl x) (do let x ← p'; return .inl x) Going
      (Sum.elim I post') :=
  h.bind (fun _ => Idle) (fun _ t _ _ hx => ⟨rfl, .refl t, False.elim, hx⟩) fun _ _ _ _ => .inl trivial

/-- A repetition of rounds that keep to the route whatever they begin with. -/
theorem Tracks.loopAny {x : α}
    (h : ∀ x, Tracks r n (round x) (round' x) Going (Sum.elim Anything post')) :
    Tracks r n (repeatFrom round x) (repeatFrom round' x) Idle post' :=
  .loop (fun x _ => h x) trivial

end Repetition

end Parser

end LiquidTemplate
