import LiquidTemplate.Proofs.Success

/-!
# Rules of conduct

What holds of every run of a parser, whether it succeeds or fails, follows from what holds of its
single steps: of a token that is read, of an error at the current place. A parser that is put together
of parts that obey such rules obeys them too.

* `Conduct`: rules for what parsers can reach, and for the errors that they can give.
* `Parser.Obeys`: a parser that keeps to the rules in every state.
* `Obeys.bind`, `Obeys.loop`: parts one after the other, and repetitions.
-/

namespace LiquidTemplate

/-- **Errors inside of tags**: all but those about a token outside of them. -/
def SyntaxError.Cause.Inside (cause : Cause) : Prop :=
  ∀ got, cause ≠ .outsideTag got

/-- **Rules of conduct**: which states a run can reach from a state, and with which errors it can
fail in which state. Every single step keeps to the rules. -/
structure Conduct where
  moves : ParserState → ParserState → Prop
  fails : ParserState → SyntaxError → ParserState → Prop
  refl : ∀ s, moves s s
  trans : ∀ {s t u}, moves s t → moves t u → moves s u
  /-- A failure behind a move is one from its start. -/
  carry : ∀ {s t e u}, moves s t → fails t e u → fails s e u
  step : ∀ s, moves s s.stepped
  mismatch : ∀ s rule, fails s (s.stream.mismatch rule) s
  error : ∀ s cause line, cause.Inside → fails s (s.error cause line) s
  /-- What is done in an open tag. -/
  inTag : ∀ {s t tag}, moves { s with openTags := tag :: s.openTags } t →
    moves s { t with openTags := t.openTags.tail }
  inTag_fails : ∀ {s e t tag}, fails { s with openTags := tag :: s.openTags } e t →
    fails s e { t with openTags := t.openTags.tail }

namespace Conduct

variable {α : Type}

/-- **Allowing fresh names.** -/
def AllowsFresh (c : Conduct) : Prop :=
  ∀ s, c.moves s { s with madeUp := s.madeUp + 1 }

/-- **Outcome** of a run from a state, as the rules allow it. -/
def Outcome (c : Conduct) (s : ParserState) : EStateM.Result SyntaxError ParserState α → Prop
  | .ok _ t => c.moves s t
  | .error e t => c.fails s e t

/-- An outcome behind a move is one from its start. -/
theorem Outcome.behind {c : Conduct} {s t : ParserState} (h : c.moves s t)
    {r : EStateM.Result SyntaxError ParserState α} (hr : c.Outcome t r) : c.Outcome s r := by
  cases r with
  | ok x u => exact c.trans h hr
  | error e u => exact c.carry h hr

end Conduct

namespace Parser

variable {α β : Type} {c : Conduct} {p : Parser α} {f : α → Parser β}

/-- **Obeying** the rules, from every state on. -/
def Obeys (c : Conduct) (p : Parser α) : Prop :=
  ∀ s, c.Outcome s (p s)

/-! ### Parts -/

theorem Obeys.pure {x : α} : Obeys c (Pure.pure x) :=
  c.refl

/-- **One part after another** from a state. -/
theorem outcome_bind {s : ParserState} (hp : c.Outcome s (p s))
    (hf : ∀ x t, p s = .ok x t → c.Outcome t (f x t)) : c.Outcome s ((p >>= f) s) := by
  show c.Outcome s (EStateM.bind p f s)
  rw [EStateM.bind]
  cases h : p s with
  | ok x t =>
    rw [h] at hp
    exact (hf x t h).behind hp
  | error e t =>
    rw [h] at hp
    exact hp

/-- **One part after another.** -/
theorem Obeys.bind (hp : Obeys c p) (hf : ∀ x, Obeys c (f x)) : Obeys c (p >>= f) :=
  fun s => outcome_bind (hp s) fun x t _ => hf x t

theorem Obeys.map {f : α → β} (hp : Obeys c p) : Obeys c (f <$> p) := by
  intro s
  have hs := hp s
  show c.Outcome s (EStateM.map f p s)
  rw [EStateM.map]
  cases h : p s with
  | ok x t =>
    rw [h] at hs
    exact hs
  | error e t =>
    rw [h] at hs
    exact hs

theorem Obeys.ite {b : Prop} [Decidable b] {p q : Parser α} (hp : Obeys c p) (hq : Obeys c q) :
    Obeys c (if b then p else q) := by
  split
  · exact hp
  · exact hq

/-! ### Single tokens and errors -/

/-- What is done with the state. -/
theorem Obeys.state {f : ParserState → Parser β} (h : ∀ s, c.Outcome s (f s s)) :
    Obeys c (get >>= f) :=
  h

theorem obeys_current : Obeys c current :=
  c.refl

theorem obeys_look : Obeys c look :=
  c.refl

theorem obeys_step : Obeys c step :=
  c.step

theorem obeys_advance : Obeys c advance :=
  c.step

theorem obeys_skip_two : Obeys c (skip 2) :=
  fun s => c.trans (c.step s) (c.step s.stepped)

theorem obeys_skipIf (rule : TokenRule) : Obeys c (skipIf rule) := by
  intro s
  rw [skipIf_eq]
  split
  · exact c.step s
  · exact c.refl s

theorem obeys_expect (rule : TokenRule) : Obeys c (expect rule) := by
  intro s
  unfold expect TokenStream.expect TokenStream.nextIf?
  by_cases hfits : s.stream.current.fits rule = true
  · rw [if_pos hfits]
    exact c.step s
  · rw [if_neg hfits]
    exact c.mismatch s rule

theorem obeys_atSymbol (x : Symbol) : Obeys c (atSymbol x) :=
  c.refl

theorem obeys_atMark (m : Mark) : Obeys c (atMark m) :=
  c.refl

theorem obeys_failAt {cause : SyntaxError.Cause} (line : Nat)
    (h : cause.Inside) : Obeys c (failAt cause line : Parser α) :=
  fun s => c.error s cause line h

theorem obeys_fail {cause : SyntaxError.Cause} (h : cause.Inside) :
    Obeys c (fail cause : Parser α) :=
  fun s => c.error s cause _ h

theorem obeys_failUnknownTag (tag : String) (line : Nat) :
    Obeys c (failUnknownTag tag line : Parser α) :=
  fun s => c.error s _ line nofun

theorem obeys_failUnclosed (ends : Option (List TokenRule)) (line : Nat) :
    Obeys c (failUnclosed ends line : Parser α) :=
  fun s => c.error s _ line nofun

/-- A fresh name, where the rules allow to make one up. -/
theorem obeys_freshName (h : c.AllowsFresh) (line : Nat) : Obeys c (freshName line) :=
  h

theorem Obeys.inTag (hp : Obeys c p) (tag : String) : Obeys c (Parser.inTag tag p) := by
  intro s
  have hs := hp { s with openTags := tag :: s.openTags }
  unfold Parser.inTag afterwards
  split
  · next x t h =>
    rw [h] at hs
    exact c.inTag hs
  · next e t h =>
    rw [h] at hs
    exact c.inTag_fails hs

/-! ### Repetitions -/

section Repetition

variable {step : α → Parser (α ⊕ β)}

/-- **A repetition** whose rounds obey the rules in the states that satisfy `inv`, and keep that. -/
theorem outcome_repeatFrom (inv : ParserState → Prop)
    (hround : ∀ x s, inv s → c.Outcome s (step x s) ∧ ∀ x' t, step x s = .ok (.inl x') t → inv t)
    {x : α} {s : ParserState} (hs : inv s) : c.Outcome s (repeatFrom step x s) := by
  induction hn : s.remaining using Nat.strongRecOn generalizing x s with
  | _ n ih =>
    obtain ⟨houtcome, hkeeps⟩ := hround x s hs
    rw [repeatFrom, Loop.iterate]
    cases h : step x s with
    | error e t =>
      rw [h] at houtcome
      exact houtcome
    | ok r t =>
      rw [h] at houtcome
      cases r with
      | inr y => exact houtcome
      | inl x' =>
        dsimp only
        split
        · next hlt =>
          have hrest := ih t.remaining (hn ▸ hlt) (x := x') (hkeeps x' t h) rfl
          exact Conduct.Outcome.behind houtcome hrest
        · exact c.carry houtcome (c.error t _ _ (by rintro _ ⟨⟩))

theorem Obeys.loop (h : ∀ x, Obeys c (step x)) (x : α) : Obeys c (repeatFrom step x) :=
  fun _ => outcome_repeatFrom (fun _ => True) (fun x s _ => ⟨h x s, fun _ _ _ => trivial⟩) trivial

/-- **Chains** of operands. -/
theorem obeys_leftChain {operand : Parser Expr} (h : Obeys c operand)
    (operator? : Token → Option (Expr → Expr → Nat → Expr)) :
    Obeys c (leftChain operand operator?) := by
  refine obeys_current.bind fun _ => h.bind fun _ => .loop (fun x => ?_) _
  refine obeys_current.bind fun t => ?_
  cases operator? t with
  | none => exact .pure
  | some build =>
    exact obeys_step.bind fun _ => h.bind fun _ => obeys_current.bind fun _ => .pure

end Repetition

end Parser

end LiquidTemplate
