import LiquidTemplate.Proofs.Conduct.Statements
import LiquidTemplate.Proofs.Exchange.Grammars

/-!
# Driven parsers and their agreement

Two parsers agree on some tokens if they give the same in every state that has only the last of
these tokens left. A parser never goes back to tokens that it has consumed, so the parts of a run stay
within the tokens of its start, and parsers that are put together of agreeing parts agree.

The parser of a tag drives the grammar through its operations: it reads expressions, bodies up to
end tags, and statements behind the beginnings of their tags, one after the other and over and over.
So it has the statement of a tag read nowhere else than behind the beginning of that tag.

* `Conduct.forward`: the rule that what is left is an end of what was left before.
* `Parser.AgreeAt`, `Parser.Agree`: two parsers that give the same in a state, or on some tokens.
* `AgreeAt.bind`, `Agree.loop`: parts one after the other, and repetitions.
* `Grammar.withStatements`: a grammar with the same expressions and other statements.
* `Driven`: parsers that are put together of such operations.
* `BuiltIn`, `driven_builtin`: the tags of every environment.
* `Extension.Known.driven`: the tags of the known extensions.
-/

namespace LiquidTemplate

open LiquidTemplate.Parser LiquidTemplate.Grammar

/-- **Moving forward.** What is left afterwards is an end of what was left before. -/
def Conduct.forward : Conduct where
  moves s t := t.stream.tokens <:+ s.stream.tokens
  fails _ _ _ := True
  refl _ := List.suffix_refl _
  trans h h' := h'.trans h
  carry _ _ := trivial
  step s := s.stepped_suffix
  mismatch _ _ := trivial
  error _ _ _ _ := trivial
  inTag h := h
  inTag_fails _ := trivial

/-- A made-up name consumes nothing. -/
theorem Conduct.allowsFresh_forward : Conduct.forward.AllowsFresh :=
  fun _ => List.suffix_refl _

namespace Parser

variable {α β : Type} {p q : Parser α} {f f' : α → Parser β} {ts : List Token} {s : ParserState}

/-- **Agreement in a state**: the two parsers give the same there, and move forward. -/
structure AgreeAt (p q : Parser α) (s : ParserState) : Prop where
  same : p s = q s
  forward : Conduct.forward.Outcome s (p s)

/-- **Agreement on some tokens**, in all states that have only the last of these left. -/
def Agree (ts : List Token) (p q : Parser α) : Prop :=
  ∀ s : ParserState, s.stream.tokens <:+ ts → AgreeAt p q s

theorem AgreeAt.moves (h : AgreeAt p q s) {x : α} {t : ParserState} (hx : p s = .ok x t) :
    t.stream.tokens <:+ s.stream.tokens := by
  have hforward := h.forward
  rw [hx] at hforward
  exact hforward

/-! ### Parts -/

/-- A parser agrees with itself if it moves forward. -/
theorem Obeys.agreeAt (h : Obeys .forward p) (s : ParserState) : AgreeAt p p s :=
  ⟨rfl, h s⟩

theorem Obeys.agree (h : Obeys .forward p) : Agree ts p p :=
  fun s _ => h.agreeAt s

/-- **One part after another** from a state. -/
theorem AgreeAt.bind (h : AgreeAt p q s) (hf : ∀ x t, p s = .ok x t → AgreeAt (f x) (f' x) t) :
    AgreeAt (p >>= f) (q >>= f') s where
  same := by
    show EStateM.bind p f s = EStateM.bind q f' s
    rw [EStateM.bind, EStateM.bind, ← h.same]
    cases hx : p s with
    | ok x t => exact (hf x t hx).same
    | error e t => rfl
  forward := outcome_bind h.forward fun x t hx => (hf x t hx).forward

/-- **One part after another.** -/
theorem Agree.bind (h : Agree ts p q) (hf : ∀ x, Agree ts (f x) (f' x)) :
    Agree ts (p >>= f) (q >>= f') :=
  fun s hs => (h s hs).bind fun x t hx => hf x t (((h s hs).moves hx).trans hs)

/-- **Brackets of the state** have nothing to do with its stream. -/
theorem AgreeAt.afterwards {u : ParserState} {f : ParserState → ParserState} (h : AgreeAt p q u)
    (hu : u.stream = s.stream) (hf : ∀ t, (f t).stream = t.stream) :
    afterwards p f u = afterwards q f u ∧ Conduct.forward.Outcome s (afterwards p f u) := by
  unfold Parser.afterwards
  rw [← h.same]
  refine ⟨rfl, ?_⟩
  cases hx : p u with
  | ok x t =>
    show (f t).stream.tokens <:+ s.stream.tokens
    rw [hf, ← hu]
    exact h.moves hx
  | error e t => trivial

theorem AgreeAt.inTag {tag : String} (h : AgreeAt p q { s with openTags := tag :: s.openTags }) :
    AgreeAt (inTag tag p) (inTag tag q) s :=
  let close (t : ParserState) : ParserState := { t with openTags := t.openTags.tail }
  have hbrackets := h.afterwards (s := s) (f := close) rfl fun _ => rfl
  ⟨hbrackets.1, hbrackets.2⟩

theorem Agree.awaiting (h : Agree ts p q) (ends : List TokenRule) :
    Agree ts (awaiting ends p) (awaiting ends q) := by
  intro s hs
  let close (t : ParserState) : ParserState := { t with expectedEnds := t.expectedEnds.tail }
  have hinner := h { s with expectedEnds := ends :: s.expectedEnds } hs
  have hbrackets := hinner.afterwards (s := s) (f := close) rfl fun _ => rfl
  exact ⟨hbrackets.1, hbrackets.2⟩

/-! ### Repetitions -/

/-- **A repetition** of agreeing rounds. -/
theorem Agree.loop {step step' : α → Parser (α ⊕ β)}
    (h : ∀ x, Agree ts (step x) (step' x)) (x : α) :
    Agree ts (repeatFrom step x) (repeatFrom step' x) := by
  have hsame (s : ParserState) (hs : s.stream.tokens <:+ ts) :
      repeatFrom step x s = repeatFrom step' x s := by
    induction hn : s.remaining using Nat.strongRecOn generalizing x s with
    | _ n ih =>
      rw [repeatFrom, repeatFrom, Loop.iterate, Loop.iterate, ← (h x s hs).same]
      cases hx : step x s with
      | error e t => rfl
      | ok r t =>
        cases r with
        | inr y => rfl
        | inl x' =>
          dsimp only
          split
          · next hlt => exact ih t.remaining (hn ▸ hlt) x' t (((h x s hs).moves hx).trans hs) rfl
          · rfl
  intro s hs
  refine ⟨hsame s hs, outcome_repeatFrom (fun t => t.stream.tokens <:+ ts) ?_ hs⟩
  exact fun x s hs => ⟨(h x s hs).forward, fun _ _ hx => ((h x s hs).moves hx).trans hs⟩

end Parser

/-! ### Driven parsers -/

/-- The grammar with the same expressions and other statements. -/
def Grammar.withStatements (g : Grammar) (statement : Parser Expansion)
    (branch : Nat → String → Parser Stmt) : Grammar :=
  { g with statement := statement, branch := branch }

/-- **Driven parsers**, which refer to the statements of a grammar only through its bodies, through
the further branches of a condition, and behind the beginning of a tag. A parser that has a statement
read anywhere else would have tags looked up where no tag begins. -/
inductive Driven : {α : Type} → (Grammar → Parser α) → Prop where
  /-- What needs no statements, and only moves forward. -/
  | reads {α : Type} {p : Grammar → Parser α}
      (hsame : ∀ g statement branch, p (g.withStatements statement branch) = p g)
      (hforward : ∀ g : Grammar, g.Minds .forward → Obeys .forward (p g)) : Driven p
  | statement : Driven fun g => do
      let _ ← expectMark .blockBegin
      g.statement
  | branch (line : Nat) (tag : String) : Driven fun g => g.branch line tag
  | body (ends : Option (List TokenRule)) : Driven fun g => parseBody g ends
  | bind {α β : Type} {p : Grammar → Parser α} {f : α → Grammar → Parser β} (hp : Driven p)
      (hf : ∀ x, Driven (f x)) : Driven fun g => p g >>= fun x => f x g
  | loop {α β : Type} {step : α → Grammar → Parser (α ⊕ β)} (h : ∀ x, Driven (step x)) (x : α) :
      Driven fun g => repeatFrom (fun x => step x g) x

namespace Driven

variable {α β : Type} {p q : Grammar → Parser α}

/-- What refers to no grammar at all. -/
theorem plain {p : Parser α} (h : Obeys .forward p) : Driven fun _ => p :=
  .reads (fun _ _ _ => rfl) fun _ _ => h

theorem pure (x : α) : Driven fun _ => Pure.pure x :=
  .plain .pure

theorem map (hp : Driven p) (f : α → β) : Driven fun g => f <$> p g := by
  have hbind : Driven fun g => p g >>= fun x => Pure.pure (f x) := .bind hp fun x => .pure (f x)
  simp only [map_eq_pure_bind]
  exact hbind

theorem ite {b : Prop} [Decidable b] (hp : Driven p) (hq : Driven q) :
    Driven fun g => if b then p g else q g := by
  split
  · exact hp
  · exact hq

/-! ### Parts of tags -/

theorem step : Driven fun _ => step :=
  .plain obeys_step

theorem advance : Driven fun _ => advance :=
  .plain obeys_advance

theorem current : Driven fun _ => current :=
  .plain obeys_current

theorem skipIf (rule : TokenRule) : Driven fun _ => skipIf rule :=
  .plain (obeys_skipIf rule)

theorem expect (rule : TokenRule) : Driven fun _ => expect rule :=
  .plain (obeys_expect rule)

theorem expression (conditional filters : Bool) :
    Driven fun g => parseExpression g conditional filters :=
  .reads (fun _ _ _ => rfl) fun _ hg => obeys_expression hg conditional filters

theorem target (withTuple : Bool) (ends : List TokenRule) :
    Driven fun g => parseTarget g withTuple ends :=
  .reads (fun _ _ _ => rfl) fun _ hg => obeys_target hg withTuple ends

/-- **Bodies** of statements. -/
theorem statements (ends : List TokenRule) (consume : Bool) :
    Driven fun g => parseStatements g ends consume := by
  refine .bind (.skipIf _) fun _ => .bind (.expect _) fun _ => .bind (.body _) fun body => ?_
  refine .bind .current fun t => .ite (.plain (obeys_failUnclosed _ _)) (.ite ?_ (.pure body))
  exact .bind .step fun _ => .pure body

end Driven

/-! ### Conditions and loops -/

/-- **Conditions** with their further branches. -/
theorem driven_branch (line : Nat) (tag : String) (negate : Bool) :
    Driven fun g => parseBranch g line tag negate := by
  have halternatives : Driven fun g => parseAlternatives g tag := by
    refine .bind .advance fun _ => .ite ?_ (.ite (.statements _ _) (.pure _))
    exact .bind .current fun _ => .bind (.branch _ _) fun _ => .pure _
  refine .bind (.reads (fun _ _ _ => rfl) fun _ hg => obeys_tuple hg _ _ _) fun _ => ?_
  exact .bind (.statements _ _) fun _ => .bind halternatives fun _ => .pure _

theorem driven_if : Driven parseIf :=
  .bind (.expect _) fun _ => driven_branch _ _ _

theorem driven_unless : Driven parseUnless :=
  .bind (.expect _) fun _ => driven_branch _ _ _

theorem driven_for : Driven parseFor := by
  have helse : Driven parseLoopElse := .bind .advance fun _ => .ite (.pure _) (.statements _ _)
  refine .bind (.expect _) fun _ => .bind (.target _ _) fun _ => .bind (.expect _) fun _ => ?_
  refine .bind (.reads (fun _ _ _ => rfl) fun _ hg => obeys_iterable hg) fun _ => ?_
  refine .bind (.reads (fun _ _ _ => rfl) fun _ hg => obeys_loopTest hg) fun _ => ?_
  refine .bind (.skipIf _) fun _ => .bind (.statements _ _) fun _ => ?_
  exact .bind helse fun _ => .pure _

/-! ### Tags with one body -/

theorem driven_set (tag : String) : Driven fun g => parseSet g tag := by
  refine .bind .advance fun _ => .bind (.target _ _) fun _ => .bind (.skipIf _) fun _ => .ite ?_ ?_
  · exact .bind (.reads (fun _ _ _ => rfl) fun _ hg => obeys_anyTuple hg) fun _ => .pure _
  · exact .bind (.statements _ _) fun _ => .pure _

theorem driven_with : Driven parseWith :=
  .bind .advance fun _ => .bind (.reads (fun _ _ _ => rfl) fun _ hg => obeys_bindings hg) fun _ =>
    .bind (.statements _ _) fun _ => .pure _

theorem driven_autoescape : Driven parseAutoescape :=
  .bind .advance fun _ => .bind (.expression _ _) fun _ => .bind (.statements _ _) fun _ => .pure _

theorem driven_block : Driven parseBlock := by
  refine .bind .advance fun _ => .bind (.expect _) fun _ => .bind (.skipIf _) fun _ => ?_
  refine .bind (.plain obeys_hyphen) fun _ => .bind (.statements _ _) fun _ => ?_
  exact .bind (.skipIf _) fun _ => .pure _

theorem driven_macro : Driven parseMacro := by
  refine .bind .advance fun _ => .bind (.plain obeys_targetName) fun _ => ?_
  refine .bind (.reads (fun _ _ _ => rfl) fun _ hg => obeys_signature hg) fun _ => ?_
  exact .bind (.statements _ _) fun _ => .pure _

theorem driven_callBlock : Driven parseCallBlock := by
  refine .bind .advance fun _ => ?_
  refine .bind (.reads (fun _ _ _ => rfl) fun _ hg => obeys_optionalSignature hg) fun _ => ?_
  refine .bind (.expression _ _) fun _ => .ite ?_ (.plain (obeys_failAt _ nofun))
  exact .bind (.statements _ _) fun _ => .pure _

theorem driven_filterBlock : Driven parseFilterBlock := by
  refine .bind .advance fun _ => ?_
  refine .bind (.reads (fun _ _ _ => rfl) fun _ hg => obeys_filters hg none true) fun _ => ?_
  exact .bind (.statements _ _) fun _ => .pure _

/-! ### All tags -/

/-- **Tags that every environment has.** -/
def BuiltIn (tag : String) : Prop :=
  ∃ p : Grammar → Parser Stmt, ∀ g, builtin? g tag = some (p g)

/-- **The tags of every environment** are driven. -/
theorem driven_builtin {g : Grammar} {tag : String} {q : Parser Stmt}
    (h : builtin? g tag = some q) :
    ∃ p : Grammar → Parser Stmt, Driven p ∧ ∀ g, builtin? g tag = some (p g) := by
  unfold builtin? at h
  split at h
  case h_1 => exact ⟨_, driven_for, fun _ => rfl⟩
  case h_2 => exact ⟨_, driven_if, fun _ => rfl⟩
  case h_3 => exact ⟨_, driven_unless, fun _ => rfl⟩
  case h_4 => exact ⟨_, .plain (obeys_advance.bind fun _ => .pure), fun _ => rfl⟩
  case h_5 => exact ⟨_, .plain (obeys_advance.bind fun _ => .pure), fun _ => rfl⟩
  case h_6 => exact ⟨_, driven_block, fun _ => rfl⟩
  case h_7 => exact ⟨_, .reads (fun _ _ _ => rfl) fun _ => obeys_extends, fun _ => rfl⟩
  case h_8 => exact ⟨_, .reads (fun _ _ _ => rfl) fun _ => obeys_print, fun _ => rfl⟩
  case h_9 => exact ⟨_, driven_macro, fun _ => rfl⟩
  case h_10 => exact ⟨_, .reads (fun _ _ _ => rfl) fun _ hg => obeys_inclusion hg _, fun _ => rfl⟩
  case h_11 => exact ⟨_, .reads (fun _ _ _ => rfl) fun _ hg => obeys_inclusion hg _, fun _ => rfl⟩
  case h_12 => exact ⟨_, .reads (fun _ _ _ => rfl) fun _ => obeys_from, fun _ => rfl⟩
  case h_13 => exact ⟨_, .reads (fun _ _ _ => rfl) fun _ => obeys_import, fun _ => rfl⟩
  case h_14 => exact ⟨_, driven_set _, fun _ => rfl⟩
  case h_15 => exact ⟨_, driven_set _, fun _ => rfl⟩
  case h_16 => exact ⟨_, driven_set _, fun _ => rfl⟩
  case h_17 => exact ⟨_, driven_with, fun _ => rfl⟩
  case h_18 => exact ⟨_, driven_autoescape, fun _ => rfl⟩
  case h_19 => exact ⟨_, driven_callBlock, fun _ => rfl⟩
  case h_20 => exact ⟨_, driven_filterBlock, fun _ => rfl⟩
  case h_21 => nomatch h

/-- Case distinctions are driven. -/
theorem driven_case : Driven parseCase := by
  have hbranch (line : Nat) : Driven fun g => parseCaseBranch g line := by
    refine .bind (.reads (fun _ _ _ => rfl) fun _ hg => obeys_whenValues hg) fun _ => ?_
    exact .bind (.statements _ _) fun _ => .pure _
  have hbranches : Driven parseCaseBranches := by
    refine .loop (fun x => ?_) _
    refine .bind .advance fun _ => .ite ?_ (.ite ?_ (.pure _))
    · exact .bind (hbranch _) fun _ => .pure _
    · exact .bind (.statements _ _) fun _ => .pure _
  refine .bind .advance fun _ => .bind (.expression _ _) fun _ => ?_
  refine .bind (.plain (obeys_freshName Conduct.allowsFresh_forward _)) fun _ => ?_
  exact .bind (.statements _ _) fun _ => .bind hbranches fun _ => .pure _

/-- **A shout**, whatever its tags are. -/
theorem driven_shout : Driven parseShout :=
  .bind .advance fun _ => .bind (.expression _ _) fun _ => .pure _

/-- **The tags of known extensions** are driven. -/
theorem Extension.Known.driven {x : Extension} (hx : x.Known) : Driven x.parse := by
  cases hx with
  | doExpr => exact .reads (fun _ _ _ => rfl) fun _ => obeys_do
  | case => exact driven_case
  | shout _ => exact driven_shout

end LiquidTemplate
