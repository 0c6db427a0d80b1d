import LiquidTemplate.Proofs.Reading

/-!
# What success says

A parser that has succeeded has gone through all of its parts, and each of them has succeeded.

* `bind_eq_ok`, `map_eq_ok`: parts one after the other.
* `repeatFrom_eq_ok`: a repetition has come to an end, or has gone on with less to read.
* `repeatFrom_induction`, `repeatFrom_rule`: what every round keeps.
* `skipIf_eq`, `expect_eq_ok`: single tokens.
* `awaiting_eq_ok`, `inTag_eq_ok`: the brackets of the state.
-/

namespace LiquidTemplate.Parser

variable {α β : Type} {s t : ParserState} {x : α} {y : β}

/-! ### Parts -/

theorem bind_eq_ok {p : Parser α} {f : α → Parser β} :
    (p >>= f) s = .ok y t ↔ ∃ x u, p s = .ok x u ∧ f x u = .ok y t := by
  show EStateM.bind p f s = _ ↔ _
  rw [EStateM.bind]
  constructor
  · intro h
    split at h
    · next x u hx => exact ⟨x, u, hx, h⟩
    · nomatch h
  · intro hy
    obtain ⟨x, u, hx, hy⟩ := hy
    rw [hx]
    exact hy

theorem map_eq_ok {p : Parser α} {f : α → β} :
    (f <$> p) s = .ok y t ↔ ∃ x, p s = .ok x t ∧ f x = y := by
  show EStateM.map f p s = _ ↔ _
  rw [EStateM.map]
  constructor
  · intro h
    split at h
    · next x u hx =>
        obtain ⟨rfl, rfl⟩ := by simpa using h
        exact ⟨x, hx, rfl⟩
    · nomatch h
  · intro hy
    obtain ⟨x, hx, rfl⟩ := hy
    rw [hx]

theorem failAt_ne_ok (cause : SyntaxError.Cause) (line : Nat) :
    (failAt cause line : Parser α) s ≠ .ok x t :=
  nofun

theorem fail_ne_ok (cause : SyntaxError.Cause) : (fail cause : Parser α) s ≠ .ok x t :=
  nofun

/-! ### Repetitions -/

section Repetition

variable {step : α → Parser (α ⊕ β)}

/-- **A repetition** ends, or goes on after a round that has consumed tokens. -/
theorem repeatFrom_eq_ok : repeatFrom step x s = .ok y t ↔
    step x s = .ok (.inr y) t ∨ ∃ x' u, step x s = .ok (.inl x') u ∧
      u.remaining < s.remaining ∧ repeatFrom step x' u = .ok y t := by
  rw [repeatFrom, Loop.iterate]
  constructor
  · intro h
    split at h
    · cases h
    · next y' u hu =>
        obtain ⟨rfl, rfl⟩ := by simpa using h
        exact .inl hu
    · next x' u hu =>
        split at h
        · next hlt => exact .inr ⟨x', u, hu, hlt, h⟩
        · cases h
  · intro hy
    rcases hy with hu | ⟨x', u, hu, hlt, h⟩
    · rw [hu]
    · rw [hu]
      exact (if_pos hlt).trans h

/-- **What every round keeps** holds before the last one. -/
theorem repeatFrom_induction (inv : α → ParserState → Prop)
    (hround : ∀ x s x' u, inv x s → step x s = .ok (.inl x') u → u.remaining < s.remaining →
      inv x' u)
    (hx : inv x s) (h : repeatFrom step x s = .ok y t) :
    ∃ x' u, inv x' u ∧ step x' u = .ok (.inr y) t := by
  have hstuck (s : ParserState) (y : β) (t : ParserState) (h : fail .nestedTooDeep s = .ok y t) :
      ∃ x' u, inv x' u ∧ step x' u = .ok (.inr y) t := absurd h (fail_ne_ok _)
  exact Loop.iterate_eq_ok hstuck hround (fun x s _ _ hx hlast => ⟨x, s, hx, hlast⟩) hx h

/-- **A repetition** whose rounds keep `inv`, and whose last one makes `post` of it. -/
theorem repeatFrom_rule (inv : α → ParserState → Prop) (post : β → ParserState → Prop)
    (hround : ∀ x s z u, inv x s → step x s = .ok z u → Sum.elim (inv · u) (post · u) z)
    (hx : inv x s) (h : repeatFrom step x s = .ok y t) : post y t := by
  obtain ⟨x', u, hinv, hlast⟩ :=
    repeatFrom_induction inv (fun x s x' u hinv hstep _ => hround x s _ u hinv hstep) hx h
  exact hround x' u _ t hinv hlast

end Repetition

/-! ### Single tokens -/

theorem current_eq_ok {tok : Token} :
    current s = .ok tok t ↔ tok = s.stream.current ∧ t = s := by
  show EStateM.Result.ok s.stream.current s = .ok tok t ↔ _
  simp [eq_comm]

theorem step_eq_ok {u : Unit} : step s = .ok u t ↔ t = s.stepped := by
  show EStateM.Result.ok () s.stepped = .ok u t ↔ _
  simp [eq_comm]

theorem advance_eq_ok {tok : Token} :
    advance s = .ok tok t ↔ tok = s.stream.current ∧ t = s.stepped := by
  show EStateM.Result.ok s.stream.current s.stepped = .ok tok t ↔ _
  simp [eq_comm]

theorem skipIf_eq (rule : TokenRule) :
    skipIf rule s =
      if s.stream.current.fits rule then .ok true s.stepped else .ok false s := by
  show (if s.stream.current.fits rule then _ else _ : Parser Bool) s = _
  split <;> rfl

theorem skipIf_eq_true {rule : TokenRule} :
    skipIf rule s = .ok true t ↔ s.stream.current.fits rule = true ∧ t = s.stepped := by
  rw [skipIf_eq]
  by_cases hfit : s.stream.current.fits rule = true
  · rw [if_pos hfit, EStateM.Result.ok.injEq, eq_comm (a := s.stepped)]
    exact ⟨fun h => ⟨hfit, h.2⟩, fun h => ⟨rfl, h.2⟩⟩
  · rw [if_neg hfit]
    exact ⟨nofun, fun h => absurd h.1 hfit⟩

theorem skipIf_eq_false {rule : TokenRule} :
    skipIf rule s = .ok false t ↔ t = s ∧ s.stream.current.fits rule = false := by
  rw [skipIf_eq]
  by_cases hfit : s.stream.current.fits rule = true
  · rw [if_pos hfit, hfit]
    exact ⟨nofun, nofun⟩
  · rw [if_neg hfit, EStateM.Result.ok.injEq, eq_comm (a := s)]
    exact ⟨fun h => ⟨h.2, Bool.eq_false_iff.2 hfit⟩, fun h => ⟨rfl, h.1⟩⟩

theorem expect_eq_ok {rule : TokenRule} {tok : Token} :
    expect rule s = .ok tok t ↔
      s.stream.current.fits rule = true ∧ tok = s.stream.current ∧ t = s.stepped := by
  unfold expect TokenStream.expect TokenStream.nextIf?
  by_cases hfits : s.stream.current.fits rule = true
  · rw [if_pos hfits]
    constructor
    · intro h
      obtain ⟨rfl, rfl⟩ := EStateM.Result.ok.inj h
      exact ⟨hfits, rfl, rfl⟩
    · intro h
      rw [h.2.1, h.2.2]
      rfl
  · rw [if_neg hfits]
    exact ⟨nofun, fun h => absurd h.1 hfits⟩

/-! ### Brackets of the state -/

/-- The brackets of the state have nothing to do with its stream. -/
theorem awaiting_eq_ok {p : Parser α} {ends : List TokenRule} (h : awaiting ends p s = .ok x t) :
    ∃ u v, u.stream = s.stream ∧ v.stream = t.stream ∧ p u = .ok x v := by
  unfold awaiting afterwards at h
  split at h
  · next y v hv =>
      obtain ⟨rfl, rfl⟩ := EStateM.Result.ok.inj h
      exact ⟨{ s with expectedEnds := ends :: s.expectedEnds }, v, rfl, rfl, hv⟩
  · nomatch h

theorem inTag_eq_ok {p : Parser α} {tag : String} (h : inTag tag p s = .ok x t) :
    ∃ u v, u.stream = s.stream ∧ v.stream = t.stream ∧ p u = .ok x v := by
  unfold inTag afterwards at h
  split at h
  · next y v hv =>
      obtain ⟨rfl, rfl⟩ := EStateM.Result.ok.inj h
      exact ⟨{ s with openTags := tag :: s.openTags }, v, rfl, rfl, hv⟩
  · nomatch h

end LiquidTemplate.Parser
