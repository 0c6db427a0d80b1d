import LiquidTemplate.Proofs.Nesting.Heads
import LiquidTemplate.Tree.Stmt

/-!
# Parsers that spare the assignment sign

What a parser that gives an assignable expression has consumed. An expression that is made of
others is not assignable, so that a level of the grammar which gives an assignable one has handed
its operand on as it is.

* `Parser.Builds`: a parser whose expressions are not assignable.
* `Parser.HandsOn`: a parser that gives just the expression it has, if that is assignable.
* `Parser.Spares`: a parser whose assignable expressions leave the assignment sign ahead.
* `Parser.Stays`: a parser that consumes nothing.
* `HandsOn.loop`, `repeatFrom_same`: repetitions.
-/

namespace LiquidTemplate

variable {α β : Type} {s t : ParserState} {e : Expr}

namespace Parser

/-! ### Parsers that build -/

/-- **Building**: what the parser gives is not assignable. -/
def Builds (p : Parser β) (value : β → Expr) : Prop :=
  ∀ s x t, p s = .ok x t → (value x).isAssignable = false

theorem Builds.pure {value : β → Expr} {x : β} (h : (value x).isAssignable = false) :
    Builds (Pure.pure x) value := by
  intro s y t hy
  obtain ⟨rfl, rfl⟩ := EStateM.Result.ok.inj hy
  exact h

theorem Builds.bind {value : β → Expr} {p : Parser α} {f : α → Parser β}
    (h : ∀ x, Builds (f x) value) : Builds (p >>= f) value := by
  intro s y t hy
  obtain ⟨x, u, _, hy⟩ := bind_eq_ok.1 hy
  exact h x u y t hy

/-- What is made of a value that was built. -/
theorem Builds.finish {value : α → Expr} {value' : β → Expr} {p : Parser α} {f : α → β}
    (hp : Builds p value) (hf : ∀ x, value' (f x) = value x) :
    Builds (do let x ← p; return f x) value' := by
  intro s y t h
  obtain ⟨x, u, hx, hy⟩ := bind_eq_ok.1 h
  obtain ⟨rfl, rfl⟩ := EStateM.Result.ok.inj hy
  rw [hf]
  exact hp s x u hx

theorem Builds.failAt {value : β → Expr} {cause : SyntaxError.Cause} {line : Nat} :
    Builds (Parser.failAt cause line) value :=
  fun _ _ _ h => absurd h (failAt_ne_ok cause line)

/-! ### Parsers that hand on -/

/-- **Handing on** the expression `e`: what the parser gives is `e`, and nothing was consumed, unless
it is not assignable. -/
def HandsOn (p : Parser β) (value : β → Expr) (e : Expr) : Prop :=
  ∀ s x t, p s = .ok x t → (value x).isAssignable = true → value x = e ∧ t = s

theorem Builds.handsOn {p : Parser β} {value : β → Expr} (h : Builds p value) (e : Expr) :
    HandsOn p value e := by
  intro s x t hx hassign
  rw [h s x t hx] at hassign
  nomatch hassign

theorem HandsOn.pure {value : β → Expr} (x : β) : HandsOn (Pure.pure x) value (value x) := by
  intro s y t hy _
  obtain ⟨rfl, rfl⟩ := EStateM.Result.ok.inj hy
  exact ⟨rfl, rfl⟩

theorem HandsOn.fail {value : β → Expr} {cause : SyntaxError.Cause} :
    HandsOn (Parser.fail cause) value e :=
  fun _ _ _ h => absurd h (fail_ne_ok cause)

theorem HandsOn.ite {value : β → Expr} {p q : Parser β} {c : Prop} [Decidable c]
    (hp : HandsOn p value e) (hq : HandsOn q value e) :
    HandsOn (if c then p else q) value e := by
  split
  · exact hp
  · exact hq

/-- What is done with the current token. -/
theorem HandsOn.see {value : β → Expr} {f : Token → Parser β}
    (h : ∀ tok, HandsOn (f tok) value e) : HandsOn (current >>= f) value e := by
  intro s
  exact h s.stream.current s

/-- What is done behind a token that fits, or before one that does not. -/
theorem HandsOn.skips {value : β → Expr} {f : Bool → Parser β} {rule : TokenRule}
    (hyes : Builds (f true) value) (hno : HandsOn (f false) value e) :
    HandsOn (skipIf rule >>= f) value e := by
  intro s x t h hassign
  obtain ⟨found, u, hfound, hx⟩ := bind_eq_ok.1 h
  cases found with
  | true =>
      rw [hyes u x t hx] at hassign
      nomatch hassign
  | false =>
      obtain ⟨rfl, _⟩ := skipIf_eq_false.1 hfound
      exact hno u x t hx hassign

theorem HandsOn.bind {p : Parser Expr} {f : Expr → Parser Expr} (hp : HandsOn p id e)
    (hf : ∀ x, HandsOn (f x) id x) : HandsOn (p >>= f) id e := by
  intro s y t h hassign
  obtain ⟨x, u, hx, h⟩ := bind_eq_ok.1 h
  obtain ⟨hyx, rfl⟩ := hf x u y t h hassign
  rw [hyx] at hassign ⊢
  exact hp s x t hx hassign

/-- What is made of a value that was handed on. -/
theorem HandsOn.finish {value : α → Expr} {value' : β → Expr} {p : Parser α} {f : α → β}
    (hp : HandsOn p value e) (hf : ∀ x, value' (f x) = value x) :
    HandsOn (do let x ← p; return f x) value' e := by
  intro s y t h hassign
  obtain ⟨x, u, hx, h⟩ := bind_eq_ok.1 h
  obtain ⟨rfl, rfl⟩ := EStateM.Result.ok.inj h
  rw [hf] at hassign ⊢
  exact hp s x u hx hassign

/-- **A repetition** hands its first value on if each of its rounds does. -/
theorem HandsOn.loop {step : α → Parser (α ⊕ Expr)} (value : α → Expr)
    (hround : ∀ x, HandsOn (step x) (Sum.elim value id) (value x)) (x : α) :
    HandsOn (repeatFrom step x) id (value x) := by
  intro s e t h hassign
  have hkept (y : α) (u : ParserState) (y' v)
      (hy : (value y).isAssignable = true → value y = value x ∧ u = s)
      (hstep : step y u = .ok (.inl y') v) (_ : v.remaining < u.remaining)
      (hassign : (value y').isAssignable = true) : value y' = value x ∧ v = s := by
    obtain ⟨hvalue, rfl⟩ := hround y u _ v hstep hassign
    have hvalue : value y' = value y := hvalue
    rw [hvalue] at hassign ⊢
    exact hy hassign
  obtain ⟨y, u, hy, hlast⟩ := repeatFrom_induction
    (fun y u => (value y).isAssignable = true → value y = value x ∧ u = s) hkept
    (fun _ => ⟨rfl, rfl⟩) h
  obtain ⟨hvalue, rfl⟩ := hround y u _ t hlast hassign
  have hvalue : e = value y := hvalue
  rw [id, hvalue] at hassign ⊢
  exact hy hassign

/-- A last round that hands its value on. -/
theorem HandsOn.last {value : α → Expr} (e : Expr) :
    HandsOn (return .inr e : Parser (α ⊕ Expr)) (Sum.elim value id) e := by
  intro s x t h _
  obtain ⟨rfl, rfl⟩ := EStateM.Result.ok.inj h
  exact ⟨rfl, rfl⟩

/-- A round that builds the value of the next one. -/
theorem Builds.round {p : Parser Expr} (hp : Builds p id) (e : Expr) :
    HandsOn (do let x ← p; return .inl x : Parser (Expr ⊕ Expr)) (Sum.elim id id) e := by
  have hround : Builds (do let x ← p; return .inl x : Parser (Expr ⊕ Expr)) (Sum.elim id id) :=
    hp.finish fun _ => rfl
  exact hround.handsOn e

/-! ### Parsers that spare the assignment sign -/

/-- **Sparing**: if the expression is assignable, an assignment sign stands ahead of it just if one
does behind it. -/
def Spares (p : Parser Expr) : Prop :=
  ∀ s e t, p s = .ok e t → e.isAssignable = true →
    assignsAhead s.stream.tokens = assignsAhead t.stream.tokens

theorem Builds.spares {p : Parser Expr} (h : Builds p id) : p.Spares := by
  intro s x t hx hassign
  rw [show x.isAssignable = false from h s x t hx] at hassign
  nomatch hassign

theorem Spares.see {f : Token → Parser Expr} (h : ∀ tok, (f tok).Spares) :
    Spares (current >>= f) := by
  intro s
  exact h s.stream.current s

theorem Spares.ite {p q : Parser Expr} {c : Prop} [Decidable c] (hp : p.Spares) (hq : q.Spares) :
    Spares (if c then p else q) := by
  split
  · exact hp
  · exact hq

theorem Spares.bind {p : Parser Expr} {f : Expr → Parser Expr} (hp : p.Spares)
    (hf : ∀ x, HandsOn (f x) id x) : Spares (p >>= f) := by
  intro s y t h hassign
  obtain ⟨x, u, hx, h⟩ := bind_eq_ok.1 h
  obtain ⟨hyx, rfl⟩ := hf x u y t h hassign
  have hyx : y = x := hyx
  rw [hyx] at hassign
  exact hp s x t hx hassign

/-! ### Parsers that stay -/

/-- **Staying**: the parser consumes nothing. -/
def Stays (p : Parser β) : Prop :=
  ∀ s x t, p s = .ok x t → t = s

theorem Stays.pure {x : β} : Stays (Pure.pure x) := by
  intro s y t h
  exact (EStateM.Result.ok.inj h).2.symm

theorem Stays.failAt {cause : SyntaxError.Cause} {line : Nat} :
    Stays (Parser.failAt cause line : Parser β) :=
  fun _ _ _ h => absurd h (failAt_ne_ok cause line)

theorem Stays.throw {error : SyntaxError} : Stays (throw error : Parser β) := by
  intro s x t h
  have hnot : EStateM.Result.error error s = (.ok x t : EStateM.Result SyntaxError _ β) := h
  nomatch hnot

theorem Stays.state {f : ParserState → Parser β} (h : ∀ s, Stays (f s)) : Stays (get >>= f) := by
  intro s
  exact h s s

theorem Stays.bind {p : Parser α} {f : α → Parser β} (hp : p.Stays) (hf : ∀ x, (f x).Stays) :
    Stays (p >>= f) := by
  intro s y t h
  obtain ⟨x, u, hx, hy⟩ := bind_eq_ok.1 h
  rw [hf x u y t hy, hp s x u hx]

/-! ### Repetitions that grow -/

/-- **A repetition that grows.** If it has not grown, there was no round but the last. -/
theorem repeatFrom_same {step : α → Parser (α ⊕ α)} (size : α → Nat) {x y : α}
    (hnext : ∀ x s x' t, step x s = .ok (.inl x') t → size x < size x')
    (hlast : ∀ x s x' t, step x s = .ok (.inr x') t → x' = x ∧ t = s)
    (h : repeatFrom step x s = .ok y t) (hsize : size y ≤ size x) : y = x ∧ t = s := by
  have hsame : y = x ∧ t = s ∨ size x < size y := by
    refine repeatFrom_rule (fun z u => z = x ∧ u = s ∨ size x < size z)
      (fun z u => z = x ∧ u = s ∨ size x < size z) ?_ (.inl ⟨rfl, rfl⟩) h
    intro z u z' v hz hstep
    cases z' with
    | inl z' =>
        have hgrown := hnext z u z' v hstep
        rcases hz with ⟨rfl, -⟩ | hlt
        · exact .inr hgrown
        · exact .inr (Nat.lt_trans hlt hgrown)
    | inr z' =>
        obtain ⟨rfl, rfl⟩ := hlast z u z' v hstep
        exact hz
  rcases hsame with hsame | hlt
  · exact hsame
  · omega

end Parser

end LiquidTemplate
