import LiquidTemplate.Proofs.Success
import LiquidTemplate.Proofs.Texts.Grammars
import LiquidTemplate.Proofs.Written

/-!
# Where expressions begin and end

An expression begins with a primary, unless a sign or a `not` stands there, and it is that primary
if a mark stands behind. An expression that is read without conditions and filters is read the same
with them, if none follows.

* `Parser.Stuck`, `Parser.StartsAs`: a parser that does not succeed, or only where another one does.
* `starts_expression`, `expression_of_primary`: expressions and their first primary.
* `Parser.Lifts`: a parser whose success is that of another one, if it stops at a free token.
* `lifts_expression`: from expressions without conditions and filters to those with them.
-/

namespace LiquidTemplate

open LiquidTemplate.Parser LiquidTemplate.Grammar

variable {α β γ : Type} {env : Environment} {g : Grammar} {s t : ParserState} {e : Expr}

namespace Token

/-- Whether a token is a mark. -/
def IsMark (t : Token) : Prop :=
  ∃ m, t.kind = .mark m

theorem IsMark.not_symbol {t : Token} (h : t.IsMark) (x : Symbol) : t.isSymbol x = false := by
  obtain ⟨m, hm⟩ := h
  rw [isSymbol, type, hm]
  rfl

theorem IsMark.not_name {t : Token} (h : t.IsMark) (word : String) : t.isName word = false := by
  obtain ⟨m, hm⟩ := h
  rw [isName, name?, hm]
  rfl

end Token

/-! ### The first primary -/

namespace Parser

variable {p : Parser α} {q : Parser β} {r : Parser γ}

/-- **Stuck**: a parser that does not succeed from a state on. -/
def Stuck (p : Parser α) (s : ParserState) : Prop :=
  ∀ x t, p s ≠ .ok x t

theorem stuck_failAt {cause : SyntaxError.Cause} {line : Nat} :
    Stuck (failAt cause line : Parser α) s :=
  fun _ _ => failAt_ne_ok cause line

theorem stuck_expect {rule : TokenRule} (h : s.stream.current.fits rule = false) :
    Stuck (expect rule) s := by
  intro tok t ht
  rw [(expect_eq_ok.1 ht).1] at h
  nomatch h

theorem Stuck.bind {f : α → Parser β} (h : Stuck p s) : Stuck (p >>= f) s := by
  intro y t hy
  obtain ⟨x, u, hx, _⟩ := bind_eq_ok.1 hy
  exact h x u hx

theorem Stuck.see {f : Token → Parser β} (h : Stuck (f s.stream.current) s) :
    Stuck (current >>= f) s :=
  h

theorem Stuck.symbol {f : Bool → Parser β} {y : Symbol}
    (h : Stuck (f (s.stream.current.isSymbol y)) s) : Stuck (atSymbol y >>= f) s :=
  h

theorem Stuck.peek {f : Token → Parser β} (h : Stuck (f s.stream.look) s) :
    Stuck (look >>= f) s :=
  h

/-- **Beginning with a parser.** One succeeds at a state only if the other does. -/
def StartsAs (p : Parser α) (q : Parser β) (s : ParserState) : Prop :=
  ∀ x t, p s = .ok x t → ∃ y u, q s = .ok y u

theorem StartsAs.trans (hp : StartsAs p q s) (hq : StartsAs q r s) : StartsAs p r s := by
  intro x t h
  obtain ⟨y, u, hy⟩ := hp x t h
  exact hq y u hy

theorem starts_bind {f : α → Parser β} : StartsAs (p >>= f) p s := by
  intro y t h
  obtain ⟨x, u, hx, _⟩ := bind_eq_ok.1 h
  exact ⟨x, u, hx⟩

theorem starts_see {f : Token → Parser β} (h : ∀ tok, StartsAs (f tok) r s) :
    StartsAs (current >>= f) r s :=
  fun y t hy => h s.stream.current y t hy

theorem starts_leftChain {operand : Parser Expr}
    {operator? : Token → Option (Expr → Expr → Nat → Expr)} :
    StartsAs (leftChain operand operator?) operand s :=
  starts_see fun _ => starts_bind

end Parser

namespace Grammar

/-- An operand begins with a primary. -/
theorem starts_signed (filters : Bool) (hsub : s.stream.current.isSymbol .sub = false)
    (hadd : s.stream.current.isSymbol .add = false) :
    StartsAs (parseSigned g filters) (parsePrimary g) s := by
  have hsign : parseSign g s = parsePrimary g s := by
    show (if s.stream.current.isSymbol .sub then _ else if s.stream.current.isSymbol .add then _
      else parsePrimary g : Parser Expr) s = _
    rw [hsub, hadd]
    rfl
  intro e t h
  obtain ⟨x, u, hx, _⟩ := bind_eq_ok.1 h
  exact ⟨x, u, hsign ▸ hx⟩

theorem starts_sum (filters : Bool) (hsub : s.stream.current.isSymbol .sub = false)
    (hadd : s.stream.current.isSymbol .add = false) :
    StartsAs (parseSum g filters) (parsePrimary g) s := by
  have hconcat : StartsAs (parseConcat g filters) (parseProduct g filters) s := by
    have hnodes : StartsAs (parseConcat g filters) (parseConcatNodes g filters) s :=
      starts_see fun _ => starts_bind
    exact hnodes.trans starts_bind
  exact starts_leftChain.trans <| hconcat.trans <| starts_leftChain.trans <|
    starts_leftChain.trans <| starts_signed filters hsub hadd

/-- **An expression begins with a primary**, unless a sign or a `not` stands there. -/
theorem starts_expression (conditional filters : Bool)
    (hsub : s.stream.current.isSymbol .sub = false)
    (hadd : s.stream.current.isSymbol .add = false)
    (hnot : s.stream.current.isName "not" = false) :
    StartsAs (parseExpression g conditional filters) (parsePrimary g) s := by
  have hnegation : StartsAs (parseNegation g filters) (parsePrimary g) s := by
    have hcompare : parseNegation g filters s = parseCompare g filters s := by
      show (if s.stream.current.isName "not" then _ else parseCompare g filters : Parser Expr) s = _
      rw [hnot]
      rfl
    have hsum : StartsAs (parseCompare g filters) (parseSum g filters) s :=
      starts_see fun _ => starts_bind
    intro e t h
    exact hsum.trans (starts_sum filters hsub hadd) e t (hcompare ▸ h)
  have hor : StartsAs (parseOr g filters) (parsePrimary g) s :=
    starts_leftChain.trans <| starts_leftChain.trans hnegation
  cases conditional with
  | true => exact (starts_see fun _ => starts_bind.trans hor)
  | false => exact hor

theorem stuck_primary (hmark : s.stream.current.IsMark) : Stuck (parsePrimary g) s := by
  obtain ⟨m, hm⟩ := hmark
  refine Stuck.see ?_
  rw [hm]
  exact stuck_failAt

/-- **No expression begins at a mark.** -/
theorem stuck_expression (hmark : s.stream.current.IsMark) (conditional filters : Bool) :
    Stuck (parseExpression g conditional filters) s := by
  intro e t h
  obtain ⟨y, u, hy⟩ := starts_expression conditional filters (hmark.not_symbol _)
    (hmark.not_symbol _) (hmark.not_name _) e t h
  exact stuck_primary hmark y u hy

end Grammar

/-! ### An expression that is one primary -/

namespace Token.Kind

/-- **The end of an expression**: a token that does not go on with it, as conditions and filters do not
where none are read. -/
def Ends (conditional filters : Bool) (k : Token.Kind) : Prop :=
  ∀ tier, k.tier? = some tier → tier = 0 ∧ conditional = false ∨ tier = 9 ∧ filters = false

variable {conditional filters : Bool} {k l : Token.Kind} {tier : Nat}

/-- A token at which every expression stops. -/
theorem Stops.ends (h : k.Stops 0) (conditional filters : Bool) : k.Ends conditional filters :=
  fun tier ht => absurd (h tier ht) (Nat.not_lt_zero tier)

/-- The end of an expression is none of the operators. -/
theorem Ends.ne_operator (h : k.Ends conditional filters) (hl : l.tier? = some tier)
    (h0 : tier ≠ 0) (h9 : tier ≠ 9) : k ≠ l := by
  rintro rfl
  rcases h tier hl with ⟨ht, -⟩ | ⟨ht, -⟩
  · exact h0 ht
  · exact h9 ht

theorem Ends.ne_condition (h : k.Ends true filters) (hl : l.tier? = some 0) : k ≠ l := by
  rintro rfl
  rcases h 0 hl with ⟨-, hc⟩ | ⟨ht, -⟩
  · nomatch hc
  · nomatch ht

theorem Ends.ne_trailer (h : k.Ends conditional true) (hl : l.tier? = some 9) : k ≠ l := by
  rintro rfl
  rcases h 9 hl with ⟨ht, -⟩ | ⟨-, hf⟩
  · nomatch ht
  · nomatch hf

end Token.Kind

namespace Token

variable {conditional filters : Bool} {t : Token}

theorem IsMark.ends (h : t.IsMark) (conditional filters : Bool) : t.kind.Ends conditional filters := by
  obtain ⟨m, hm⟩ := h
  rw [hm]
  exact (Kind.stops rfl 0).ends conditional filters

theorem isSymbol_eq_false {y : Symbol} (h : t.kind ≠ .symbol y) : t.isSymbol y = false :=
  Bool.eq_false_iff.2 fun hy => h (isSymbol_iff.1 hy)

theorem isName_eq_false {word : String} (h : t.kind ≠ .name word) : t.isName word = false :=
  Bool.eq_false_iff.2 fun hy => h (isName_iff.1 hy)

end Token

namespace Parser

/-- **A chain of one operand**, where no operator follows. -/
theorem leftChain_of_operand {operand : Parser Expr}
    {operator? : Token → Option (Expr → Expr → Nat → Expr)} (h : operand s = .ok e t)
    (hop : operator? t.stream.current = none) : leftChain operand operator? s = .ok e t := by
  refine bind_eq_ok.2 ⟨_, s, rfl, bind_eq_ok.2 ⟨e, t, h, repeatFrom_eq_ok.2 (.inl ?_)⟩⟩
  refine bind_eq_ok.2 ⟨_, t, rfl, ?_⟩
  rw [hop]
  rfl

end Parser

namespace Grammar

section Primary

variable {conditional filters : Bool} (hend : t.stream.current.kind.Ends conditional filters)
include hend

theorem signed_of_primary (hsub : s.stream.current.isSymbol .sub = false)
    (hadd : s.stream.current.isSymbol .add = false) (h : parsePrimary g s = .ok e t) :
    parseSigned g filters s = .ok e t := by
  have hsign : parseSign g s = .ok e t := by
    refine bind_eq_ok.2 ⟨_, s, rfl, ?_⟩
    rw [hsub, hadd]
    exact h
  have hpostfix : parsePostfix g e t = .ok e t := by
    refine repeatFrom_eq_ok.2 (.inl (bind_eq_ok.2 ⟨_, t, rfl, ?_⟩))
    refine congrFun (?_ : _ = (Pure.pure (.inr e) : Parser (Expr ⊕ Expr))) t
    split <;> first
      | (next hk => exact absurd hk (hend.ne_operator rfl (by decide) (by decide)))
      | rfl
  refine bind_eq_ok.2 ⟨e, t, hsign, bind_eq_ok.2 ⟨e, t, hpostfix, ?_⟩⟩
  cases filters with
  | false => rfl
  | true =>
    refine repeatFrom_eq_ok.2 (.inl (bind_eq_ok.2 ⟨_, t, rfl, ?_⟩))
    rw [Token.isSymbol_eq_false (hend.ne_trailer rfl), Token.isName_eq_false (hend.ne_trailer rfl),
      Token.isSymbol_eq_false (hend.ne_operator rfl (by decide) (by decide))]
    rfl

theorem sum_of_primary (hsub : s.stream.current.isSymbol .sub = false)
    (hadd : s.stream.current.isSymbol .add = false) (h : parsePrimary g s = .ok e t) :
    parseSum g filters s = .ok e t := by
  have hne {l : Token.Kind} {tier : Nat} (hl : l.tier? = some tier) (h0 : tier ≠ 0) (h9 : tier ≠ 9) :
      t.stream.current.kind ≠ l := hend.ne_operator hl h0 h9
  have hproduct : parseProduct g filters s = .ok e t := by
    refine leftChain_of_operand (leftChain_of_operand (signed_of_primary hend hsub hadd h) ?_) ?_
    · rw [BinaryOp.power?, Token.isSymbol_eq_false (hne rfl (by decide) (by decide))]
      rfl
    · unfold BinaryOp.multiplicative?
      split <;> first
        | (next hk => exact absurd hk (hne rfl (by decide) (by decide)))
        | rfl
  have hnodes : parseConcatNodes g filters s = .ok [e] t := by
    refine bind_eq_ok.2 ⟨e, t, hproduct, repeatFrom_eq_ok.2 (.inl (bind_eq_ok.2 ⟨false, t, ?_, rfl⟩))⟩
    exact skipIf_eq_false.2 ⟨rfl, Token.isSymbol_eq_false (hne rfl (by decide) (by decide))⟩
  refine leftChain_of_operand (bind_eq_ok.2 ⟨_, s, rfl, bind_eq_ok.2 ⟨[e], t, hnodes, rfl⟩⟩) ?_
  unfold BinaryOp.additive?
  split <;> first
    | (next hk => exact absurd hk (hne rfl (by decide) (by decide)))
    | rfl

/-- **A primary before the end of an expression** is the whole expression. -/
theorem expression_of_primary_before (hsub : s.stream.current.isSymbol .sub = false)
    (hadd : s.stream.current.isSymbol .add = false)
    (hnot : s.stream.current.isName "not" = false) (h : parsePrimary g s = .ok e t) :
    parseExpression g conditional filters s = .ok e t := by
  have hne {l : Token.Kind} {tier : Nat} (hl : l.tier? = some tier) (h0 : tier ≠ 0) (h9 : tier ≠ 9) :
      t.stream.current.kind ≠ l := hend.ne_operator hl h0 h9
  have hname (word : String) {tier : Nat} (hword : Token.Kind.tier? (.name word) = some tier)
      (h0 : tier ≠ 0) (h9 : tier ≠ 9) : t.stream.current.isName word = false :=
    Token.isName_eq_false (hne hword h0 h9)
  have hoperands (line : Nat) : parseOperands g filters line t = .ok ([], line) t := by
    refine repeatFrom_eq_ok.2 (.inl (bind_eq_ok.2 ⟨none, t, ?_, rfl⟩))
    refine bind_eq_ok.2 ⟨_, t, rfl, ?_⟩
    have hop : Comparison.ofToken? t.stream.current = none := by
      unfold Comparison.ofToken?
      split <;> first
        | (next hk => exact absurd hk (hne rfl (by decide) (by decide)))
        | rfl
    rw [hop, hname "in" rfl (by decide) (by decide),
      hname "not" rfl (by decide) (by decide)]
    rfl
  have hcompare : parseCompare g filters s = .ok e t := by
    refine bind_eq_ok.2 ⟨_, s, rfl, bind_eq_ok.2 ⟨e, t, sum_of_primary hend hsub hadd h, ?_⟩⟩
    exact bind_eq_ok.2 ⟨_, t, hoperands _, rfl⟩
  have hnegation : parseNegation g filters s = .ok e t := by
    refine bind_eq_ok.2 ⟨_, s, rfl, ?_⟩
    rw [hnot]
    exact hcompare
  have hor : parseOr g filters s = .ok e t := by
    refine leftChain_of_operand (leftChain_of_operand hnegation ?_) ?_
    · rw [hname "and" rfl (by decide) (by decide)]
      rfl
    · rw [hname "or" rfl (by decide) (by decide)]
      rfl
  cases conditional with
  | false => exact hor
  | true =>
    have hif : t.stream.current.isName "if" = false := Token.isName_eq_false (hend.ne_condition rfl)
    refine bind_eq_ok.2 ⟨_, s, rfl, bind_eq_ok.2 ⟨e, t, hor, repeatFrom_eq_ok.2 (.inl ?_)⟩⟩
    exact bind_eq_ok.2 ⟨false, t, skipIf_eq_false.2 ⟨rfl, hif⟩, rfl⟩

end Primary

/-- **A primary before a mark** is the whole expression. -/
theorem expression_of_primary (conditional filters : Bool)
    (hsub : s.stream.current.isSymbol .sub = false)
    (hadd : s.stream.current.isSymbol .add = false)
    (hnot : s.stream.current.isName "not" = false) (h : parsePrimary g s = .ok e t)
    (hmark : t.stream.current.IsMark) : parseExpression g conditional filters s = .ok e t :=
  expression_of_primary_before (hmark.ends conditional filters) hsub hadd hnot h

end Grammar

/-! ### Conditions and filters that are not there -/

/-- **Free tokens**: those at which neither a condition nor a filter, test or call can begin. -/
def Token.IsFree (t : Token) : Prop :=
  t.isSymbol .pipe = false ∧ t.isSymbol .lParen = false ∧ t.isName "is" = false ∧
    t.isName "if" = false

theorem Token.IsFree.of_symbol {t : Token} {x : Symbol} (h : t.kind = .symbol x)
    (hpipe : x ≠ .pipe) (hparen : x ≠ .lParen) : t.IsFree := by
  refine ⟨?_, ?_, ?_, ?_⟩
  · simpa [Token.isSymbol, Token.type, h, Token.Kind.type] using hpipe
  · simpa [Token.isSymbol, Token.type, h, Token.Kind.type] using hparen
  · simp [Token.isName, Token.name?, h]
  · simp [Token.isName, Token.name?, h]

theorem Token.IsFree.of_name {t : Token} {word : String} (h : t.kind = .name word)
    (his : word ≠ "is") (hif : word ≠ "if") : t.IsFree := by
  refine ⟨?_, ?_, ?_, ?_⟩
  · simp [Token.isSymbol, Token.type, h, Token.Kind.type]
  · simp [Token.isSymbol, Token.type, h, Token.Kind.type]
  · simpa [Token.isName, Token.name?, h] using his
  · simpa [Token.isName, Token.name?, h] using hif

namespace Parser

variable {p q : Parser α}

/-- **Lifting.** Where the first parser succeeds and stops at a free token, the second one does
the same. -/
def Lifts (p q : Parser α) : Prop :=
  ∀ s x t, p s = .ok x t → t.stream.current.IsFree → q s = .ok x t

/-- **Repetitions** whose rounds are lifted, and begin at free tokens if they stop at such. -/
theorem repeatFrom_lift {step step' : α → Parser (α ⊕ β)}
    (hround : ∀ x, Lifts (step x) (step' x))
    (hfree : ∀ x s z u, step x s = .ok z u → u.stream.current.IsFree → s.stream.current.IsFree)
    {x : α} {y : β} (h : repeatFrom step x s = .ok y t) (ht : t.stream.current.IsFree) :
    s.stream.current.IsFree ∧ repeatFrom step' x s = .ok y t := by
  induction hn : s.remaining using Nat.strongRecOn generalizing x s with
  | _ n ih =>
    rcases repeatFrom_eq_ok.1 h with hlast | ⟨x', u, hu, hlt, hrest⟩
    · exact ⟨hfree x s _ t hlast ht, repeatFrom_eq_ok.2 (.inl (hround x s _ t hlast ht))⟩
    · obtain ⟨hufree, hrest'⟩ := ih u.remaining (hn ▸ hlt) hrest rfl
      refine ⟨hfree x s _ u hu hufree, repeatFrom_eq_ok.2 (.inr ⟨x', u, ?_, hlt, hrest'⟩)⟩
      exact hround x s _ u hu hufree

/-- **A first part and a repetition** behind it. -/
theorem Lifts.loop {γ : Type} {step step' : α → Parser (α ⊕ β)} {p q : Parser γ} (hp : Lifts p q)
    (first : γ → α) (hround : ∀ x, Lifts (step x) (step' x))
    (hfree : ∀ x s z u, step x s = .ok z u → u.stream.current.IsFree → s.stream.current.IsFree) :
    Lifts (p >>= fun x => repeatFrom step (first x)) (q >>= fun x => repeatFrom step' (first x)) := by
  intro s y t h ht
  obtain ⟨x, u, hx, hy⟩ := bind_eq_ok.1 h
  obtain ⟨hu, hy'⟩ := repeatFrom_lift hround hfree hy ht
  exact bind_eq_ok.2 ⟨x, u, hp s x u hx hu, hy'⟩

/-- **Chains** whose operators are free tokens. -/
theorem lifts_leftChain {p q : Parser Expr}
    {operator? : Token → Option (Expr → Expr → Nat → Expr)} (h : Lifts p q)
    (hop : ∀ tok build, operator? tok = some build → tok.IsFree) :
    Lifts (leftChain p operator?) (leftChain q operator?) := by
  intro s e t he ht
  refine Lifts.loop h (fun first => (first, s.stream.current.line)) ?_ ?_ s e t he ht
  · intro x s z u hz hu
    obtain ⟨tok, v, hv, hz⟩ := bind_eq_ok.1 hz
    obtain ⟨rfl, rfl⟩ := current_eq_ok.1 hv
    refine bind_eq_ok.2 ⟨_, _, rfl, ?_⟩
    cases hbuild : operator? v.stream.current with
    | none =>
      rw [hbuild] at hz
      exact hz
    | some build =>
      rw [hbuild] at hz
      obtain ⟨_, w, hw, hz⟩ := bind_eq_ok.1 hz
      obtain ⟨right, w', hright, hz⟩ := bind_eq_ok.1 hz
      obtain ⟨-, rfl⟩ := EStateM.Result.ok.inj hz
      exact bind_eq_ok.2 ⟨_, w, hw, bind_eq_ok.2 ⟨right, _, h w right _ hright hu, hz⟩⟩
  · intro x s z u hz hu
    obtain ⟨tok, v, hv, hz⟩ := bind_eq_ok.1 hz
    obtain ⟨rfl, rfl⟩ := current_eq_ok.1 hv
    cases hbuild : operator? v.stream.current with
    | none =>
      rw [hbuild] at hz
      obtain ⟨-, rfl⟩ := EStateM.Result.ok.inj hz
      exact hu
    | some build => exact hop _ build hbuild

end Parser

namespace Grammar

theorem lifts_signed (filters : Bool) : Lifts (parseSigned g false) (parseSigned g filters) := by
  intro s e t h ht
  obtain ⟨x, u, hx, h⟩ := bind_eq_ok.1 h
  obtain ⟨y, v, hy, h⟩ := bind_eq_ok.1 h
  obtain ⟨rfl, rfl⟩ := EStateM.Result.ok.inj h
  refine bind_eq_ok.2 ⟨x, u, hx, bind_eq_ok.2 ⟨_, _, hy, ?_⟩⟩
  cases filters with
  | false => rfl
  | true =>
    refine repeatFrom_eq_ok.2 (.inl (bind_eq_ok.2 ⟨_, _, rfl, ?_⟩))
    rw [ht.1, ht.2.1, ht.2.2.1]
    rfl

theorem lifts_product (filters : Bool) : Lifts (parseProduct g false) (parseProduct g filters) := by
  refine lifts_leftChain (lifts_leftChain (lifts_signed filters) ?_) ?_
  · intro tok build h
    obtain ⟨op, hop, -⟩ := Option.map_eq_some_iff.1 h
    unfold BinaryOp.power? at hop
    split at hop
    · next hpow => exact .of_symbol (Token.isSymbol_iff.1 hpow) nofun nofun
    · nomatch hop
  · intro tok build h
    obtain ⟨op, hop, -⟩ := Option.map_eq_some_iff.1 h
    unfold BinaryOp.multiplicative? at hop
    split at hop <;> first
      | (next hk => exact .of_symbol hk nofun nofun)
      | nomatch hop

theorem lifts_concat (filters : Bool) : Lifts (parseConcat g false) (parseConcat g filters) := by
  have hnodes : Lifts (parseConcatNodes g false) (parseConcatNodes g filters) := by
    refine Lifts.loop (lifts_product filters) (fun first => [first]) ?_ ?_
    · intro nodes s z u hz hu
      obtain ⟨found, v, hv, hz⟩ := bind_eq_ok.1 hz
      refine bind_eq_ok.2 ⟨found, v, hv, ?_⟩
      cases found with
      | false =>
        rw [if_neg Bool.false_ne_true] at hz ⊢
        exact hz
      | true =>
        obtain ⟨e, w, he, hz⟩ := bind_eq_ok.1 hz
        obtain rfl := (EStateM.Result.ok.inj hz).2
        exact bind_eq_ok.2 ⟨e, _, lifts_product filters v e _ he hu, hz⟩
    · intro nodes s z u hz hu
      obtain ⟨found, v, hv, hz⟩ := bind_eq_ok.1 hz
      cases found with
      | false =>
        obtain rfl := (EStateM.Result.ok.inj hz).2
        exact (skipIf_eq_false.1 hv).1 ▸ hu
      | true =>
        obtain ⟨hfits, -⟩ := skipIf_eq_true.1 hv
        exact .of_symbol (x := .tilde) (Token.isSymbol_iff.1 hfits) nofun nofun
  intro s e t h ht
  obtain ⟨tok, v, hv, h⟩ := bind_eq_ok.1 h
  obtain ⟨nodes, u, hu, h⟩ := bind_eq_ok.1 h
  have hend : u = t := by
    split at h
    · exact (EStateM.Result.ok.inj h).2
    · exact (EStateM.Result.ok.inj h).2
  subst hend
  exact bind_eq_ok.2 ⟨tok, v, hv, bind_eq_ok.2 ⟨nodes, u, hnodes v nodes u hu ht, h⟩⟩

theorem lifts_sum (filters : Bool) : Lifts (parseSum g false) (parseSum g filters) := by
  refine lifts_leftChain (lifts_concat filters) ?_
  intro tok build h
  obtain ⟨op, hop, -⟩ := Option.map_eq_some_iff.1 h
  unfold BinaryOp.additive? at hop
  split at hop <;> first
    | (next hk => exact .of_symbol hk nofun nofun)
    | nomatch hop

/-- A comparison begins at a free token, if there is one. -/
theorem isFree_of_comparison {op : Option Comparison} (h : parseComparison? s = .ok op t) :
    op = none ∧ t = s ∨ s.stream.current.IsFree := by
  obtain ⟨tok, v, hv, h⟩ := bind_eq_ok.1 h
  obtain ⟨rfl, rfl⟩ := current_eq_ok.1 hv
  cases hop : Comparison.ofToken? v.stream.current with
  | some c =>
    refine .inr ?_
    unfold Comparison.ofToken? at hop
    split at hop <;> first
      | (next hk => exact .of_symbol hk nofun nofun)
      | nomatch hop
  | none =>
    rw [hop] at h
    dsimp only at h
    split at h
    · next hin => exact .inr (.of_name (Token.isName_iff.1 hin) (by decide) (by decide))
    · obtain ⟨after, w, hw, h⟩ := bind_eq_ok.1 h
      obtain rfl := (EStateM.Result.ok.inj hw).2
      split at h
      · next hnot =>
        have hname := (Bool.and_eq_true_iff.1 hnot).1
        exact .inr (.of_name (Token.isName_iff.1 hname) (by decide) (by decide))
      · obtain ⟨rfl, rfl⟩ := EStateM.Result.ok.inj h
        exact .inl ⟨rfl, rfl⟩

theorem lifts_nextOperand (filters : Bool) (x : List (Operand Expr) × Nat) :
    Lifts (parseNextOperand g false x) (parseNextOperand g filters x) := by
  intro s z u hz hu
  obtain ⟨op, v, hv, hz⟩ := bind_eq_ok.1 hz
  refine bind_eq_ok.2 ⟨op, v, hv, ?_⟩
  cases op with
  | none => exact hz
  | some op =>
    obtain ⟨e, w, he, hz⟩ := bind_eq_ok.1 hz
    obtain rfl := (EStateM.Result.ok.inj hz).2
    exact bind_eq_ok.2 ⟨e, _, lifts_sum filters v e _ he hu, hz⟩

theorem lifts_compare (filters : Bool) : Lifts (parseCompare g false) (parseCompare g filters) := by
  intro s e t h ht
  obtain ⟨tok, v, hv, h⟩ := bind_eq_ok.1 h
  obtain ⟨first, u, hu, h⟩ := bind_eq_ok.1 h
  obtain ⟨⟨operands, line⟩, w, hw, h⟩ := bind_eq_ok.1 h
  obtain rfl := (EStateM.Result.ok.inj h).2
  have hloop := repeatFrom_lift (lifts_nextOperand filters) (fun x s z u hz hu => by
    obtain ⟨op, v, hv, hlast⟩ := bind_eq_ok.1 hz
    rcases isFree_of_comparison hv with ⟨rfl, rfl⟩ | hs
    · obtain rfl := (EStateM.Result.ok.inj hlast).2
      exact hu
    · exact hs) hw ht
  refine bind_eq_ok.2 ⟨tok, v, hv, bind_eq_ok.2 ⟨first, u, ?_, bind_eq_ok.2 ⟨_, _, hloop.2, h⟩⟩⟩
  exact lifts_sum filters v first u hu hloop.1

section Negation

variable (hg : ∀ filters, Lifts (g.negation false) (g.negation filters))
include hg

theorem lifts_negation (filters : Bool) :
    Lifts (parseNegation g false) (parseNegation g filters) := by
  intro s e t h ht
  obtain ⟨tok, v, hv, h⟩ := bind_eq_ok.1 h
  refine bind_eq_ok.2 ⟨tok, v, hv, ?_⟩
  split at h
  · next hnot =>
    rw [if_pos hnot]
    obtain ⟨_, u, hu, h⟩ := bind_eq_ok.1 h
    obtain ⟨x, w, hx, h⟩ := bind_eq_ok.1 h
    obtain rfl := (EStateM.Result.ok.inj h).2
    exact bind_eq_ok.2 ⟨_, u, hu, bind_eq_ok.2 ⟨x, _, hg filters u x _ hx ht, h⟩⟩
  · next hnot =>
    rw [if_neg hnot]
    exact lifts_compare filters v e t h ht

theorem lifts_or (filters : Bool) : Lifts (parseOr g false) (parseOr g filters) := by
  have hword {word : String} (his : word ≠ "is") (hif : word ≠ "if")
      {make : Expr → Expr → Nat → Expr} (tok : Token) (build : Expr → Expr → Nat → Expr)
      (h : (if tok.isName word then some make else none) = some build) : tok.IsFree := by
    split at h
    · next hname => exact .of_name (Token.isName_iff.1 hname) his hif
    · nomatch h
  exact lifts_leftChain (lifts_leftChain (lifts_negation hg filters) (hword (by decide) (by decide)))
    (hword (by decide) (by decide))

/-- **Expressions without conditions and filters** are the same with them, before a free token. -/
theorem lifts_expression (conditional filters : Bool) :
    Lifts (parseExpression g false false) (parseExpression g conditional filters) := by
  intro s e t h ht
  have hor : parseOr g filters s = .ok e t := lifts_or hg filters s e t h ht
  cases conditional with
  | false => exact hor
  | true =>
    refine bind_eq_ok.2 ⟨_, s, rfl, bind_eq_ok.2 ⟨e, t, hor, repeatFrom_eq_ok.2 (.inl ?_)⟩⟩
    exact bind_eq_ok.2 ⟨false, t, skipIf_eq_false.2 ⟨rfl, ht.2.2.2⟩, rfl⟩

end Negation

/-- The same of the bounded grammars. -/
theorem lifts_below_negation (env : Environment) (n : Nat) (filters : Bool) :
    Lifts ((below env n).negation false) ((below env n).negation filters) := by
  induction n using Nat.strongRecOn generalizing filters with
  | _ n ih =>
    intro s e t h ht
    rw [below_negation] at h ⊢
    obtain ⟨hlt, h⟩ := guarded_eq_ok (p := fun j => parseNegation (below env j) false) h
    rw [guarded_of_lt (p := fun j => parseNegation (below env j) filters) hlt]
    exact lifts_negation (ih s.weight hlt) filters s e t h ht

end Grammar

end LiquidTemplate
