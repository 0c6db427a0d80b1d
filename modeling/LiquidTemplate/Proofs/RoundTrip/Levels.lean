import LiquidTemplate.Proofs.Lines
import LiquidTemplate.Proofs.Reading
import LiquidTemplate.Proofs.Written

/-!
# The levels of expressions, and sequences of them

Each level of the grammar reads an operand of the next level and goes on as long as its operators
follow. An expression is thus read at its own level and, where nothing looser follows, at all
levels below. The loops that read items with commas between them all go the same way: an item behind a
separator, unless it is the first, is one round.

* `parseLevel`: the parser of a level.
* `operatorAt`, `chainLoop`: the levels whose operators group to the left.
* `leads_first`, `leads_operator`: how the loop of such a level goes through a chain.
* `reads_looser`: what a level reads, the one below it reads too.
* `Leads.items`: a loop goes through all of its items.
* `reads_items`: lists and dictionaries.
-/

namespace LiquidTemplate

open LiquidTemplate.Parser LiquidTemplate.Grammar

/-- **The parser of a level.** -/
def parseLevel (g : Grammar) : Nat → Parser Expr
  | 0 => parseConditional g true
  | 1 => parseOr g true
  | 2 => parseAnd g true
  | 3 => parseNegation g true
  | 4 => parseCompare g true
  | 5 => parseSum g true
  | 6 => parseConcat g true
  | 7 => parseProduct g true
  | 8 => parsePower g true
  | 9 => parseSigned g true
  | _ => parseSigned g false

/-- The operator of a level that a token is, where operators group to the left. -/
def operatorAt (level : Nat) (t : Token) : Option (Expr → Expr → Nat → Expr) :=
  match level with
  | 1 => if t.isName "or" then some Expr.or else none
  | 2 => if t.isName "and" then some Expr.and else none
  | 5 => (BinaryOp.additive? t).map Expr.binary
  | 7 => (BinaryOp.multiplicative? t).map Expr.binary
  | 8 => (BinaryOp.power? t).map Expr.binary
  | _ => none

/-- The levels whose operators group to the left. -/
def chainLevels : List Nat := [1, 2, 5, 7, 8]

/-- **The loop of a chain** behind its first operand. -/
def chainLoop (g : Grammar) (level : Nat) : Expr × Nat → Parser Expr :=
  repeatFrom (parseNextOperator (parseLevel g (level + 1)) (operatorAt level))

theorem parseLevel_chain (g : Grammar) {level : Nat} (hl : level ∈ chainLevels) :
    parseLevel g level =
      (current >>= fun t => parseLevel g (level + 1) >>= fun first =>
        chainLoop g level (first, t.line)) := by
  simp only [chainLevels, List.mem_cons, List.not_mem_nil, or_false] at hl
  rcases hl with rfl | rfl | rfl | rfl | rfl <;> rfl

variable {n : Nat} {g : Grammar} {a b rest ks : List Token.Kind} {k l : Token.Kind}

/-! ### Tokens that end a level -/

/-- A token that stops a level is no operator of it. -/
theorem operatorAt_eq_none {level : Nat} (h : k.Stops level) (line : Nat) (span : Span) :
    operatorAt level ⟨k, line, span⟩ = none := by
  unfold operatorAt
  split
  · exact if_neg fun hn => h.ne rfl (Nat.le_refl 1) (Token.isName_iff.1 hn)
  · exact if_neg fun hn => h.ne rfl (Nat.le_refl 2) (Token.isName_iff.1 hn)
  · unfold BinaryOp.additive?
    split
    · next hk => exact absurd hk (h.ne rfl (Nat.le_refl 5))
    · next hk => exact absurd hk (h.ne rfl (Nat.le_refl 5))
    · rfl
  · unfold BinaryOp.multiplicative?
    split
    · next hk => exact absurd hk (h.ne rfl (Nat.le_refl 7))
    · next hk => exact absurd hk (h.ne rfl (Nat.le_refl 7))
    · next hk => exact absurd hk (h.ne rfl (Nat.le_refl 7))
    · next hk => exact absurd hk (h.ne rfl (Nat.le_refl 7))
    · rfl
  · have hp : BinaryOp.power? ⟨k, line, span⟩ = none :=
      if_neg fun hs => h.ne rfl (Nat.le_refl 8) (Token.isSymbol_iff.1 hs)
    rw [hp]
    rfl
  · rfl

/-! ### Chains -/

/-- **The first operand** of a chain leads to its loop. -/
theorem leads_first {level : Nat} {post : Expr → Prop} (hl : level ∈ chainLevels)
    (h : Reads n (parseLevel g (level + 1)) (k :: a) b post) :
    Leads n (parseLevel g level) (chainLoop g level) (k :: a) b (fun x => post x.1) := by
  intro s hs hw
  obtain ⟨x, t, hx, ht, hsuf, hpost⟩ := h s hs hw
  refine ⟨(x, s.stream.current.line), t, ?_, ht, hsuf, hpost⟩
  rw [parseLevel_chain g hl]
  show EStateM.bind (parseLevel g (level + 1))
    (fun first => chainLoop g level (first, s.stream.current.line)) s = _
  rw [EStateM.bind, hx]

/-- **An operator and its right operand** are one round of the loop of a chain. -/
theorem leads_operator {level : Nat} {post : Expr → Prop} {build : Expr → Expr → Nat → Expr}
    {x : Expr × Nat} (hk : k.type ≠ .mark .endOfTemplate)
    (hop : ∀ line span, operatorAt level ⟨k, line, span⟩ = some build)
    (h : Reads n (parseLevel g (level + 1)) (ks ++ l :: rest) (l :: rest) post) :
    Leads n (chainLoop g level x) (chainLoop g level) (k :: (ks ++ l :: rest)) (l :: rest)
      (fun y => ∃ right line, post right ∧ y.1 = build x.1 right line) := by
  refine Leads.round (Reads.see fun line span => ?_) (length_behind_lt ..)
  rw [hop]
  refine Reads.drop hk <| h.bind fun right hright => Reads.see fun line' span' => ?_
  exact Reads.pure ⟨_, rfl, right, x.2, hright, rfl⟩

/-- The loop of a chain ends at a token that stops its level. -/
theorem reads_chainLoop {level : Nat} (hk : k.Stops level) (x : Expr × Nat) :
    Reads n (chainLoop g level x) (k :: rest) (k :: rest) (fun y => y = x.1) := by
  refine Reads.stop (Reads.see fun line span => ?_)
  rw [operatorAt_eq_none hk]
  exact Reads.pure ⟨_, rfl, rfl⟩

/-! ### From one level to the next -/

/-- Members, items and calls end at a token that stops their level. -/
theorem reads_postfix_end (hk : k.Stops 11) (x : Expr) :
    Reads n (parsePostfix g x) (k :: rest) (k :: rest) (fun y => y = x) := by
  refine Reads.stop (Reads.see fun line span => ?_)
  split
  · next h => exact absurd h (hk.ne rfl (Nat.le_refl 11))
  · next h => exact absurd h (hk.ne rfl (Nat.le_refl 11))
  · next h => exact absurd h (hk.ne rfl (Nat.le_refl 11))
  · exact Reads.pure ⟨_, rfl, rfl⟩

/-- Filters, tests and calls end at a token that stops their level. -/
theorem reads_trailers_end (hk : k.Stops 9) (x : Expr) :
    Reads n (parseTrailers g x) (k :: rest) (k :: rest) (fun y => y = x) := by
  refine Reads.stop (Reads.see fun line span => ?_)
  rw [if_neg, if_neg, if_neg]
  · exact Reads.pure ⟨_, rfl, rfl⟩
  · have hle : 9 ≤ 11 := by omega
    exact fun h => hk.ne rfl hle (Token.isSymbol_iff.1 h)
  · exact fun h => hk.ne rfl (Nat.le_refl 9) (Token.isName_iff.1 h)
  · exact fun h => hk.ne rfl (Nat.le_refl 9) (Token.isSymbol_iff.1 h)

/-- A name that stops a level is none of the words of that level. -/
theorem fits_name_eq_false {level : Nat} {word : String} (hk : k.Stops level)
    (hword : Token.Kind.tier? (.name word) = some level) : k.fits (.name word) = false := by
  cases k with
  | name m =>
      refine beq_eq_false_iff_ne.2 fun h => ?_
      subst h
      exact absurd (hk level hword) (by omega)
  | _ => rfl

/-- A symbol that stops a level is none of the symbols of that level. -/
theorem fits_symbol_eq_false {level : Nat} {s : Symbol} (hk : k.Stops level)
    (hs : Token.Kind.tier? (.symbol s) = some level) :
    k.fits (.type (.symbol s)) = false := by
  cases k with
  | symbol r =>
      refine beq_eq_false_iff_ne.2 fun h => ?_
      obtain rfl : r = s := by simpa [Token.Kind.type] using h
      exact absurd (hk level hs) (by omega)
  | _ => rfl

section Looser

variable {post : Expr → Prop}

theorem reads_signed (hk : k.Stops 9) (h : Reads n (parseSigned g false) a (k :: rest) post) :
    Reads n (parseSigned g true) a (k :: rest) post := by
  have hsplit : parseSigned g true = parseSigned g false >>= parseTrailers g := by
    simp [parseSigned, bind_assoc]
  rw [hsplit]
  exact h.bind fun x hx => (reads_trailers_end hk x).imp fun _ hy => hy ▸ hx

theorem reads_chain {level : Nat} (hl : level ∈ chainLevels) (hk : k.Stops level)
    (h : Reads n (parseLevel g (level + 1)) (l :: a) (k :: rest) post) :
    Reads n (parseLevel g level) (l :: a) (k :: rest) post :=
  (leads_first hl h).reads fun x hx => (reads_chainLoop hk x).imp fun _ hy => hy ▸ hx

theorem reads_concat (hk : k.Stops 6)
    (h : Reads n (parseProduct g true) (l :: a) (k :: rest) post) :
    Reads n (parseConcat g true) (l :: a) (k :: rest) post := by
  refine Reads.see fun line span => ?_
  have hnodes : Reads n (parseConcatNodes g true) (l :: a) (k :: rest)
      (fun es => ∃ e, es = [e] ∧ post e) := by
    refine h.bind fun x hx => Reads.stop ?_
    refine Reads.stays (fits_symbol_eq_false hk rfl) ?_
    exact Reads.pure ⟨_, rfl, x, rfl, hx⟩
  refine hnodes.bind ?_
  intro _ hy
  obtain ⟨e, rfl, he⟩ := hy
  exact Reads.pure he

/-- No comparison begins at a token that stops the level of comparisons. -/
theorem reads_comparison_none (hk : k.Stops 4) :
    Reads n parseComparison? (k :: rest) (k :: rest) (fun op => op = none) := by
  refine Reads.see fun line span => ?_
  have hop : Comparison.ofToken? ⟨k, line, span⟩ = none := by
    unfold Comparison.ofToken?
    split <;> first
      | rfl
      | (next h => exact absurd h (hk.ne rfl (Nat.le_refl 4)))
  have hname (word : String) (hword : Token.Kind.tier? (.name word) = some 4) :
      Token.isName ⟨k, line, span⟩ word = false := by
    rw [← fits_name_eq_false hk hword]
    exact Token.fits_eq ⟨k, line, span⟩ (.name word)
  rw [hop]
  simp only [hname "in" rfl, hname "not" rfl]
  exact reads_look_any.bind fun _ _ => Reads.pure rfl

theorem reads_compare (hk : k.Stops 4) (h : Reads n (parseSum g true) (l :: a) (k :: rest) post) :
    Reads n (parseCompare g true) (l :: a) (k :: rest) post := by
  refine Reads.see fun line span => ?_
  refine h.bind fun e he => ?_
  have hoperands : Reads n (parseOperands g true line) (k :: rest) (k :: rest)
      (fun x => x = ([], line)) := by
    refine Reads.stop ((reads_comparison_none hk).bind ?_)
    intro _ hy
    obtain rfl := hy
    exact Reads.pure ⟨_, rfl, rfl⟩
  refine hoperands.bind ?_
  intro _ hy
  obtain rfl := hy
  exact Reads.pure he

theorem reads_negation (hl : l ≠ .name "not")
    (h : Reads n (parseCompare g true) (l :: a) (k :: rest) post) :
    Reads n (parseNegation g true) (l :: a) (k :: rest) post := by
  refine Reads.see fun line span => ?_
  rw [if_neg fun hn => hl (Token.isName_iff.1 hn)]
  exact h

theorem reads_conditional (hk : k.Stops 0)
    (h : Reads n (parseOr g true) (l :: a) (k :: rest) post) :
    Reads n (parseConditional g true) (l :: a) (k :: rest) post := by
  refine Reads.see fun line span => ?_
  refine h.bind fun e he => Reads.stop ?_
  refine Reads.stays (fits_name_eq_false hk rfl) ?_
  exact Reads.pure ⟨_, rfl, he⟩

/-- **What a level reads, the one below it reads too**, where nothing looser follows. -/
theorem reads_looser {level : Nat} (hl : level < 10) (hk : k.Stops level)
    (ha : Begins a (level + 1)) (h : Reads n (parseLevel g (level + 1)) a (k :: rest) post) :
    Reads n (parseLevel g level) a (k :: rest) post := by
  obtain ⟨l, a, rfl, _, hnot⟩ := ha
  match level, hl with
  | 0, _ => exact reads_conditional hk h
  | 1, _ | 2, _ | 5, _ | 7, _ | 8, _ => exact reads_chain (by simp [chainLevels]) hk h
  | 3, _ => exact reads_negation (hnot (by omega)) h
  | 4, _ => exact reads_compare hk h
  | 6, _ => exact reads_concat hk h
  | 9, _ => exact reads_signed hk h

/-- What a level reads, all levels below it read. -/
theorem reads_down {level place : Nat} (hp : place ≤ level) (hl : level ≤ 10) (hk : k.Stops place)
    (ha : Begins a level) (h : Reads n (parseLevel g level) a (k :: rest) post) :
    Reads n (parseLevel g place) a (k :: rest) post := by
  induction hp with
  | refl => exact h
  | @step m hpm ih =>
      exact ih (by omega) (ha.mono (by omega)) (reads_looser (by omega) (hk.mono hpm) ha h)

end Looser

/-! ### Sequences with separators -/

section Sequences

variable {α β γ σ : Type}

/-- A loop that is already where it should be. -/
theorem Leads.refl {loop : σ → Parser β} {x : σ} {post : σ → Prop} (hx : post x) :
    Leads n (loop x) loop b b post :=
  fun s hs _ => ⟨x, s, rfl, hs, List.suffix_refl _, hx⟩

/-- **A loop goes through its items.** Each is read behind the separator, the first only if
something stands before it, and before a token of which `ends` holds, as it does of the separator;
`inv` relates the items read so far to the value of the loop. -/
theorem Leads.items {loop : σ → Parser β} (separator : Token.Kind) (later : Bool)
    (ends : Token.Kind → Prop) (hsep : ends separator) (kinds : γ → List Token.Kind)
    (inv : List γ → σ → Prop) (items : List γ)
    (hround : ∀ done item more, items = done ++ item :: more → ∀ x, inv done x → ∀ k rest, ends k →
      Leads n (loop x) loop
        ((if later || !done.isEmpty then [separator] else []) ++ (kinds item ++ k :: rest))
        (k :: rest) (inv (done ++ [item])))
    {x : σ} (hx : inv [] x) (hb : items ≠ [] → ∃ k rest, b = k :: rest ∧ ends k) :
    Leads n (loop x) loop (following separator later (items.map kinds) ++ b) b (inv items) := by
  suffices hall : ∀ more done, items = done ++ more → ∀ x, inv done x →
      Leads n (loop x) loop
        (following separator (later || !done.isEmpty) (more.map kinds) ++ b) b (inv items) by
    simpa using hall items [] rfl x hx
  intro more
  induction more with
  | nil =>
      intro done hdone x hx
      rw [List.append_nil] at hdone
      exact Leads.refl (hdone ▸ hx)
  | cons item more ih =>
      intro done hdone x hx
      have hnext (y) (hy : inv (done ++ [item]) y) := ih (done ++ [item]) (by simpa using hdone) y hy
      have hlater : (later || !(done ++ [item]).isEmpty) = true := by simp
      rw [hlater] at hnext
      rw [List.map_cons, following, List.append_assoc, List.append_assoc]
      cases more with
      | nil =>
          obtain ⟨k, rest, rfl, hk⟩ := hb (by simp [hdone])
          exact (hround done item [] hdone x hx k rest hk).trans hnext
      | cons item' more =>
          have hr := hround done item (item' :: more) hdone x hx separator
            (kinds item' ++ following separator true (more.map kinds) ++ b) hsep
          exact hr.trans fun y hy => by simpa [following] using hnext y hy

/-- A comma is read where it is needed. -/
theorem reads_separator (later : Bool) :
    Reads n (parseSeparator later) ((if later then [.symbol .comma] else []) ++ a) a
      (fun _ => True) := by
  cases later with
  | false => exact Reads.pure trivial
  | true =>
      refine Reads.demand nofun rfl fun _ _ => ?_
      exact Reads.pure trivial

/-- **Items of a list or of a dictionary.** What counts of an item is its image under `f`. -/
theorem reads_items {closing : Symbol} {item : Parser α} {f : α → α} (kinds : α → List Token.Kind)
    (items : List α) (hc : closing ≠ .comma)
    (hstart : ∀ x ∈ items, ∃ l ks, kinds x = l :: ks ∧ l.type ≠ .symbol closing)
    (hitem : ∀ x ∈ items, ∀ k rest, k = .symbol .comma ∨ k = .symbol closing →
      Reads n item (kinds x ++ k :: rest) (k :: rest) (fun y => f y = f x)) :
    Reads n (parseItems closing item)
      (separated (.symbol .comma) (items.map kinds) ++ .symbol closing :: rest)
      (.symbol closing :: rest) (fun ys => ys.map f = items.map f) := by
  refine (Leads.items (.symbol .comma) false (fun k => k = .symbol .comma ∨ k = .symbol closing)
    (.inl rfl) kinds (fun done (xs : List α) => xs.map f = done.map f) items ?_ rfl
    fun _ => ⟨_, _, rfl, .inr rfl⟩).reads ?_
  · intro done x more hmore xs hxs k rest hk
    have hx : x ∈ items := by simp [hmore]
    obtain ⟨l, ks, hl, hlc⟩ := hstart x hx
    have hempty : xs.isEmpty = done.isEmpty := by simpa using congrArg List.isEmpty hxs
    have hitem := hitem x hx k rest hk
    rw [hl] at hitem ⊢
    have hitem' : Reads n
        (do
          if ← atSymbol closing then return .inr xs
          else
            let y ← item
            return .inl (xs ++ [y]) : Parser (List α ⊕ List α))
        (l :: ks ++ k :: rest) (k :: rest)
        (fun r => ∃ ys, r = .inl ys ∧ ys.map f = (done ++ [x]).map f) := by
      refine Reads.symbol closing ?_
      rw [if_neg (by simpa using hlc)]
      exact hitem.bind fun y hy => Reads.pure ⟨_, rfl, by simp [hxs, hy]⟩
    refine Leads.round ?_ (length_behind_append_lt ..)
    cases done with
    | nil =>
        refine Reads.symbol closing ?_
        rw [if_neg (by simpa using hlc), hempty]
        exact (reads_separator false).bind fun _ _ => hitem'
    | cons y done =>
        refine Reads.symbol closing ?_
        rw [if_neg (by simpa [Token.Kind.type] using Ne.symm hc), hempty]
        exact (reads_separator true).bind fun _ _ => hitem'
  · intro xs hxs
    refine Reads.stop (Reads.symbol closing ?_)
    rw [if_pos (by simp [Token.Kind.type])]
    exact Reads.pure ⟨_, rfl, hxs⟩

end Sequences

end LiquidTemplate
