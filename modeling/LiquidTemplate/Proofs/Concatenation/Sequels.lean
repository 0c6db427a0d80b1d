import LiquidTemplate.Proofs.Concatenation.Renaming
import LiquidTemplate.Proofs.Exchange.Grammars

/-!
# Another sequel of the same tokens

Two parsers go through the same tokens, behind which different ones stand. As long as the first one
stops inside of the common tokens, it has seen nothing of what follows them but that it begins with a
mark. So the second parser comes to the same result. It may have made up more names before, which
then have higher numbers.

* `Sequel`: what stands behind the common tokens, and how many names more are made up.
* `Sequel.Inside`: a state before the end of the common tokens.
* `Sequel.Along`: two states at the same place of the common tokens.
* `Parser.Carries`: a success inside of the common tokens is one of the second parser.
* `Carries.bind_value`, `Carries.loop_value`: parts one after the other, and repetitions.
-/

namespace LiquidTemplate

open LiquidTemplate.Parser LiquidTemplate.Grammar

/-- **Beginning with a mark.** -/
def BeginsWithMark (ts : List Token) : Prop :=
  ∃ t us, ts = t :: us ∧ t.IsMark

/-- **Another sequel** of the same tokens: `new` stands in the place of `old`. A state has `shift` names
more made up before the new sequel, and the names that are made up from there on are renamed. -/
structure Sequel where
  old : List Token
  new : List Token
  shift : Nat
  names : String → String
  ends : old = [] ∧ new = [] ∨ BeginsWithMark old ∧ BeginsWithMark new
  /-- The new sequel leaves at least as much to read. -/
  weight_le : weightOf (old.map Token.kind) ≤ weightOf (new.map Token.kind)
  renames : ∀ n, names (internalName n) = internalName (n + shift)

namespace Sequel

variable {x : Sequel} {s s' t : ParserState}

/-- **Nothing behind the tokens**, as for a stream of its own. -/
def alone : Sequel where
  old := []
  new := []
  shift := 0
  names := id
  ends := .inl ⟨rfl, rfl⟩
  weight_le := Nat.le_refl _
  renames _ := rfl

/-- How much more the new sequel leaves to read. -/
def extra (x : Sequel) : Nat :=
  weightOf (x.new.map Token.kind) - weightOf (x.old.map Token.kind)

/-- **Before the end of the common tokens.** -/
def Inside (x : Sequel) (s : ParserState) : Prop :=
  ∃ t ts, s.stream.tokens = t :: ts ++ x.old

/-- **At the same place** of the common tokens. -/
structure Along (x : Sequel) (s s' : ParserState) : Prop where
  tokens : ∃ ts, s.stream.tokens = ts ++ x.old ∧ s'.stream.tokens = ts ++ x.new
  madeUp : s'.madeUp = s.madeUp + x.shift

theorem Inside.of_suffix (h : x.Inside t) (hts : t.stream.tokens <:+ s.stream.tokens) : x.Inside s := by
  obtain ⟨a, ts, htokens⟩ := h
  obtain ⟨front, hfront⟩ := hts
  rw [htokens, ← List.append_assoc] at hfront
  obtain ⟨b, us, hus⟩ : ∃ b us, front ++ a :: ts = b :: us :=
    List.exists_cons_of_ne_nil (List.append_ne_nil_of_right_ne_nil _ (List.cons_ne_nil _ _))
  exact ⟨b, us, hus ▸ hfront.symm⟩

/-- Two states at the same place that is inside. -/
theorem Along.split (h : x.Along s s') (hin : x.Inside s) : ∃ t ts,
    s.stream.tokens = t :: (ts ++ x.old) ∧ s'.stream.tokens = t :: (ts ++ x.new) := by
  obtain ⟨us, hs, hs'⟩ := h.tokens
  obtain ⟨t, ts, htokens⟩ := hin
  obtain rfl := List.append_cancel_right (hs.symm.trans htokens)
  exact ⟨t, ts, hs, hs'⟩

theorem Along.current (h : x.Along s s') (hin : x.Inside s) : s'.stream.current = s.stream.current := by
  obtain ⟨t, ts, hs, hs'⟩ := h.split hin
  exact (List.cons.inj hs').1.trans (List.cons.inj hs).1.symm

/-- What is open has nothing to do with the tokens. -/
theorem Along.of_eq {t t' : ParserState} (h : x.Along s s') (hs : t.stream = s.stream)
    (hm : t.madeUp = s.madeUp) (hs' : t'.stream = s'.stream) (hm' : t'.madeUp = s'.madeUp) :
    x.Along t t' := by
  refine ⟨?_, ?_⟩
  · rw [hs, hs']
    exact h.tokens
  · rw [hm, hm']
    exact h.madeUp

/-- **A step** of both. -/
theorem Along.stepped (h : x.Along s s') (hin : x.Inside s) : x.Along s.stepped s'.stepped := by
  obtain ⟨t, ts, hs, hs'⟩ := h.split hin
  have hlater := (List.cons.inj hs).2
  have hlater' := (List.cons.inj hs').2
  refine ⟨?_, h.madeUp⟩
  show ∃ us, s.stream.next.tokens = us ++ x.old ∧ s'.stream.next.tokens = us ++ x.new
  rw [TokenStream.tokens_next, TokenStream.tokens_next, hlater, hlater', hs, hs']
  by_cases hnil : ts ++ x.old = []
  · -- the last token stays where it is, on both sides
    obtain ⟨rfl, hold⟩ := List.append_eq_nil_iff.1 hnil
    have hnew : x.new = [] := by
      rcases x.ends with ⟨-, hnew⟩ | ⟨⟨a, as, ha, -⟩, -⟩
      · exact hnew
      · rw [hold] at ha
        nomatch ha
    rw [hold, hnew]
    exact ⟨[t], rfl, rfl⟩
  · have hnil' : ts ++ x.new ≠ [] := by
      rcases x.ends with ⟨hold, hnew⟩ | ⟨-, b, bs, hb, -⟩
      · rw [hold] at hnil
        rwa [hnew]
      · rw [hb]
        exact List.append_ne_nil_of_right_ne_nil _ (List.cons_ne_nil _ _)
    rw [if_neg hnil, if_neg hnil']
    exact ⟨ts, rfl, rfl⟩

/-- **The token after the current one** is the same, or there are marks on both sides. -/
theorem Along.look (h : x.Along s s') (hin : x.Inside s) :
    s'.stream.look = s.stream.look ∨ s.stream.look.IsMark ∧ s'.stream.look.IsMark := by
  obtain ⟨t, ts, hs, hs'⟩ := h.split hin
  have hlater := (List.cons.inj hs).2
  have hlater' := (List.cons.inj hs').2
  unfold TokenStream.look
  rw [h.current hin, hlater, hlater']
  cases ts with
  | cons u ts => exact .inl rfl
  | nil =>
    rcases x.ends with ⟨hold, hnew⟩ | ⟨⟨a, as, ha, hmark⟩, b, bs, hb, hmark'⟩
    · rw [hold, hnew]
      exact .inl rfl
    · rw [ha, hb]
      exact .inr ⟨hmark, hmark'⟩

theorem Along.weight (h : x.Along s s') : s'.weight = s.weight + x.extra := by
  obtain ⟨ts, hs, hs'⟩ := h.tokens
  have hle := x.weight_le
  rw [ParserState.weight_eq, ParserState.weight_eq, ParserState.ahead, ParserState.ahead, hs, hs',
    List.map_append, List.map_append, weightOf_append, weightOf_append, extra]
  omega

/-- Both have the same way to go to the ends of their tokens. -/
theorem Along.remaining_lt {u u' : ParserState} (h : x.Along s s') (h' : x.Along u u')
    (hlt : u.remaining < s.remaining) : u'.remaining < s'.remaining := by
  obtain ⟨ts, hs, hs'⟩ := h.tokens
  obtain ⟨us, hu, hu'⟩ := h'.tokens
  unfold ParserState.remaining at hlt ⊢
  rw [hs, hu] at hlt
  rw [hs', hu']
  simp only [List.length_append] at hlt ⊢
  omega

end Sequel

namespace Parser

variable {α α' β β' : Type} {x : Sequel} {r : α → α'} {d : β → β'} {p : Parser α} {p' : Parser α'}
  {f : α → Parser β} {f' : α' → Parser β'}

/-- **Carrying on**: if the first parser succeeds, it has gone forward, and if it has stopped inside of
the common tokens, the second parser succeeds too, with the value that corresponds to that of the
first one. -/
def Carries (x : Sequel) (r : α → α') (p : Parser α) (p' : Parser α') : Prop :=
  ∀ s y t, p s = .ok y t → t.stream.tokens <:+ s.stream.tokens ∧
    (x.Inside t → ∀ s', x.Along s s' → ∃ t', p' s' = .ok (r y) t' ∧ x.Along t t')

/-! ### Parts -/

theorem Carries.pure_value {y : α} {y' : α'} (h : r y = y') :
    Carries x r (Pure.pure y) (Pure.pure y') := by
  intro s z t hz
  obtain ⟨rfl, rfl⟩ := EStateM.Result.ok.inj hz
  exact ⟨List.suffix_refl _, fun _ s' hs => ⟨s', h ▸ rfl, hs⟩⟩

theorem Carries.pure {y : α} : Carries x id (Pure.pure y) (Pure.pure y) :=
  .pure_value rfl

/-- **One part after another.** -/
theorem Carries.bind_value (hp : Carries x r p p') (hf : ∀ y, Carries x d (f y) (f' (r y))) :
    Carries x d (p >>= f) (p' >>= f') := by
  intro s z u h
  obtain ⟨y, t, hy, hz⟩ := bind_eq_ok.1 h
  obtain ⟨hts, hp⟩ := hp s y t hy
  obtain ⟨hut, hf⟩ := hf y t z u hz
  refine ⟨hut.trans hts, fun hin s' hs => ?_⟩
  obtain ⟨t', hy', ht⟩ := hp (hin.of_suffix hut) s' hs
  obtain ⟨u', hz', hu⟩ := hf hin t' ht
  exact ⟨u', bind_eq_ok.2 ⟨r y, t', hy', hz'⟩, hu⟩

/-- A part after another one with the same value. -/
theorem Carries.bind {p p' : Parser α} {f : α → Parser β} {f' : α → Parser β'}
    (hp : Carries x id p p') (hf : ∀ y, Carries x d (f y) (f' y)) :
    Carries x d (p >>= f) (p' >>= f') :=
  hp.bind_value hf

theorem Carries.map {f : α → β} {f' : α' → β'} (hp : Carries x r p p')
    (hf : ∀ y, f' (r y) = d (f y)) : Carries x d (f <$> p) (f' <$> p') := by
  intro s z t h
  obtain ⟨y, hy, rfl⟩ := map_eq_ok.1 h
  obtain ⟨hts, hp⟩ := hp s y t hy
  refine ⟨hts, fun hin s' hs => ?_⟩
  obtain ⟨t', hy', ht⟩ := hp hin s' hs
  exact ⟨t', map_eq_ok.2 ⟨r y, hy', hf y⟩, ht⟩

theorem Carries.ite {b : Prop} [Decidable b] {q : Parser α} {q' : Parser α'} (hp : Carries x r p p')
    (hq : Carries x r q q') : Carries x r (if b then p else q) (if b then p' else q') := by
  split
  · exact hp
  · exact hq

/-- Another description of the values. -/
theorem Carries.value {r' : α → α'} (hp : Carries x r p p')
    (h : ∀ s y t, p s = .ok y t → r y = r' y) : Carries x r' p p' := by
  intro s y t hy
  obtain ⟨hts, hp⟩ := hp s y t hy
  exact ⟨hts, h s y t hy ▸ hp⟩

theorem carries_failAt {cause : SyntaxError.Cause} {line : Nat} :
    Carries x r (failAt cause line : Parser α) p' :=
  fun _ _ _ h => absurd h (failAt_ne_ok _ _)

theorem carries_fail {cause : SyntaxError.Cause} : Carries x r (fail cause : Parser α) p' :=
  fun _ _ _ h => absurd h (fail_ne_ok _)

/-! ### Single tokens -/

theorem carries_current : Carries x id current current := by
  intro s y t h
  obtain ⟨rfl, rfl⟩ := current_eq_ok.1 h
  exact ⟨List.suffix_refl _, fun hin s' hs => ⟨s', current_eq_ok.2 ⟨(hs.current hin).symm, rfl⟩, hs⟩⟩

theorem carries_step : Carries x id step step := by
  intro s y t h
  obtain rfl := step_eq_ok.1 h
  refine ⟨s.stepped_suffix, fun hin s' hs => ⟨s'.stepped, rfl, ?_⟩⟩
  exact hs.stepped (hin.of_suffix s.stepped_suffix)

/-- What is done with the token after the current one, which can be another mark. -/
theorem carries_look {f : Token → Parser β} {f' : Token → Parser β'}
    (h : ∀ y y', y' = y ∨ y.IsMark ∧ y'.IsMark → Carries x d (f y) (f' y')) :
    Carries x d (look >>= f) (look >>= f') := by
  intro s z t hz
  have hz : f s.stream.look s = .ok z t := hz
  obtain ⟨hts, -⟩ := h s.stream.look s.stream.look (.inl rfl) s z t hz
  refine ⟨hts, fun hin s' hs => ?_⟩
  have halike := hs.look (hin.of_suffix hts)
  exact (h s.stream.look s'.stream.look halike s z t hz).2 hin s' hs

theorem carries_advance : Carries x id advance advance :=
  carries_current.bind fun _ => carries_step.bind fun _ => .pure

theorem carries_skip_two : Carries x id (skip 2) (skip 2) := by
  have hsteps : (skip 2 : Parser Unit) = (do step; step) := rfl
  rw [hsteps]
  exact carries_step.bind fun _ => carries_step

theorem carries_skipIf (rule : TokenRule) : Carries x id (skipIf rule) (skipIf rule) :=
  carries_current.bind fun _ => .ite (carries_step.bind fun _ => .pure) .pure

theorem carries_expect (rule : TokenRule) : Carries x id (expect rule) (expect rule) := by
  intro s y t h
  obtain ⟨hfits, rfl, rfl⟩ := expect_eq_ok.1 h
  refine ⟨s.stepped_suffix, fun hin s' hs => ⟨s'.stepped, ?_, ?_⟩⟩
  · have hcurrent := hs.current (hin.of_suffix s.stepped_suffix)
    exact expect_eq_ok.2 ⟨hcurrent ▸ hfits, hcurrent.symm, rfl⟩
  · exact hs.stepped (hin.of_suffix s.stepped_suffix)

theorem carries_atSymbol (c : Symbol) : Carries x id (atSymbol c) (atSymbol c) :=
  carries_current.bind fun _ => .pure

theorem carries_atMark (m : Mark) : Carries x id (atMark m) (atMark m) :=
  carries_current.bind fun _ => .pure

/-! ### Names and brackets of the state -/

/-- **What is done with a made-up name**, which has a higher number for the second parser. -/
theorem carries_freshName {f : Expr → Parser β} {f' : Expr → Parser β'} (line : Nat)
    (h : ∀ name, Carries x d (f (.internalName name line)) (f' (.internalName (x.names name) line))) :
    Carries x d (freshName line >>= f) (freshName line >>= f') := by
  intro s z t hz
  have hz : f (.internalName (internalName (s.madeUp + 1)) line) { s with madeUp := s.madeUp + 1 } =
    .ok z t := hz
  obtain ⟨hts, hcarries⟩ := h _ _ z t hz
  refine ⟨hts, fun hin s' hs => ?_⟩
  have hname : x.names (internalName (s.madeUp + 1)) = internalName (s'.madeUp + 1) := by
    rw [x.renames, hs.madeUp, Nat.add_right_comm]
  have hmadeUp : s'.madeUp + 1 = s.madeUp + 1 + x.shift := by
    rw [hs.madeUp, Nat.add_right_comm]
  rw [hname] at hcarries
  exact hcarries hin { s' with madeUp := s'.madeUp + 1 } ⟨hs.tokens, hmadeUp⟩

/-- **A bracket of the state** around both. -/
theorem Carries.afterwards (hp : Carries x r p p') (before after : ParserState → ParserState)
    (hbefore : ∀ s, (before s).stream = s.stream ∧ (before s).madeUp = s.madeUp)
    (hafter : ∀ s, (after s).stream = s.stream ∧ (after s).madeUp = s.madeUp) :
    Carries x r (fun s => Parser.afterwards p after (before s))
      (fun s => Parser.afterwards p' after (before s)) := by
  intro s y t h
  obtain ⟨v, hv, rfl⟩ := of_afterwards h
  obtain ⟨hvs, hcarries⟩ := hp _ _ _ hv
  unfold Sequel.Inside
  rw [(hafter v).1]
  refine ⟨(hbefore s).1 ▸ hvs, fun hin s' hs => ?_⟩
  obtain ⟨v', hv', hvv⟩ := hcarries hin (before s')
    (hs.of_eq (hbefore s).1 (hbefore s).2 (hbefore s').1 (hbefore s').2)
  refine ⟨after v', ?_, hvv.of_eq (hafter v).1 (hafter v).2 (hafter v').1 (hafter v').2⟩
  show Parser.afterwards p' after (before s') = _
  rw [Parser.afterwards, hv']

theorem Carries.inTag (hp : Carries x r p p') (tag : String) :
    Carries x r (Parser.inTag tag p) (Parser.inTag tag p') :=
  hp.afterwards _ _ (fun _ => ⟨rfl, rfl⟩) fun _ => ⟨rfl, rfl⟩

theorem Carries.awaiting (hp : Carries x r p p') (ends : List TokenRule) :
    Carries x r (Parser.awaiting ends p) (Parser.awaiting ends p') :=
  hp.afterwards _ _ (fun _ => ⟨rfl, rfl⟩) fun _ => ⟨rfl, rfl⟩

/-! ### Repetitions -/

/-- **A repetition** whose rounds carry on. -/
theorem Carries.loop_value {step : α → Parser (α ⊕ β)} {step' : α' → Parser (α' ⊕ β')}
    (h : ∀ y, Carries x (Sum.map r d) (step y) (step' (r y))) (y : α) :
    Carries x d (repeatFrom step y) (repeatFrom step' (r y)) := by
  intro s z t hz
  induction hn : s.remaining using Nat.strongRecOn generalizing y s with
  | _ n ih =>
    rcases repeatFrom_eq_ok.1 hz with hlast | ⟨y', u, hu, hlt, hrest⟩
    · obtain ⟨hts, hround⟩ := h y s _ t hlast
      refine ⟨hts, fun hin s' hs => ?_⟩
      obtain ⟨t', ht', ht⟩ := hround hin s' hs
      exact ⟨t', repeatFrom_eq_ok.2 (.inl ht'), ht⟩
    · obtain ⟨hus, hround⟩ := h y s _ u hu
      obtain ⟨htu, hrest⟩ := ih u.remaining (hn ▸ hlt) y' u hrest rfl
      refine ⟨htu.trans hus, fun hin s' hs => ?_⟩
      obtain ⟨u', hu', huu⟩ := hround (hin.of_suffix htu) s' hs
      obtain ⟨t', ht', ht⟩ := hrest hin u' huu
      exact ⟨t', repeatFrom_eq_ok.2 (.inr ⟨r y', u', hu', hs.remaining_lt huu hlt, ht'⟩), ht⟩

/-- A repetition whose rounds have the same values. -/
theorem Carries.loop {step step' : α → Parser (α ⊕ β)} (h : ∀ y, Carries x id (step y) (step' y))
    (y : α) : Carries x id (repeatFrom step y) (repeatFrom step' y) := by
  refine @Carries.loop_value _ _ _ _ x id id step step' (fun y => ?_) y
  rw [Sum.map_id_id]
  exact h y

/-- **Chains** of operands. -/
theorem carries_leftChain {operand operand' : Parser Expr} (h : Carries x id operand operand')
    (operator? : Token → Option (Expr → Expr → Nat → Expr)) :
    Carries x id (leftChain operand operator?) (leftChain operand' operator?) := by
  refine carries_current.bind fun _ => h.bind fun _ => .loop (fun y => ?_) _
  refine carries_current.bind fun t => ?_
  cases operator? t with
  | none => exact .pure
  | some build =>
    exact carries_step.bind fun _ => h.bind fun _ => carries_current.bind fun _ => .pure

end Parser

end LiquidTemplate
