import LiquidTemplate.Proofs.Echoes.Parsers

/-!
# Expressions at other places

The bounded grammars read the same expressions from tokens that look the same: no expression makes up
a name, and a simulation before the ends of two streams covers all of their tokens.

* `Exchange.OfStreams`: the ends of two streams.
* `echoes_of_sim`: what is simulated before such ends is echoed.
* `Grammar.Echoed`, `echoed_below`, `echoed_grammar`: grammars whose expressions are echoed.
* `echoes_tuple`, `echoes_target`, `echoes_filters`: what tags read besides expressions.
-/

namespace LiquidTemplate

open LiquidTemplate.Parser LiquidTemplate.Grammar

variable {lines : Bool} {n : Nat} {s s' : ParserState} {g : Grammar} {e e' : Expr}

/-! ### Ends of streams -/

/-- A stream ends with the end of the template. -/
theorem TokenStream.exists_end (stream : TokenStream) :
    ∃ ts e, stream.tokens = ts ++ [e] ∧ e.isEnd = true := by
  refine ⟨_, _, (List.dropLast_concat_getLast stream.tokens_ne_nil).symm, ?_⟩
  have hclosed := stream.closed
  have hlast : (stream.later.getLast?).getD stream.current =
      stream.tokens.getLast stream.tokens_ne_nil := by
    refine Option.some.inj ?_
    rw [← List.getLast?_cons, ← List.getLast?_eq_some_getLast]
    rfl
  rwa [hlast] at hclosed

/-- **An exchange of the ends of two streams**, behind tokens that weigh `w`. -/
structure Exchange.OfStreams (lines : Bool) (n w : Nat) (x : Exchange) : Prop where
  lines_eq : x.lines = lines
  oldRest : x.oldRest = []
  newRest : x.newRest = []
  old_isEnd : x.old.isEnd = true
  new_isEnd : x.new.isEnd = true
  weight_lt : w < n

/-- **Parallel states are abreast** before the ends of their streams. -/
theorem ParserState.Parallel.abreast (h : s.Parallel lines n s') :
    ∃ (x : Exchange) (w : Nat), x.OfStreams lines n w ∧ x.Abreast w s s' := by
  obtain ⟨ts, e, hs, he⟩ := s.stream.exists_end
  obtain ⟨ts', e', hs', he'⟩ := s'.stream.exists_end
  have hseen := h.seen
  rw [hs, hs', List.map_append, List.map_append] at hseen
  obtain ⟨hts, hend⟩ := List.append_inj' hseen rfl
  have hmark {a : Token} (ha : a.isEnd = true) : a.IsMark := ⟨_, Token.isEnd_iff.1 ha⟩
  let x : Exchange :=
    { lines, old := e, oldRest := [], new := e', newRest := [], isMark := hmark he
      stops := (hmark he').stops
      line_eq := Token.line_of_seen (List.cons.inj hend).1 }
  have hweight := h.weight_le
  rw [weight_eq, ParserState.ahead, hs, List.map_append, weightOf_append, List.map_singleton,
    Token.isEnd_iff.1 he] at hweight
  refine ⟨x, weightOf (ts.map Token.kind), ⟨rfl, rfl, rfl, he, he', hweight⟩, ts, ts', hs, hs', hts,
    Nat.le_refl _, .inl (settled_of_isEnd he), .inl (hmark he').name?_eq_none⟩

namespace Exchange

variable {x : Exchange} {w : Nat}

theorem OfStreams.oldWeight (hx : x.OfStreams lines n w) : x.oldWeight = 1 := by
  rw [Exchange.oldWeight, hx.oldRest, List.map_singleton, Token.isEnd_iff.1 hx.old_isEnd]
  rfl

theorem OfStreams.newWeight (hx : x.OfStreams lines n w) : x.newWeight = 1 := by
  rw [Exchange.newWeight, hx.newRest, List.map_singleton, Token.isEnd_iff.1 hx.new_isEnd]
  rfl

theorem OfStreams.simulates (hx : x.OfStreams lines n w) (env : Environment) :
    Simulates x w (below env n) (below env n) := by
  have hlt := hx.weight_lt
  refine simulates_below env x ?_ ?_
  · rw [hx.newWeight, hx.oldWeight]
  · rw [hx.newWeight]
    omega

/-- **States abreast are parallel.** -/
theorem Abreast.parallel (h : x.Abreast w s s') (hx : x.OfStreams lines n w)
    (hmadeUp : s.madeUp = s'.madeUp) : s.Parallel lines n s' := by
  obtain ⟨v, hvw, -, hweight, -⟩ := h.weight
  obtain ⟨ts, ts', hs, hs', hts, -⟩ := h
  have hlt := hx.weight_lt
  refine ⟨?_, hmadeUp, ?_⟩
  · have hold := Token.isEnd_iff.1 hx.old_isEnd
    have hnew := Token.isEnd_iff.1 hx.new_isEnd
    have hend : x.old.seen lines = x.new.seen lines :=
      Prod.ext (hold.trans hnew.symm) (hx.lines_eq ▸ x.line_eq)
    rw [hs, hs', hx.oldRest, hx.newRest, List.map_append, List.map_append, ← hx.lines_eq, hts,
      List.map_singleton, List.map_singleton, hx.lines_eq, hend]
  · rw [hweight, hx.oldWeight]
    omega

end Exchange

/-- **What is simulated before the ends of streams is echoed**, if no names are made up. -/
theorem echoes_of_sim {p p' : Parser Expr} (hstill : Obeys .still p) (hstill' : Obeys .still p')
    (h : ∀ x w s s', Exchange.OfStreams lines n w x → x.Abreast w s s' → Sim x w p p' x.Same s s') :
    Echoes lines n (Expr.seen lines) p p' := by
  intro s s' e t hs he
  obtain ⟨x, w, hx, habreast⟩ := hs.abreast
  obtain ⟨e', t', he', hee, ht⟩ := h x w s s' hx habreast e t he
  have hkept := hstill s
  have hkept' := hstill' s'
  rw [he] at hkept
  rw [he'] at hkept'
  have hmadeUp : t.madeUp = t'.madeUp := hkept.trans (hs.madeUp.trans hkept'.symm)
  exact ⟨e', t', he', hx.lines_eq ▸ hee, ht.parallel hx hmadeUp⟩

/-! ### Expressions -/

/-- **Echoed expressions** of a grammar. -/
structure Grammar.Echoed (lines : Bool) (n : Nat) (g : Grammar) : Prop where
  expression : ∀ conditional filters, Echoes lines n (Expr.seen lines)
    (parseExpression g conditional filters) (parseExpression g conditional filters)
  reference : ∀ conditional filters, Echoes lines n (Expr.seen lines)
    (g.expression conditional filters) (g.expression conditional filters)
  primary : Echoes lines n (Expr.seen lines) (parsePrimary g) (parsePrimary g)
  filterName : ∀ {node node' : Option Expr},
    node.map (Expr.seen lines) = node'.map (Expr.seen lines) →
      Echoes lines n (Expr.seen lines) (parseFilterName g node) (parseFilterName g node')

/-- **Expressions that are simulated** before the ends of streams, by a grammar that makes up no names
for them. -/
theorem echoed_of_simulates (hstill : g.Minds .still)
    (hg : ∀ x w, Exchange.OfStreams lines n w x → Simulates x w g g) : g.Echoed lines n := by
  refine ⟨fun conditional filters => ?_, fun conditional filters => ?_, ?_, fun hnode => ?_⟩
  · have hkept := obeys_expression hstill conditional filters
    exact echoes_of_sim hkept hkept fun x w s s' hx h => sim_expression (hg x w hx) conditional filters h
  · have hkept := hstill.expression conditional filters
    exact echoes_of_sim hkept hkept fun x w s s' hx h => (hg x w hx).expression conditional filters h
  · have hkept := obeys_primary hstill
    exact echoes_of_sim hkept hkept fun x w s s' hx h => sim_primary (hg x w hx) h
  · refine echoes_of_sim (obeys_filterName hstill _) (obeys_filterName hstill _) fun x w s s' hx h => ?_
    have hsettled : x.Settled := settled_of_isEnd hx.old_isEnd
    obtain rfl := hx.lines_eq
    exact sim_filterName (hg x w hx) hnode (fun _ => hsettled) h

/-- The bounded grammars. -/
theorem echoed_below (env : Environment) (lines : Bool) (n : Nat) : (below env n).Echoed lines n :=
  echoed_of_simulates (minds_below env obeyedByRanges_counts n) fun _ _ hx => hx.simulates env

/-- The grammar of an environment. -/
theorem echoed_grammar (env : Environment) (lines : Bool) (n : Nat) : env.grammar.Echoed lines n :=
  echoed_of_simulates (minds_grammar env obeyedByRanges_counts) fun x w _ => simulates_grammar env w x

/-! ### What tags read besides expressions -/

namespace Expr

theorem isAssignable_of_seen (h : e.seen lines = e'.seen lines) :
    e.isAssignable = e'.isAssignable := by
  cases lines with
  | true => exact congrArg isAssignable h
  | false => rw [← isAssignable_withoutLines e, ← isAssignable_withoutLines e', ← seen_false, h]

theorem setContext_of_seen (h : e.seen lines = e'.seen lines) (c : Context) :
    (e.setContext c).seen lines = (e'.setContext c).seen lines := by
  cases lines with
  | true => exact congrArg (setContext c) h
  | false =>
    rw [seen_false] at h ⊢
    rw [withoutLines_setContext, withoutLines_setContext, h]

theorem nameText_of_seen (h : e.seen lines = e'.seen lines) : e.nameText = e'.nameText := by
  have hseen (x : Expr) : (x.seen lines).nameText = x.nameText := by
    cases lines with
    | true => rfl
    | false => cases x <;> rfl
  rw [← hseen e, h, hseen]

theorem isCall_of_seen (h : e.seen lines = e'.seen lines) : isCall e = isCall e' := by
  cases lines with
  | true => exact congrArg isCall h
  | false => rw [← isCall_withoutLines e, ← isCall_withoutLines e', ← seen_false, h]

end Expr

theorem echoes_assignable (h : e.seen lines = e'.seen lines) :
    Echoes lines n (Expr.seen lines) (requireAssignable e) (requireAssignable e') :=
  .ite (by rw [Expr.isAssignable_of_seen h]) (.pure_value h) echoes_failAt

theorem echoes_targetName :
    Echoes lines n (Expr.seen lines) parseTargetName parseTargetName := by
  refine (echoes_expect _).bind_value fun t t' h => echoes_assignable ?_
  rw [Expr.seen_name, Expr.seen_name, Token.line_of_seen h, Token.nameText, Token.nameText,
    Token.name?_of_seen h]

/-- **What is seen of the items of a tuple.** -/
def Grammar.TupleItems.seen (lines : Bool) (read : TupleItems) : TupleItems :=
  ⟨read.items.map (Expr.seen lines), read.isTuple, seenLine lines read.line⟩

section Echoed

variable (hg : g.Echoed lines n)
include hg

/-- **Tuples.** -/
theorem echoes_tuple (item : TupleItem) (ends : List TokenRule) :
    Echoes lines n (Expr.seen lines) (parseTuple g item ends false) (parseTuple g item ends false) := by
  have hitem : Echoes lines n (Expr.seen lines) (parseTupleItem g item) (parseTupleItem g item) := by
    cases item with
    | primary => exact hg.primary
    | expression conditional => exact hg.expression conditional true
  have hitems {line line' : Nat} (hline : seenLine lines line = seenLine lines line') :
      Echoes lines n (TupleItems.seen lines) (parseTupleItems g item ends line)
        (parseTupleItems g item ends line') := by
    refine .loop (d := TupleItems.seen lines) (fun read read' h => ?_)
      (congrArg (TupleItems.mk [] false) hline)
    obtain ⟨hitems, htuple, hline⟩ := TupleItems.mk.inj h
    have hempty : read.items.isEmpty = read'.items.isEmpty := by
      rw [← List.isEmpty_map (f := Expr.seen lines), hitems, List.isEmpty_map]
    rw [parseNextTupleItem, parseNextTupleItem, hempty]
    refine (echoes_separator _).bind fun _ => echoes_current.bind_value fun t t' ht => ?_
    refine .ite (by rw [Token.isTupleEnd_of_seen ht]) (.pure_value (congrArg Sum.inr h)) ?_
    refine hitem.bind_value fun e e' he => echoes_current.bind_value fun t t' ht => ?_
    have hmore :
        (read.items ++ [e]).map (Expr.seen lines) = (read'.items ++ [e']).map (Expr.seen lines) := by
      simp [hitems, he]
    refine .ite (by rw [Token.isSymbol_of_seen ht]) (.pure_value (congrArg Sum.inl ?_))
      (.pure_value (congrArg Sum.inr ?_))
    · rw [TupleItems.seen, TupleItems.seen, hmore, Token.line_of_seen ht]
    · rw [TupleItems.seen, TupleItems.seen, hmore, htuple, hline]
  refine echoes_current.bind_value fun t t' ht => (hitems (Token.line_of_seen ht)).bind_value ?_
  rintro ⟨items, isTuple, line⟩ ⟨items', isTuple', line'⟩ h
  obtain ⟨hitems, htuple, hline⟩ := TupleItems.mk.inj h
  obtain rfl : isTuple = isTuple' := htuple
  cases isTuple with
  | true =>
    refine .pure_value ?_
    rw [Expr.seen_tuple, Expr.seen_tuple, hitems, hline]
  | false =>
    cases items with
    | nil =>
      obtain rfl := List.map_eq_nil_iff.1 hitems.symm
      exact echoes_current.bind_value fun _ _ _ => echoes_fail
    | cons e es =>
      obtain ⟨e', es', rfl, he, -⟩ := List.map_eq_cons_iff.1 hitems.symm
      exact .pure_value he.symm

/-- **Targets** of assignments. -/
theorem echoes_target (withTuple : Bool) (ends : List TokenRule) : Echoes lines n (Expr.seen lines)
    (parseTarget g withTuple ends) (parseTarget g withTuple ends) := by
  cases withTuple with
  | true =>
    exact (echoes_tuple hg _ _).bind_value fun e e' h =>
      echoes_assignable (Expr.setContext_of_seen h _)
  | false =>
    exact hg.primary.bind_value fun e e' h => echoes_assignable (Expr.setContext_of_seen h _)

/-- **Filters** of a filter block. -/
theorem echoes_filters : Echoes lines n (Expr.seen lines) (parseFilters g none true)
    (parseFilters g none true) := by
  let look (y : Option Expr × Bool) : Option Expr × Bool := (y.1.map (Expr.seen lines), y.2)
  refine .loop (d := look) (fun y y' h => ?_) rfl
  obtain ⟨node, bare⟩ := y
  obtain ⟨node', bare'⟩ := y'
  obtain ⟨hnode, hbare⟩ := Prod.mk.inj h
  obtain rfl : bare = bare' := hbare
  have hfilter : Echoes lines n (Sum.map look (Expr.seen lines))
      (do let e ← parseFilterName g node; return .inl (some e, false))
      (do let e ← parseFilterName g node'; return .inl (some e, false)) :=
    (hg.filterName hnode).bind_value fun e e' he =>
      .pure_value (congrArg (fun e => Sum.inl (some e, false)) he)
  refine .ite Iff.rfl hfilter ((echoes_skipIf _).bind fun _ => .ite Iff.rfl hfilter ?_)
  cases node with
  | none => exact echoes_fail
  | some e =>
    cases node' with
    | none => nomatch hnode
    | some e' => exact .pure_value (congrArg Sum.inr (Option.some.inj hnode))

end Echoed

end LiquidTemplate
