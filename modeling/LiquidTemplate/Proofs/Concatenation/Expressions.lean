import LiquidTemplate.Proofs.Concatenation.Sequels

/-!
# Expressions before another sequel

An expression is read the same before another sequel: no production looks further ahead than to the
token after the current one, and there no mark is taken for another token.

* `Grammar.Continues`: a grammar whose expressions another one reads before another sequel.
* `carries_arguments`, `carries_primary`, `carries_expression`, `carries_tuple`: the productions.
* `continues_below`, `continues_grammar`: the grammars of an environment.
-/

namespace LiquidTemplate

open LiquidTemplate.Parser LiquidTemplate.Grammar

variable {α : Type} {x : Sequel} {g g' : Grammar} {env : Environment}

/-- **The second grammar goes on as the first one**: it reads the same expressions before another sequel,
and the same range literals, whose bounds are read from streams of their own. -/
structure Grammar.Continues (x : Sequel) (g g' : Grammar) : Prop where
  expression : ∀ conditional filters,
    Carries x id (g.expression conditional filters) (g'.expression conditional filters)
  negation : ∀ filters, Carries x id (g.negation filters) (g'.negation filters)
  signed : Carries x id g.signed g'.signed
  group : Carries x id g.group g'.group
  range : ∀ t start stop, Carries x id (parseRange g t start stop) (parseRange g' t start stop)

/-! ### Arguments -/

theorem carries_require (ok : Bool) (line : Nat) : Carries x id (require ok line) (require ok line) :=
  .ite .pure carries_failAt

theorem carries_separator (needed : Bool) :
    Carries x id (parseSeparator needed) (parseSeparator needed) :=
  .ite ((carries_expect _).bind fun _ => .pure) .pure

theorem isSymbol_eq_of_alike {t t' : Token} (h : t' = t ∨ t.IsMark ∧ t'.IsMark) (c : Symbol) :
    t'.isSymbol c = t.isSymbol c := by
  rcases h with rfl | ⟨ht, ht'⟩
  · rfl
  · rw [ht.not_symbol, ht'.not_symbol]

theorem isName_eq_of_alike {t t' : Token} (h : t' = t ∨ t.IsMark ∧ t'.IsMark) (word : String) :
    t'.isName word = t.isName word := by
  rcases h with rfl | ⟨ht, ht'⟩
  · rfl
  · rw [ht.not_name, ht'.not_name]

theorem carries_plainArgument (hg : g.Continues x g') (form : ArgumentForm) (line : Nat)
    (args : Arguments Expr) :
    Carries x id (parsePlainArgument g form line args) (parsePlainArgument g' form line args) := by
  refine (carries_require _ line).bind fun _ => carries_current.bind fun t => ?_
  refine carries_look fun after after' hafter => ?_
  rw [isSymbol_eq_of_alike hafter]
  split
  · exact carries_skip_two.bind fun _ => (hg.expression true _).bind fun _ => .pure
  · exact (carries_require _ line).bind fun _ => (hg.expression true _).bind fun _ => .pure

theorem carries_argument (hg : g.Continues x g') (form : ArgumentForm) (line : Nat)
    (args : Arguments Expr) :
    Carries x id (parseArgument g form line args) (parseArgument g' form line args) := by
  refine (carries_atSymbol _).bind fun _ => .ite ?_ <| (carries_atSymbol _).bind fun _ => .ite ?_ ?_
  · exact (carries_require _ line).bind fun _ => carries_step.bind fun _ =>
      (hg.expression true true).bind fun _ => .pure
  · exact (carries_require _ line).bind fun _ => carries_step.bind fun _ =>
      (hg.expression true true).bind fun _ => .pure
  · exact carries_plainArgument hg form line args

theorem carries_argumentList (hg : g.Continues x g') (form : ArgumentForm) (line : Nat) :
    Carries x id (parseArgumentList g form line) (parseArgumentList g' form line) := by
  refine .loop (fun _ => ?_) _
  refine carries_current.bind fun _ => .ite .pure ?_
  refine (carries_separator _).bind fun _ => carries_current.bind fun _ => .ite .pure ?_
  exact (carries_argument hg form line _).bind fun _ => .pure

theorem carries_arguments (hg : g.Continues x g') :
    Carries x id (parseArguments g) (parseArguments g') := by
  refine carries_current.bind fun t => ?_
  cases ArgumentForm.ofToken? t with
  | none => exact carries_failAt
  | some form =>
    refine carries_step.bind fun _ => (carries_argumentList hg form _).bind fun _ => ?_
    exact .ite (carries_step.bind fun _ => .pure) .pure

theorem carries_optionalArguments (hg : g.Continues x g') :
    Carries x id (parseOptionalArguments g) (parseOptionalArguments g') :=
  carries_current.bind fun _ => .ite (carries_arguments hg) .pure

/-! ### Calls and filters -/

theorem carries_dottedName (first : String) :
    Carries x id (parseDottedName first) (parseDottedName first) :=
  .loop (fun _ => (carries_skipIf _).bind fun _ =>
    .ite ((carries_expect _).bind fun _ => .pure) .pure) _

theorem carries_filterName (hg : g.Continues x g') (node : Option Expr) :
    Carries x id (parseFilterName g node) (parseFilterName g' node) :=
  (carries_expect _).bind fun _ => (carries_dottedName _).bind fun _ =>
    (carries_optionalArguments hg).bind fun _ => .pure

theorem carries_filters (hg : g.Continues x g') (node : Option Expr) (bare : Bool) :
    Carries x id (parseFilters g node bare) (parseFilters g' node bare) := by
  refine .loop (fun y => ?_) _
  obtain ⟨node, bare⟩ := y
  refine .ite ((carries_filterName hg node).bind fun _ => .pure) ?_
  refine (carries_skipIf _).bind fun _ => .ite ((carries_filterName hg node).bind fun _ => .pure) ?_
  cases node with
  | none => exact carries_fail
  | some e => exact .pure

theorem carries_call (hg : g.Continues x g') (node : Expr) :
    Carries x id (parseCall g node) (parseCall g' node) :=
  carries_current.bind fun _ => (carries_arguments hg).bind fun _ => .pure

/-! ### Primaries -/

theorem carries_items {closing : Symbol} {item item' : Parser α} (h : Carries x id item item') :
    Carries x id (parseItems closing item) (parseItems closing item') := by
  refine .loop (fun _ => ?_) _
  refine (carries_atSymbol _).bind fun _ => .ite .pure <| (carries_separator _).bind fun _ => ?_
  exact (carries_atSymbol _).bind fun _ => .ite .pure (h.bind fun _ => .pure)

theorem carries_list (hg : g.Continues x g') : Carries x id (parseList g) (parseList g') :=
  (carries_expect _).bind fun _ => (carries_items (hg.expression true true)).bind fun _ =>
    (carries_expect _).bind fun _ => .pure

theorem carries_entry (hg : g.Continues x g') : Carries x id (parseEntry g) (parseEntry g') :=
  (hg.expression true true).bind fun _ => (carries_expect _).bind fun _ =>
    (hg.expression true true).bind fun _ => .pure

theorem carries_dict (hg : g.Continues x g') : Carries x id (parseDict g) (parseDict g') :=
  (carries_expect _).bind fun _ => (carries_items (carries_entry hg)).bind fun _ =>
    (carries_expect _).bind fun _ => .pure

theorem carries_string (first : String) : Carries x id (parseString first) (parseString first) := by
  refine .loop (fun _ => ?_) _
  refine carries_current.bind fun t => ?_
  split
  · exact carries_step.bind fun _ => .pure
  · exact .pure

/-- **Primaries.** -/
theorem carries_primary (hg : g.Continues x g') : Carries x id (parsePrimary g) (parsePrimary g') := by
  refine carries_current.bind fun t => ?_
  split
  · refine carries_step.bind fun _ => ?_
    split
    · exact .pure
    · exact .pure
  · exact carries_step.bind fun _ => (carries_string _).bind fun _ => .pure
  · exact carries_step.bind fun _ => .pure
  · exact carries_step.bind fun _ => .pure
  · exact carries_step.bind fun _ => hg.group.bind fun _ => (carries_expect _).bind fun _ => .pure
  · exact carries_list hg
  · exact carries_dict hg
  · exact carries_step.bind fun _ => hg.range t _ _
  · exact carries_failAt

/-! ### Members, subscripts and calls -/

theorem carries_slicePart (hg : g.Continues x g') (ends : List Symbol) :
    Carries x id (parseSlicePart g ends) (parseSlicePart g' ends) :=
  carries_current.bind fun _ => .ite .pure ((hg.expression true true).bind fun _ => .pure)

theorem carries_sliceFrom (hg : g.Continues x g') (start : Option Expr) (line : Nat) :
    Carries x id (parseSliceFrom g start line) (parseSliceFrom g' start line) :=
  (carries_slicePart hg _).bind fun _ => (carries_skipIf _).bind fun _ =>
    .ite ((carries_slicePart hg _).bind fun _ => .pure) .pure

theorem carries_subscript (hg : g.Continues x g') :
    Carries x id (parseSubscript g) (parseSubscript g') := by
  refine carries_current.bind fun _ => (carries_skipIf _).bind fun _ =>
    .ite (carries_sliceFrom hg none _) ?_
  refine (hg.expression true true).bind fun e => (carries_skipIf _).bind fun _ => ?_
  exact .ite (carries_sliceFrom hg (some e) _) .pure

theorem carries_subscripts (hg : g.Continues x g') :
    Carries x id (parseSubscripts g) (parseSubscripts g') := by
  refine .loop (fun _ => ?_) _
  refine (carries_atSymbol _).bind fun _ => .ite .pure <| (carries_separator _).bind fun _ => ?_
  exact (carries_subscript hg).bind fun _ => .pure

theorem carries_member (node : Expr) (line : Nat) :
    Carries x id (parseMember node line) (parseMember node line) := by
  refine carries_advance.bind fun t => ?_
  split
  · exact .pure
  · exact .pure
  · exact carries_failAt

theorem carries_item (hg : g.Continues x g') (node : Expr) (line : Nat) :
    Carries x id (parseItem g node line) (parseItem g' node line) := by
  refine (carries_subscripts hg).bind fun _ => (carries_expect _).bind fun _ => ?_
  split
  · exact .pure
  · exact .pure

theorem carries_postfixed (hg : g.Continues x g') (node : Expr) :
    Carries x id (parsePostfix g node) (parsePostfix g' node) := by
  refine .loop (fun node => ?_) _
  refine carries_current.bind fun t => ?_
  split
  · exact carries_step.bind fun _ => (carries_member node _).bind fun _ => .pure
  · exact carries_step.bind fun _ => (carries_item hg node _).bind fun _ => .pure
  · exact (carries_call hg node).bind fun _ => .pure
  · exact .pure

/-! ### Signs and tests -/

theorem carries_testArguments (hg : g.Continues x g') :
    Carries x id (parseTestArguments g) (parseTestArguments g') :=
  carries_current.bind fun _ => .ite (carries_arguments hg) <|
    .ite (.ite carries_fail ((carries_primary hg).bind fun _ => .pure)) .pure

theorem carries_test (hg : g.Continues x g') (node : Expr) :
    Carries x id (parseTest g node) (parseTest g' node) :=
  carries_advance.bind fun _ => (carries_skipIf _).bind fun _ => (carries_expect _).bind fun _ =>
    (carries_dottedName _).bind fun _ => (carries_testArguments hg).bind fun _ => .pure

theorem carries_trailers (hg : g.Continues x g') (node : Expr) :
    Carries x id (parseTrailers g node) (parseTrailers g' node) := by
  refine .loop (fun node => ?_) _
  refine carries_current.bind fun _ => .ite ?_ (.ite ?_ (.ite ?_ .pure))
  · exact (carries_filters hg (some node) false).bind fun _ => .pure
  · exact (carries_test hg node).bind fun _ => .pure
  · exact (carries_call hg node).bind fun _ => .pure

theorem carries_sign (hg : g.Continues x g') : Carries x id (parseSign g) (parseSign g') := by
  refine carries_current.bind fun _ => .ite ?_ (.ite ?_ (carries_primary hg))
  · exact carries_step.bind fun _ => hg.signed.bind fun _ => .pure
  · exact carries_step.bind fun _ => hg.signed.bind fun _ => .pure

theorem carries_signed (hg : g.Continues x g') (filters : Bool) :
    Carries x id (parseSigned g filters) (parseSigned g' filters) :=
  (carries_sign hg).bind fun e => (carries_postfixed hg e).bind fun e =>
    .ite (carries_trailers hg e) .pure

/-! ### Operators -/

theorem carries_product (hg : g.Continues x g') (filters : Bool) :
    Carries x id (parseProduct g filters) (parseProduct g' filters) :=
  carries_leftChain (carries_leftChain (carries_signed hg filters) _) _

theorem carries_concat (hg : g.Continues x g') (filters : Bool) :
    Carries x id (parseConcat g filters) (parseConcat g' filters) := by
  have hnodes : Carries x id (parseConcatNodes g filters) (parseConcatNodes g' filters) := by
    refine (carries_product hg filters).bind fun _ => .loop (fun _ => ?_) _
    exact (carries_skipIf _).bind fun _ => .ite ((carries_product hg filters).bind fun _ => .pure) .pure
  refine carries_current.bind fun _ => hnodes.bind fun _ => ?_
  split
  · exact .pure
  · exact .pure

theorem carries_sum (hg : g.Continues x g') (filters : Bool) :
    Carries x id (parseSum g filters) (parseSum g' filters) :=
  carries_leftChain (carries_concat hg filters) _

theorem carries_comparison : Carries x id parseComparison? parseComparison? := by
  refine carries_current.bind fun t => ?_
  split
  · exact carries_step.bind fun _ => .pure
  · refine .ite (carries_step.bind fun _ => .pure) <| carries_look fun after after' hafter => ?_
    rw [isName_eq_of_alike hafter]
    exact .ite (carries_skip_two.bind fun _ => .pure) .pure

theorem carries_compare (hg : g.Continues x g') (filters : Bool) :
    Carries x id (parseCompare g filters) (parseCompare g' filters) := by
  have hoperands (line : Nat) :
      Carries x id (parseOperands g filters line) (parseOperands g' filters line) := by
    refine .loop (fun _ => ?_) _
    refine carries_comparison.bind fun op => ?_
    cases op with
    | none => exact .pure
    | some op => exact (carries_sum hg filters).bind fun _ => carries_current.bind fun _ => .pure
  exact carries_current.bind fun _ => (carries_sum hg filters).bind fun _ => (hoperands _).bind fun _ =>
    .pure

theorem carries_negation (hg : g.Continues x g') (filters : Bool) :
    Carries x id (parseNegation g filters) (parseNegation g' filters) := by
  refine carries_current.bind fun _ => .ite ?_ (carries_compare hg filters)
  exact carries_step.bind fun _ => (hg.negation filters).bind fun _ => .pure

theorem carries_or (hg : g.Continues x g') (filters : Bool) :
    Carries x id (parseOr g filters) (parseOr g' filters) :=
  carries_leftChain (carries_leftChain (carries_negation hg filters) _) _

theorem carries_conditional (hg : g.Continues x g') (filters : Bool) :
    Carries x id (parseConditional g filters) (parseConditional g' filters) := by
  have helse : Carries x id (parseElse? g) (parseElse? g') := (carries_skipIf _).bind fun _ =>
    .ite ((hg.expression true true).bind fun _ => .pure) .pure
  refine carries_current.bind fun _ => (carries_or hg filters).bind fun _ =>
    .loop (fun _ => ?_) _
  refine (carries_skipIf _).bind fun _ => .ite ?_ .pure
  exact (carries_or hg filters).bind fun _ => helse.bind fun _ => carries_current.bind fun _ => .pure

/-- **Expressions.** -/
theorem carries_expression (hg : g.Continues x g') (conditional filters : Bool) :
    Carries x id (parseExpression g conditional filters) (parseExpression g' conditional filters) :=
  .ite (carries_conditional hg filters) (carries_or hg filters)

/-! ### Tuples and targets -/

theorem carries_tupleItem (hg : g.Continues x g') (item : TupleItem) :
    Carries x id (parseTupleItem g item) (parseTupleItem g' item) := by
  cases item with
  | primary => exact carries_primary hg
  | expression conditional => exact carries_expression hg conditional true

/-- **Tuples.** -/
theorem carries_tuple (hg : g.Continues x g') (item : TupleItem) (ends : List TokenRule)
    (parentheses : Bool) :
    Carries x id (parseTuple g item ends parentheses) (parseTuple g' item ends parentheses) := by
  have hitems (line : Nat) :
      Carries x id (parseTupleItems g item ends line) (parseTupleItems g' item ends line) := by
    refine .loop (fun _ => ?_) _
    refine (carries_separator _).bind fun _ => carries_current.bind fun _ => .ite .pure ?_
    exact (carries_tupleItem hg item).bind fun _ => carries_current.bind fun _ => .ite .pure .pure
  refine carries_current.bind fun _ => (hitems _).bind fun read => ?_
  split
  · exact .pure
  · exact .ite .pure (carries_current.bind fun _ => carries_fail)
  · exact .pure

theorem carries_assignable (target : Expr) :
    Carries x id (requireAssignable target) (requireAssignable target) :=
  .ite .pure carries_failAt

theorem carries_targetName : Carries x id parseTargetName parseTargetName :=
  (carries_expect _).bind fun _ => carries_assignable _

theorem carries_target (hg : g.Continues x g') (withTuple : Bool) (ends : List TokenRule) :
    Carries x id (parseTarget g withTuple ends) (parseTarget g' withTuple ends) := by
  cases withTuple with
  | true => exact (carries_tuple hg _ _ _).bind fun _ => carries_assignable _
  | false => exact (carries_primary hg).bind fun _ => carries_assignable _

/-! ### Grammars -/

section Grammars

variable {m n : Nat}

/-- **What is read below a bound**, which is higher for the second parser. -/
theorem carries_guarded {β : Type} {r : α → β} {p : Nat → Parser α} {p' : Nat → Parser β}
    (hroom : m + x.extra ≤ n) (h : ∀ i j, i < m → i + x.extra ≤ j → Carries x r (p i) (p' j)) :
    Carries x r (guarded m fun s _ => p s.weight s) (guarded n fun s _ => p' s.weight s) := by
  intro s y t hy
  obtain ⟨hlt, hy⟩ := guarded_eq_ok hy
  refine ⟨(h s.weight _ hlt (Nat.le_refl _) s y t hy).1, fun hin s' hs => ?_⟩
  have hweight := hs.weight
  obtain ⟨t', ht', ht⟩ := (h s.weight s'.weight hlt (Nat.le_of_eq hweight.symm) s y t hy).2 hin s' hs
  exact ⟨t', (guarded_of_lt (by omega)).trans ht', ht⟩

/-- **What is read with the grammar for what is left.** -/
theorem carries_weighed {β : Type} {r : α → β} {p : Nat → Parser α} {p' : Nat → Parser β}
    (h : ∀ i j, i + x.extra ≤ j → Carries x r (p i) (p' j)) :
    Carries x r (fun s => p s.weight s) (fun s => p' s.weight s) := by
  intro s y t hy
  refine ⟨(h s.weight _ (Nat.le_refl _) s y t hy).1, fun hin s' hs => ?_⟩
  exact (h s.weight s'.weight (Nat.le_of_eq hs.weight.symm) s y t hy).2 hin s' hs

/-- A success on a stream of its own. -/
theorem Parser.Carries.alone {p q : Parser Expr} (h : Carries .alone id p q) {e : Expr}
    {a b : TokenStream} {u : ParserState} (htokens : b.tokens = a.tokens)
    (hp : p { stream := a } = .ok e u) :
    ∃ v, q { stream := b } = .ok e v ∧ v.stream.current = u.stream.current := by
  have hin : Sequel.alone.Inside u := ⟨u.stream.current, u.stream.later, (List.append_nil _).symm⟩
  have halong : Sequel.alone.Along { stream := a } { stream := b } :=
    ⟨⟨a.tokens, (List.append_nil _).symm, htokens.trans (List.append_nil _).symm⟩, rfl⟩
  obtain ⟨v, hv, huv⟩ := (h _ _ _ hp).2 hin _ halong
  exact ⟨v, hv, huv.current hin⟩

/-- **Range literals**, if expressions on streams of their own are read the same. -/
theorem carries_range (h : ∀ conditional filters,
      Carries .alone id (g.expression conditional filters) (g'.expression conditional filters))
    (t : Token) (start stop : String) :
    Carries x id (parseRange g t start stop) (parseRange g' t start stop) := by
  have hbound {text : String} {ts : List Token} (hts : g.ReadsBound text t ts) :
      g'.ReadsBound text t ts := by
    obtain ⟨e, u, hu, hend⟩ := hts.alone
    obtain ⟨v, hv, hcurrent⟩ := (h false false).alone rfl hu
    exact ⟨hts.tokens, hts.ne_nil, e, v, hv, hcurrent ▸ hend⟩
  intro s e t' ht
  obtain ⟨rfl, first, last, hfirst, hlast, u, hu, hend⟩ := parseRange_eq_ok.1 ht
  refine ⟨List.suffix_refl _, fun _ s' hs => ⟨s', ?_, hs⟩⟩
  have htokens : (TokenStream.ofTokens (rangeTokens t first last) s'.stream.name
      s'.stream.filename).tokens = (TokenStream.ofTokens (rangeTokens t first last) t'.stream.name
      t'.stream.filename).tokens := by
    rw [TokenStream.tokens_ofTokens, TokenStream.tokens_ofTokens]
  obtain ⟨v, hv, hcurrent⟩ := (h true true).alone htokens hu
  exact parseRange_eq_ok.2 ⟨rfl, first, last, hbound hfirst, hbound hlast, v, hv, hcurrent ▸ hend⟩

/-- **The bounded grammars**, since their references are to those of smaller bounds. -/
theorem continues_below (env : Environment) (hroom : m + x.extra ≤ n) :
    (below env m).Continues x (below env n) := by
  induction m using Nat.strongRecOn generalizing n x with
  | _ m ih =>
    have hexpression {y : Sequel} (hroom : m + y.extra ≤ n) (conditional filters : Bool) :
        Carries y id ((below env m).expression conditional filters)
          ((below env n).expression conditional filters) := by
      rw [below_expression, below_expression]
      exact carries_guarded hroom fun i j hi hj => carries_expression (ih i hi hj) conditional filters
    have halone : m + Sequel.alone.extra ≤ n := Nat.le_trans (Nat.le_add_right m x.extra) hroom
    refine { expression := hexpression hroom, negation := ?_, signed := ?_, group := ?_,
             range := carries_range (hexpression halone) }
    · intro filters
      rw [below_negation, below_negation]
      exact carries_guarded hroom fun i j hi hj => carries_negation (ih i hi hj) filters
    · rw [below_signed, below_signed]
      exact carries_guarded hroom fun i j hi hj => carries_signed (ih i hi hj) false
    · rw [below_group, below_group]
      exact carries_guarded hroom fun i j hi hj => carries_tuple (ih i hi hj) _ _ _

/-- The grammar of an environment. -/
theorem continues_grammar (env : Environment) (x : Sequel) :
    env.grammar.Continues x env.grammar := by
  have hexpression (y : Sequel) (conditional filters : Bool) :
      Carries y id (env.grammar.expression conditional filters)
        (env.grammar.expression conditional filters) :=
    carries_weighed fun i j hj => carries_expression (continues_below env hj) conditional filters
  refine { expression := hexpression x, negation := ?_, signed := ?_, group := ?_,
           range := carries_range (hexpression .alone) }
  · exact fun filters => carries_weighed fun i j hj => carries_negation (continues_below env hj) filters
  · exact carries_weighed fun i j hj => carries_signed (continues_below env hj) false
  · exact carries_weighed fun i j hj => carries_tuple (continues_below env hj) _ _ _

end Grammars

end LiquidTemplate
