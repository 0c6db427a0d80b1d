import LiquidTemplate.Grammar.Operators
import LiquidTemplate.Proofs.Conduct.Rules

/-!
# Conduct of expressions

Every production of an expression obeys the rules of conduct that those productions obey to which it
refers.

* `Grammar.Minds`: a grammar whose expressions obey the rules.
* `obeys_arguments`, `obeys_primary`, `obeys_expression`, `obeys_tuple`: the productions.
-/

namespace LiquidTemplate

open LiquidTemplate.Parser LiquidTemplate.Grammar

variable {α : Type} {c : Conduct} {g : Grammar}

/-- **Expressions that obey the rules**: all those of a grammar, and range literals, whose bounds are
read from streams of their own. -/
structure Grammar.Minds (c : Conduct) (g : Grammar) : Prop where
  expression : ∀ conditional filters, Obeys c (g.expression conditional filters)
  negation : ∀ filters, Obeys c (g.negation filters)
  signed : Obeys c g.signed
  group : Obeys c g.group
  range : ∀ t start stop, Obeys c (parseRange g t start stop)

/-! ### Arguments -/

theorem obeys_require (ok : Bool) (line : Nat) : Obeys c (require ok line) :=
  .ite .pure (obeys_failAt line nofun)

theorem obeys_separator (needed : Bool) : Obeys c (parseSeparator needed) :=
  .ite ((obeys_expect _).bind fun _ => .pure) .pure

theorem obeys_plainArgument (hg : g.Minds c) (form : ArgumentForm) (line : Nat)
    (args : Arguments Expr) : Obeys c (parsePlainArgument g form line args) := by
  refine (obeys_require _ line).bind fun _ => obeys_current.bind fun _ => obeys_look.bind fun _ => ?_
  split
  · exact obeys_skip_two.bind fun _ => (hg.expression true _).bind fun _ => .pure
  · exact (obeys_require _ line).bind fun _ => (hg.expression true _).bind fun _ => .pure

theorem obeys_argument (hg : g.Minds c) (form : ArgumentForm) (line : Nat) (args : Arguments Expr) :
    Obeys c (parseArgument g form line args) := by
  refine (obeys_atSymbol _).bind fun _ => .ite ?_ <| (obeys_atSymbol _).bind fun _ => .ite ?_ ?_
  · exact (obeys_require _ line).bind fun _ => obeys_step.bind fun _ =>
      (hg.expression true true).bind fun _ => .pure
  · exact (obeys_require _ line).bind fun _ => obeys_step.bind fun _ =>
      (hg.expression true true).bind fun _ => .pure
  · exact obeys_plainArgument hg form line args

theorem obeys_argumentList (hg : g.Minds c) (form : ArgumentForm) (line : Nat) :
    Obeys c (parseArgumentList g form line) := by
  refine .loop (fun x => ?_) _
  refine obeys_current.bind fun _ => .ite .pure ?_
  refine (obeys_separator _).bind fun _ => obeys_current.bind fun _ => .ite .pure ?_
  exact (obeys_argument hg form line _).bind fun _ => .pure

theorem obeys_arguments (hg : g.Minds c) : Obeys c (parseArguments g) := by
  refine obeys_current.bind fun t => ?_
  cases ArgumentForm.ofToken? t with
  | none => exact obeys_failAt _ nofun
  | some form =>
    refine obeys_step.bind fun _ => (obeys_argumentList hg form _).bind fun _ => ?_
    exact .ite (obeys_step.bind fun _ => .pure) .pure

theorem obeys_optionalArguments (hg : g.Minds c) : Obeys c (parseOptionalArguments g) :=
  obeys_current.bind fun _ => .ite (obeys_arguments hg) .pure

/-! ### Calls and filters -/

theorem obeys_dottedName (first : String) : Obeys c (parseDottedName first) :=
  .loop (fun _ => (obeys_skipIf _).bind fun _ => .ite ((obeys_expect _).bind fun _ => .pure) .pure) _

theorem obeys_filterName (hg : g.Minds c) (node : Option Expr) : Obeys c (parseFilterName g node) :=
  (obeys_expect _).bind fun _ => (obeys_dottedName _).bind fun _ =>
    (obeys_optionalArguments hg).bind fun _ => .pure

theorem obeys_filters (hg : g.Minds c) (node : Option Expr) (bare : Bool) :
    Obeys c (parseFilters g node bare) := by
  refine .loop (fun x => ?_) _
  obtain ⟨node, bare⟩ := x
  refine .ite ((obeys_filterName hg node).bind fun _ => .pure) ?_
  refine (obeys_skipIf _).bind fun _ => .ite ((obeys_filterName hg node).bind fun _ => .pure) ?_
  cases node with
  | none => exact obeys_fail nofun
  | some e => exact .pure

theorem obeys_call (hg : g.Minds c) (node : Expr) : Obeys c (parseCall g node) :=
  obeys_current.bind fun _ => (obeys_arguments hg).bind fun _ => .pure

/-! ### Primaries -/

theorem obeys_items {closing : Symbol} {item : Parser α} (h : Obeys c item) :
    Obeys c (parseItems closing item) := by
  refine .loop (fun _ => ?_) _
  refine (obeys_atSymbol _).bind fun _ => .ite .pure <| (obeys_separator _).bind fun _ => ?_
  exact (obeys_atSymbol _).bind fun _ => .ite .pure (h.bind fun _ => .pure)

theorem obeys_list (hg : g.Minds c) : Obeys c (parseList g) :=
  (obeys_expect _).bind fun _ => (obeys_items (hg.expression true true)).bind fun _ =>
    (obeys_expect _).bind fun _ => .pure

theorem obeys_entry (hg : g.Minds c) : Obeys c (parseEntry g) :=
  (hg.expression true true).bind fun _ => (obeys_expect _).bind fun _ =>
    (hg.expression true true).bind fun _ => .pure

theorem obeys_dict (hg : g.Minds c) : Obeys c (parseDict g) :=
  (obeys_expect _).bind fun _ => (obeys_items (obeys_entry hg)).bind fun _ =>
    (obeys_expect _).bind fun _ => .pure

theorem obeys_string (first : String) : Obeys c (parseString first) := by
  refine .loop (fun _ => ?_) _
  refine obeys_current.bind fun t => ?_
  split
  · exact obeys_step.bind fun _ => .pure
  · exact .pure

/-- **Primaries** obey. -/
theorem obeys_primary (hg : g.Minds c) : Obeys c (parsePrimary g) := by
  refine obeys_current.bind fun t => ?_
  split
  · refine obeys_step.bind fun _ => ?_
    split
    · exact .pure
    · exact .pure
  · exact obeys_step.bind fun _ => (obeys_string _).bind fun _ => .pure
  · exact obeys_step.bind fun _ => .pure
  · exact obeys_step.bind fun _ => .pure
  · exact obeys_step.bind fun _ => hg.group.bind fun _ => (obeys_expect _).bind fun _ => .pure
  · exact obeys_list hg
  · exact obeys_dict hg
  · exact obeys_step.bind fun _ => hg.range t _ _
  · exact obeys_failAt _ nofun

/-! ### Members, subscripts and calls -/

theorem obeys_slicePart (hg : g.Minds c) (ends : List Symbol) : Obeys c (parseSlicePart g ends) :=
  obeys_current.bind fun _ => .ite .pure ((hg.expression true true).bind fun _ => .pure)

theorem obeys_sliceFrom (hg : g.Minds c) (start : Option Expr) (line : Nat) :
    Obeys c (parseSliceFrom g start line) :=
  (obeys_slicePart hg _).bind fun _ => (obeys_skipIf _).bind fun _ =>
    .ite ((obeys_slicePart hg _).bind fun _ => .pure) .pure

theorem obeys_subscript (hg : g.Minds c) : Obeys c (parseSubscript g) := by
  refine obeys_current.bind fun _ => (obeys_skipIf _).bind fun _ =>
    .ite (obeys_sliceFrom hg none _) ?_
  refine (hg.expression true true).bind fun e => (obeys_skipIf _).bind fun _ => ?_
  exact .ite (obeys_sliceFrom hg (some e) _) .pure

theorem obeys_subscripts (hg : g.Minds c) : Obeys c (parseSubscripts g) := by
  refine .loop (fun _ => ?_) _
  refine (obeys_atSymbol _).bind fun _ => .ite .pure <| (obeys_separator _).bind fun _ => ?_
  exact (obeys_subscript hg).bind fun _ => .pure

theorem obeys_member (node : Expr) (line : Nat) : Obeys c (parseMember node line) := by
  refine obeys_advance.bind fun t => ?_
  split
  · exact .pure
  · exact .pure
  · exact obeys_failAt _ nofun

theorem obeys_item (hg : g.Minds c) (node : Expr) (line : Nat) : Obeys c (parseItem g node line) := by
  refine (obeys_subscripts hg).bind fun _ => (obeys_expect _).bind fun _ => ?_
  split
  · exact .pure
  · exact .pure

theorem obeys_postfixed (hg : g.Minds c) (node : Expr) : Obeys c (parsePostfix g node) := by
  refine .loop (fun node => ?_) _
  refine obeys_current.bind fun t => ?_
  split
  · exact obeys_step.bind fun _ => (obeys_member node _).bind fun _ => .pure
  · exact obeys_step.bind fun _ => (obeys_item hg node _).bind fun _ => .pure
  · exact (obeys_call hg node).bind fun _ => .pure
  · exact .pure

/-! ### Signs and tests -/

theorem obeys_testArguments (hg : g.Minds c) : Obeys c (parseTestArguments g) :=
  obeys_current.bind fun _ => .ite (obeys_arguments hg) <|
    .ite (.ite (obeys_fail nofun) ((obeys_primary hg).bind fun _ => .pure)) .pure

theorem obeys_test (hg : g.Minds c) (node : Expr) : Obeys c (parseTest g node) :=
  obeys_advance.bind fun _ => (obeys_skipIf _).bind fun _ => (obeys_expect _).bind fun _ =>
    (obeys_dottedName _).bind fun _ => (obeys_testArguments hg).bind fun _ => .pure

theorem obeys_trailers (hg : g.Minds c) (node : Expr) : Obeys c (parseTrailers g node) := by
  refine .loop (fun node => ?_) _
  refine obeys_current.bind fun _ => .ite ?_ (.ite ?_ (.ite ?_ .pure))
  · exact (obeys_filters hg (some node) false).bind fun _ => .pure
  · exact (obeys_test hg node).bind fun _ => .pure
  · exact (obeys_call hg node).bind fun _ => .pure

theorem obeys_sign (hg : g.Minds c) : Obeys c (parseSign g) := by
  refine obeys_current.bind fun _ => .ite ?_ (.ite ?_ (obeys_primary hg))
  · exact obeys_step.bind fun _ => hg.signed.bind fun _ => .pure
  · exact obeys_step.bind fun _ => hg.signed.bind fun _ => .pure

theorem obeys_signed (hg : g.Minds c) (filters : Bool) : Obeys c (parseSigned g filters) :=
  (obeys_sign hg).bind fun e => (obeys_postfixed hg e).bind fun e =>
    .ite (obeys_trailers hg e) .pure

/-! ### Operators -/

theorem obeys_product (hg : g.Minds c) (filters : Bool) : Obeys c (parseProduct g filters) :=
  obeys_leftChain (obeys_leftChain (obeys_signed hg filters) _) _

theorem obeys_concat (hg : g.Minds c) (filters : Bool) : Obeys c (parseConcat g filters) := by
  have hnodes : Obeys c (parseConcatNodes g filters) := by
    refine (obeys_product hg filters).bind fun _ => .loop (fun _ => ?_) _
    exact (obeys_skipIf _).bind fun _ => .ite ((obeys_product hg filters).bind fun _ => .pure) .pure
  refine obeys_current.bind fun _ => hnodes.bind fun _ => ?_
  split
  · exact .pure
  · exact .pure

theorem obeys_sum (hg : g.Minds c) (filters : Bool) : Obeys c (parseSum g filters) :=
  obeys_leftChain (obeys_concat hg filters) _

theorem obeys_comparison : Obeys c parseComparison? := by
  refine obeys_current.bind fun t => ?_
  split
  · exact obeys_step.bind fun _ => .pure
  · refine .ite (obeys_step.bind fun _ => .pure) <| obeys_look.bind fun _ => ?_
    exact .ite (obeys_skip_two.bind fun _ => .pure) .pure

theorem obeys_compare (hg : g.Minds c) (filters : Bool) : Obeys c (parseCompare g filters) := by
  have hoperands (line : Nat) : Obeys c (parseOperands g filters line) := by
    refine .loop (fun x => ?_) _
    refine obeys_comparison.bind fun op => ?_
    cases op with
    | none => exact .pure
    | some op => exact (obeys_sum hg filters).bind fun _ => obeys_current.bind fun _ => .pure
  exact obeys_current.bind fun _ => (obeys_sum hg filters).bind fun _ => (hoperands _).bind fun _ =>
    .pure

theorem obeys_negation (hg : g.Minds c) (filters : Bool) : Obeys c (parseNegation g filters) := by
  refine obeys_current.bind fun _ => .ite ?_ (obeys_compare hg filters)
  exact obeys_step.bind fun _ => (hg.negation filters).bind fun _ => .pure

theorem obeys_or (hg : g.Minds c) (filters : Bool) : Obeys c (parseOr g filters) :=
  obeys_leftChain (obeys_leftChain (obeys_negation hg filters) _) _

theorem obeys_conditional (hg : g.Minds c) (filters : Bool) :
    Obeys c (parseConditional g filters) := by
  have helse : Obeys c (parseElse? g) := (obeys_skipIf _).bind fun _ =>
    .ite ((hg.expression true true).bind fun _ => .pure) .pure
  refine obeys_current.bind fun _ => (obeys_or hg filters).bind fun _ => .loop (fun _ => ?_) _
  refine (obeys_skipIf _).bind fun _ => .ite ?_ .pure
  exact (obeys_or hg filters).bind fun _ => helse.bind fun _ => obeys_current.bind fun _ => .pure

/-- **Expressions** obey. -/
theorem obeys_expression (hg : g.Minds c) (conditional filters : Bool) :
    Obeys c (parseExpression g conditional filters) :=
  .ite (obeys_conditional hg filters) (obeys_or hg filters)

/-! ### Tuples and targets -/

theorem obeys_tupleItem (hg : g.Minds c) (item : TupleItem) : Obeys c (parseTupleItem g item) := by
  cases item with
  | primary => exact obeys_primary hg
  | expression conditional => exact obeys_expression hg conditional true

/-- **Tuples** obey. -/
theorem obeys_tuple (hg : g.Minds c) (item : TupleItem) (ends : List TokenRule)
    (parentheses : Bool) : Obeys c (parseTuple g item ends parentheses) := by
  have hitems (line : Nat) : Obeys c (parseTupleItems g item ends line) := by
    refine .loop (fun _ => ?_) _
    refine (obeys_separator _).bind fun _ => obeys_current.bind fun _ => .ite .pure ?_
    exact (obeys_tupleItem hg item).bind fun _ => obeys_current.bind fun _ => .ite .pure .pure
  refine obeys_current.bind fun _ => (hitems _).bind fun _ => ?_
  split
  · exact .pure
  · exact .ite .pure (obeys_current.bind fun _ => obeys_fail nofun)
  · exact .pure

theorem obeys_anyTuple (hg : g.Minds c) : Obeys c (parseAnyTuple g) :=
  obeys_tuple hg _ _ _

theorem obeys_assignable (target : Expr) : Obeys c (requireAssignable target) :=
  .ite .pure (obeys_failAt _ nofun)

theorem obeys_targetName : Obeys c parseTargetName :=
  (obeys_expect _).bind fun _ => obeys_assignable _

theorem obeys_target (hg : g.Minds c) (withTuple : Bool) (ends : List TokenRule) :
    Obeys c (parseTarget g withTuple ends) := by
  cases withTuple with
  | true => exact (obeys_tuple hg _ _ _).bind fun _ => obeys_assignable _
  | false => exact (obeys_primary hg).bind fun _ => obeys_assignable _

end LiquidTemplate
