import LiquidTemplate.Proofs.Progress.Rounds
import LiquidTemplate.Proofs.Progress.Routes

/-!
# Expressions on a route

Every production of an expression consumes a token before it refers to another one through the
grammar. So it keeps to its route where at most as much is left to read as the grammar can do, plus
one token.

* `Grammar.Follows`: two grammars whose expressions agree where less than a bound is left.
* `tracks_primary`, `tracks_expression`, `tracks_target`: productions that consume a token.
* `tracks_tuple`: tuples, which can be empty between parentheses only.
-/

namespace LiquidTemplate

open LiquidTemplate.Parser LiquidTemplate.Grammar

variable {α : Type} {r : Route} {n : Nat} {g g' : Grammar} {s : ParserState}

/-- **Two grammars whose expressions agree** where less than `n` is left to read. -/
structure Grammar.Follows (n : Nat) (g g' : Grammar) : Prop where
  expression : ∀ r conditional filters,
    Tracks r n (g.expression conditional filters) (g'.expression conditional filters) Moving r.Holds
  negation : ∀ r filters, Tracks r n (g.negation filters) (g'.negation filters) Moving r.Holds
  signed : ∀ r, Tracks r n g.signed g'.signed Moving r.Holds
  group : ∀ r, Tracks r n g.group g'.group Idle r.Holds
  range : ∀ {r : Route} {t start stop}, t ∈ r.tokens → t.kind = .range start stop → t.weight ≤ n →
    Tracks r n (parseRange g t start stop) (parseRange g' t start stop) Idle r.Holds

/-! ### Arguments -/

theorem tracks_require (ok : Bool) {line : Nat} (hline : r.lines line) :
    Tracks r n (require ok line) (require ok line) Idle Anything :=
  .ite (.pure trivial) (tracks_failAt hline trivial)

theorem tracks_separator (needed : Bool) :
    Tracks r n (parseSeparator needed) (parseSeparator needed) Idle Anything :=
  .ite ((tracks_expect _).idle.bind fun _ _ => .pure trivial) (.pure trivial)

theorem ArgumentForm.isEnd_of_ofToken? {t : Token} {form : ArgumentForm}
    (h : ofToken? t = some form) : t.isEnd = false := by
  refine Bool.eq_false_iff.2 fun hend => ?_
  have hkind := Token.isEnd_iff.1 hend
  simp [ofToken?, Token.isSymbol, Token.type, hkind, Token.Kind.type] at h

theorem tracks_nextDot (name : String) :
    Tracks r n (parseNextDot name) (parseNextDot name) Going (Sum.elim Anything Anything) :=
  .skips ((tracks_expect _).idle.bind fun _ _ => .pure trivial) (.last trivial)

theorem tracks_dottedName (first : String) :
    Tracks r n (parseDottedName first) (parseDottedName first) Idle Anything :=
  .loopAny tracks_nextDot

section Arguments

variable (hg : g.Follows n g')
include hg

theorem tracks_plainArgument (form : ArgumentForm) {line : Nat} (hline : r.lines line)
    (args : Arguments Expr) :
    Tracks r n (parsePlainArgument g form line args) (parsePlainArgument g' form line args) Moving
      Anything := by
  refine (tracks_require _ hline).bind fun _ _ => tracks_current.bind fun t _ =>
    tracks_look.bind fun after _ => ?_
  cases t.name? with
  | none =>
    exact (tracks_require _ hline).bind fun _ _ =>
      (hg.expression r true _).andThen fun _ _ => .pure trivial
  | some key =>
    cases after.isSymbol .assign with
    | true =>
      exact tracks_skip_two.bind fun _ _ => (hg.expression r true _).andThen fun _ _ => .pure trivial
    | false =>
      exact (tracks_require _ hline).bind fun _ _ =>
        (hg.expression r true _).andThen fun _ _ => .pure trivial

theorem tracks_argument (form : ArgumentForm) {line : Nat} (hline : r.lines line)
    (args : Arguments Expr) :
    Tracks r n (parseArgument g form line args) (parseArgument g' form line args) Moving Anything := by
  refine (tracks_atSymbol _).bind fun _ _ => .ite ?_ <| (tracks_atSymbol _).bind fun _ _ => .ite ?_ ?_
  · exact (tracks_require _ hline).bind fun _ _ => tracks_step.bind fun _ _ =>
      (hg.expression r true true).andThen fun _ _ => .pure trivial
  · exact (tracks_require _ hline).bind fun _ _ => tracks_step.bind fun _ _ =>
      (hg.expression r true true).andThen fun _ _ => .pure trivial
  · exact tracks_plainArgument hg form hline args

theorem tracks_nextArgument (form : ArgumentForm) {line : Nat} (hline : r.lines line)
    (x : Arguments Expr × Bool) :
    Tracks r n (parseNextArgument g form line x) (parseNextArgument g' form line x) Going
      (Sum.elim Anything Anything) := by
  refine tracks_current.bind fun _ _ => .ite (.last trivial) ?_
  refine (tracks_separator _).bind fun _ _ => tracks_current.bind fun _ _ => .ite (.last trivial) ?_
  exact (tracks_argument hg form hline _).andThen fun _ _ => .pure trivial

theorem tracks_argumentList (form : ArgumentForm) {line : Nat} (hline : r.lines line) :
    Tracks r n (parseArgumentList g form line) (parseArgumentList g' form line) Idle Anything :=
  .loopAny fun x => tracks_nextArgument hg form hline x

/-- **Argument lists.** -/
theorem tracks_arguments :
    Tracks r (n + 1) (parseArguments g) (parseArguments g') Moving Anything := by
  refine .see fun s hs hw => ?_
  cases hform : ArgumentForm.ofToken? s.stream.current with
  | none => exact .failAt hs hs.current_line trivial
  | some form =>
    refine .step hs hw (ArgumentForm.isEnd_of_ofToken? hform) ?_
    refine (tracks_argumentList hg form hs.current_line).bind fun _ _ => ?_
    exact .ite (tracks_step.bind fun _ _ => .pure trivial) (.pure trivial)

theorem tracks_optionalArguments :
    Tracks r n (parseOptionalArguments g) (parseOptionalArguments g') Idle Anything :=
  tracks_current.bind fun _ _ =>
    .ite ((tracks_arguments hg).mono n.le_succ).idle (.pure trivial)

theorem tracks_call (node : Expr) :
    Tracks r n (parseCall g node) (parseCall g' node) Moving r.Holds :=
  tracks_current.bind fun _ ht => ((tracks_arguments hg).mono n.le_succ).andThen fun _ _ =>
    .pure (r.line_of_beneath _ ht)

/-! ### Filters -/

theorem tracks_filterName (node : Option Expr) :
    Tracks r n (parseFilterName g node) (parseFilterName g' node) Moving r.Holds :=
  (tracks_expect _).andThen fun _ ht => (tracks_dottedName _).bind fun _ _ =>
    (tracks_optionalArguments hg).bind fun _ _ => .pure (r.line_of_beneath _ ht)

theorem tracks_nextFilter (x : Option Expr × Bool) (hx : ∀ e ∈ x.1, r.Holds e) :
    Tracks r n (parseNextFilter g x) (parseNextFilter g' x) Going
      (Sum.elim (fun x => ∀ e ∈ x.1, r.Holds e) r.Holds) := by
  obtain ⟨node, bare⟩ := x
  have hnext (e : Expr) (he : r.Holds e) : ∀ e' ∈ some e, r.Holds e' :=
    fun _ h => Option.some.inj h ▸ he
  refine .ite ((tracks_filterName hg node).andThen fun e he => .pure (hnext e he)) ?_
  refine .skips ((tracks_filterName hg node).idle.bind fun e he => .pure (hnext e he)) ?_
  cases node with
  | none => exact tracks_fail trivial
  | some e => exact .last (hx e rfl)

theorem tracks_filters (node : Option Expr) (bare : Bool) (hnode : ∀ e ∈ node, r.Holds e) :
    Tracks r n (parseFilters g node bare) (parseFilters g' node bare) Idle r.Holds :=
  .loop (I := fun x => ∀ e ∈ x.1, r.Holds e) (fun x hx => tracks_nextFilter hg x hx) hnode

/-- Filters move if there is a pipe before the first of them. -/
theorem tracksAt_filters {e : Expr} (hs : r.On s) (hw : s.weight < n)
    (hpipe : s.stream.current.isSymbol .pipe = true) :
    TracksAt r s (parseFilters g (some e) false) (parseFilters g' (some e) false) Moving r.Holds := by
  refine .loop (I := fun x => ∀ e ∈ x.1, r.Holds e) hs hw ?_ fun x hx => tracks_nextFilter hg x hx
  refine .skipped hs hw hpipe ((tracks_filterName hg (some e)).idle.bind fun _ he => .pure ?_)
  exact fun _ h => Option.some.inj h ▸ he

/-! ### Lists and dictionaries -/

omit hg in
theorem tracks_nextItem {closing : Symbol} {item item' : Parser α}
    (h : Tracks r n item item' Moving Anything) (items : List α) :
    Tracks r n (parseNextItem closing item items) (parseNextItem closing item' items) Going
      (Sum.elim Anything Anything) := by
  refine (tracks_atSymbol _).bind fun _ _ => .ite (.last trivial) ?_
  refine (tracks_separator _).bind fun _ _ => (tracks_atSymbol _).bind fun _ _ => ?_
  exact .ite (.last trivial) (h.andThen fun _ _ => .pure trivial)

omit hg in
theorem tracks_items {closing : Symbol} {item item' : Parser α}
    (h : Tracks r n item item' Moving Anything) :
    Tracks r n (parseItems closing item) (parseItems closing item') Idle Anything :=
  .loopAny fun items => tracks_nextItem h items

theorem tracks_list : Tracks r (n + 1) (parseList g) (parseList g') Moving r.Holds := by
  refine (tracks_expect _).behind fun _ ht => ?_
  refine (tracks_items ((hg.expression r true true).imp fun _ _ => trivial)).bind fun _ _ => ?_
  exact (tracks_expect _).idle.bind fun _ _ => .pure (r.line_of_beneath _ ht)

theorem tracks_entry : Tracks r n (parseEntry g) (parseEntry g') Moving Anything :=
  (hg.expression r true true).andThen fun _ _ => (tracks_expect _).idle.bind fun _ _ =>
    (hg.expression r true true).idle.bind fun _ _ => .pure trivial

theorem tracks_dict : Tracks r (n + 1) (parseDict g) (parseDict g') Moving r.Holds :=
  (tracks_expect _).behind fun _ ht => (tracks_items (tracks_entry hg)).bind fun _ _ =>
    (tracks_expect _).idle.bind fun _ _ => .pure (r.line_of_beneath _ ht)

/-! ### Primaries -/

omit hg in
theorem tracks_nextString (text : String) :
    Tracks r n (parseNextString text) (parseNextString text) Going (Sum.elim Anything Anything) := by
  refine .see fun s hs hw => ?_
  split
  · next hk =>
    exact .step hs (Nat.lt_succ_of_lt hw) (Token.isEnd_of_kind hk nofun) (.pure trivial)
  · exact Tracks.last trivial s hs hw

omit hg in
theorem tracks_string (first : String) :
    Tracks r n (parseString first) (parseString first) Idle Anything :=
  .loopAny tracks_nextString

/-- **Primaries** consume a token. -/
theorem tracks_primary : Tracks r (n + 1) (parsePrimary g) (parsePrimary g') Moving r.Holds := by
  refine .see fun s hs hw => ?_
  have hline := hs.current_line
  split
  · next hk =>
    refine .step hs hw (Token.isEnd_of_kind hk nofun) ?_
    split
    · exact .pure hline
    · exact .pure hline
  · next hk =>
    exact .step hs hw (Token.isEnd_of_kind hk nofun) ((tracks_string _).bind fun _ _ => .pure hline)
  · next hk => exact .step hs hw (Token.isEnd_of_kind hk nofun) (.pure hline)
  · next hk => exact .step hs hw (Token.isEnd_of_kind hk nofun) (.pure hline)
  · next hk =>
    refine .step hs hw (Token.isEnd_of_kind hk nofun) ((hg.group r).bind fun _ he => ?_)
    exact (tracks_expect _).idle.bind fun _ _ => .pure he
  · exact tracks_list hg s hs hw
  · exact tracks_dict hg s hs hw
  · next hk =>
    have hweight := s.weight_current_le
    exact .step hs hw (Token.isEnd_of_kind hk nofun) (hg.range hs.current_mem hk (by omega))
  · exact .failAt hs hline trivial

/-! ### Members, subscripts and calls -/

theorem tracks_slicePart (ends : List Symbol) :
    Tracks r n (parseSlicePart g ends) (parseSlicePart g' ends) Idle Anything :=
  tracks_current.bind fun _ _ =>
    .ite (.pure trivial) ((hg.expression r true true).idle.bind fun _ _ => .pure trivial)

theorem tracks_sliceFrom (start : Option Expr) {line : Nat} (hline : r.lines line) :
    Tracks r n (parseSliceFrom g start line) (parseSliceFrom g' start line) Idle r.Holds :=
  (tracks_slicePart hg _).bind fun _ _ =>
    .skips ((tracks_slicePart hg _).bind fun _ _ => .pure hline) (.pure hline)

theorem tracks_subscript : Tracks r n (parseSubscript g) (parseSubscript g') Moving r.Holds := by
  refine tracks_current.bind fun t ht => ?_
  have hline := r.line_of_beneath t ht
  refine .skips (tracks_sliceFrom hg none hline) ?_
  refine (hg.expression r true true).andThen fun e he => ?_
  exact .skips (tracks_sliceFrom hg (some e) hline) (.pure he)

theorem tracks_nextSubscript (subscripts : List Expr) :
    Tracks r n (parseNextSubscript g subscripts) (parseNextSubscript g' subscripts) Going
      (Sum.elim Anything Anything) := by
  refine (tracks_atSymbol _).bind fun _ _ => .ite (.last trivial) ?_
  exact (tracks_separator _).bind fun _ _ => (tracks_subscript hg).andThen fun _ _ => .pure trivial

theorem tracks_subscripts : Tracks r n (parseSubscripts g) (parseSubscripts g') Idle Anything :=
  .loopAny fun subscripts => tracks_nextSubscript hg subscripts

omit hg in
theorem tracks_member (node : Expr) {line : Nat} (hline : r.lines line) :
    Tracks r n (parseMember node line) (parseMember node line) Idle r.Holds := by
  refine tracks_advance.bind fun t ht => ?_
  split
  · exact .pure hline
  · exact .pure hline
  · exact tracks_failAt (r.line_of_beneath t ht) trivial

theorem tracks_item (node : Expr) {line : Nat} (hline : r.lines line) :
    Tracks r n (parseItem g node line) (parseItem g' node line) Idle r.Holds := by
  refine (tracks_subscripts hg).bind fun _ _ => (tracks_expect _).idle.bind fun _ _ => ?_
  split
  · exact .pure hline
  · exact .pure hline

theorem tracks_nextPostfix (node : Expr) (hnode : r.Holds node) :
    Tracks r n (parseNextPostfix g node) (parseNextPostfix g' node) Going
      (Sum.elim r.Holds r.Holds) := by
  refine .see fun s hs hw => ?_
  have hline := hs.current_line
  split
  · next hk =>
    refine .step hs (Nat.lt_succ_of_lt hw) (Token.isEnd_of_kind hk nofun) ?_
    exact (tracks_member node hline).bind fun _ he => .pure he
  · next hk =>
    refine .step hs (Nat.lt_succ_of_lt hw) (Token.isEnd_of_kind hk nofun) ?_
    exact (tracks_item hg node hline).bind fun _ he => .pure he
  · exact (tracks_call hg node s hs hw).next
  · exact Tracks.last hnode s hs hw

/-- **Members, items and calls.** -/
theorem tracks_members (node : Expr) (hnode : r.Holds node) :
    Tracks r n (parsePostfix g node) (parsePostfix g' node) Idle r.Holds :=
  .loop (fun node hnode => tracks_nextPostfix hg node hnode) hnode

/-! ### Signs and tests -/

theorem tracks_testArguments :
    Tracks r n (parseTestArguments g) (parseTestArguments g') Idle Anything :=
  tracks_current.bind fun _ _ => .ite ((tracks_arguments hg).mono n.le_succ).idle <|
    .ite (.ite (tracks_fail trivial)
        (((tracks_primary hg).mono n.le_succ).idle.bind fun _ _ => .pure trivial))
      (.pure trivial)

theorem tracksAt_test (node : Expr) (hs : r.On s) (hw : s.weight < n)
    (hend : s.stream.current.isEnd = false) :
    TracksAt r s (parseTest g node) (parseTest g' node) Moving r.Holds := by
  refine .advance hs (Nat.lt_succ_of_lt hw) hend fun t ht => ?_
  refine (tracks_skipIf _).bind fun negated _ => (tracks_expect _).idle.bind fun _ _ => ?_
  refine (tracks_dottedName _).bind fun _ _ => (tracks_testArguments hg).bind fun _ _ => .pure ?_
  have hline := r.line_of_beneath t ht
  cases negated with
  | false => exact hline
  | true => exact hline

theorem tracks_nextTrailer (node : Expr) (hnode : r.Holds node) :
    Tracks r n (parseNextTrailer g node) (parseNextTrailer g' node) Going
      (Sum.elim r.Holds r.Holds) := by
  refine .see fun s hs hw => .ite (fun hpipe => ?_) fun _ => .ite (fun his => ?_) fun _ =>
    .ite (fun _ => ?_) fun _ => ?_
  · exact (tracksAt_filters hg hs hw hpipe).next
  · exact (tracksAt_test hg node hs hw (Token.isEnd_of_isName his)).next
  · exact (tracks_call hg node s hs hw).next
  · exact Tracks.last hnode s hs hw

/-- **Filters, tests and calls.** -/
theorem tracks_trailers (node : Expr) (hnode : r.Holds node) :
    Tracks r n (parseTrailers g node) (parseTrailers g' node) Idle r.Holds :=
  .loop (fun node hnode => tracks_nextTrailer hg node hnode) hnode

theorem tracks_sign : Tracks r (n + 1) (parseSign g) (parseSign g') Moving r.Holds := by
  refine .see fun s hs hw => .ite (fun hsub => ?_) fun _ => .ite (fun hadd => ?_) fun _ => ?_
  · refine .step hs hw (Token.isEnd_of_isSymbol hsub) ((hg.signed r).idle.bind fun _ _ => ?_)
    exact .pure hs.current_line
  · refine .step hs hw (Token.isEnd_of_isSymbol hadd) ((hg.signed r).idle.bind fun _ _ => ?_)
    exact .pure hs.current_line
  · exact tracks_primary hg s hs hw

/-- **Operands** consume a token. -/
theorem tracks_signed (filters : Bool) :
    Tracks r (n + 1) (parseSigned g filters) (parseSigned g' filters) Moving r.Holds :=
  (tracks_sign hg).behind fun e he => (tracks_members hg e he).bind fun e he =>
    .ite (tracks_trailers hg e he) (.pure he)

/-! ### Operators -/

/-- **Operators of a chain** are not the end, and what they make stands on the line it is given. -/
def Chains (operator? : Token → Option (Expr → Expr → Nat → Expr)) : Prop :=
  ∀ t build, operator? t = some build →
    t.isEnd = false ∧ ∀ left right line, (build left right line).line = line

omit hg in
theorem chains_binary {op? : Token → Option BinaryOp}
    (hop : ∀ t : Token, t.kind = .mark .endOfTemplate → op? t = none) :
    Chains fun t => (op? t).map Expr.binary := by
  intro t build h
  obtain ⟨op, ht, rfl⟩ := Option.map_eq_some_iff.1 h
  refine ⟨Bool.eq_false_iff.2 fun hend => ?_, fun _ _ _ => rfl⟩
  rw [hop t (Token.isEnd_iff.1 hend)] at ht
  nomatch ht

omit hg in
theorem chains_power : Chains fun t => (BinaryOp.power? t).map Expr.binary :=
  chains_binary fun t hk => by
    rw [BinaryOp.power?, Token.isSymbol, Token.type, hk]
    rfl

omit hg in
theorem chains_multiplicative : Chains fun t => (BinaryOp.multiplicative? t).map Expr.binary :=
  chains_binary fun t hk => by
    rw [BinaryOp.multiplicative?, hk]

omit hg in
theorem chains_additive : Chains fun t => (BinaryOp.additive? t).map Expr.binary :=
  chains_binary fun t hk => by
    rw [BinaryOp.additive?, hk]

omit hg in
/-- Operators that are names. -/
theorem chains_name {text : String} {make : Expr → Expr → Nat → Expr}
    (hline : ∀ left right line, (make left right line).line = line) :
    Chains fun t => if t.isName text then some make else none := by
  intro t build h
  dsimp only at h
  split at h
  · next ht =>
    obtain rfl := Option.some.inj h
    exact ⟨Token.isEnd_of_isName ht, hline⟩
  · nomatch h

omit hg in
theorem tracks_nextOperator {operand operand' : Parser Expr}
    {operator? : Token → Option (Expr → Expr → Nat → Expr)} (hop : Chains operator?)
    (h : Tracks r n operand operand' Moving r.Holds) {x : Expr × Nat}
    (hx : r.Holds x.1 ∧ r.lines x.2) :
    Tracks r n (parseNextOperator operand operator? x) (parseNextOperator operand' operator? x) Going
      (Sum.elim (fun x => r.Holds x.1 ∧ r.lines x.2) r.Holds) := by
  refine .see fun s hs hw => ?_
  cases hfound : operator? s.stream.current with
  | none => exact Tracks.last hx.1 s hs hw
  | some build =>
    obtain ⟨hend, hline⟩ := hop _ build hfound
    refine .step hs (Nat.lt_succ_of_lt hw) hend ?_
    refine h.idle.bind fun right _ => tracks_current.bind fun t ht => .pure ?_
    refine ⟨?_, r.line_of_beneath t ht⟩
    rw [Route.Holds, hline]
    exact hx.2

omit hg in
/-- **Chains** of operands. -/
theorem tracks_leftChain {operand operand' : Parser Expr}
    {operator? : Token → Option (Expr → Expr → Nat → Expr)} (hop : Chains operator?)
    (h : Tracks r n operand operand' Moving r.Holds) :
    Tracks r n (leftChain operand operator?) (leftChain operand' operator?) Moving r.Holds :=
  tracks_current.bind fun t ht => h.andThen fun _ hfirst =>
    .loop (fun _ hx => tracks_nextOperator hop h hx) ⟨hfirst, r.line_of_beneath t ht⟩

theorem tracks_power (filters : Bool) :
    Tracks r (n + 1) (parsePower g filters) (parsePower g' filters) Moving r.Holds :=
  tracks_leftChain chains_power (tracks_signed hg filters)

theorem tracks_product (filters : Bool) :
    Tracks r (n + 1) (parseProduct g filters) (parseProduct g' filters) Moving r.Holds :=
  tracks_leftChain chains_multiplicative (tracks_power hg filters)

theorem tracks_nextConcat (filters : Bool) (nodes : List Expr) (hnodes : ∀ e ∈ nodes, r.Holds e) :
    Tracks r (n + 1) (parseNextConcat g filters nodes) (parseNextConcat g' filters nodes) Going
      (Sum.elim (fun es => ∀ e ∈ es, r.Holds e) fun es => ∀ e ∈ es, r.Holds e) := by
  refine .skips ((tracks_product hg filters).idle.bind fun e he => .pure ?_) (.last hnodes)
  exact List.forall_mem_append.2 ⟨hnodes, List.forall_mem_singleton.2 he⟩

theorem tracks_concatNodes (filters : Bool) :
    Tracks r (n + 1) (parseConcatNodes g filters) (parseConcatNodes g' filters) Moving
      fun es => ∀ e ∈ es, r.Holds e :=
  (tracks_product hg filters).andThen fun _ he =>
    .loop (fun nodes hnodes => tracks_nextConcat hg filters nodes hnodes)
      (List.forall_mem_singleton.2 he)

theorem tracks_concat (filters : Bool) :
    Tracks r (n + 1) (parseConcat g filters) (parseConcat g' filters) Moving r.Holds := by
  refine tracks_current.bind fun t ht => (tracks_concatNodes hg filters).andThen fun es hes => ?_
  split
  · exact .pure (hes _ List.mem_cons_self)
  · exact .pure (r.line_of_beneath t ht)

theorem tracks_sum (filters : Bool) :
    Tracks r (n + 1) (parseSum g filters) (parseSum g' filters) Moving r.Holds :=
  tracks_leftChain chains_additive (tracks_concat hg filters)

/-! ### Comparisons and logic -/

omit hg in
theorem tracks_comparison : Tracks r n parseComparison? parseComparison? Idle Anything := by
  refine tracks_current.bind fun t _ => ?_
  split
  · exact tracks_step.bind fun _ _ => .pure trivial
  · refine .ite (tracks_step.bind fun _ _ => .pure trivial) <| tracks_look.bind fun _ _ => ?_
    exact .ite (tracks_skip_two.bind fun _ _ => .pure trivial) (.pure trivial)

theorem tracks_nextOperand (filters : Bool) (x : List (Operand Expr) × Nat) (hx : r.lines x.2) :
    Tracks r (n + 1) (parseNextOperand g filters x) (parseNextOperand g' filters x) Going
      (Sum.elim (fun x => r.lines x.2) fun x => r.lines x.2) := by
  refine tracks_comparison.bind fun op _ => ?_
  cases op with
  | none => exact .last hx
  | some op =>
    refine (tracks_sum hg filters).andThen fun _ _ => tracks_current.bind fun t ht => .pure ?_
    exact r.line_of_beneath t ht

theorem tracks_compare (filters : Bool) :
    Tracks r (n + 1) (parseCompare g filters) (parseCompare g' filters) Moving r.Holds := by
  refine tracks_current.bind fun t ht => (tracks_sum hg filters).andThen fun e he => ?_
  have hoperands : Tracks r (n + 1) (parseOperands g filters t.line) (parseOperands g' filters t.line)
      Idle fun x => r.lines x.2 :=
    .loop (I := fun x => r.lines x.2) (fun x hx => tracks_nextOperand hg filters x hx)
      (r.line_of_beneath t ht)
  refine hoperands.bind fun x hx => .pure ?_
  split
  · exact he
  · exact hx

theorem tracks_negation (filters : Bool) :
    Tracks r (n + 1) (parseNegation g filters) (parseNegation g' filters) Moving r.Holds := by
  refine .see fun s hs hw => .ite (fun hnot => ?_) fun _ => tracks_compare hg filters s hs hw
  refine .step hs hw (Token.isEnd_of_isName hnot) ?_
  exact (hg.negation r filters).idle.bind fun _ _ => .pure hs.current_line

theorem tracks_and (filters : Bool) :
    Tracks r (n + 1) (parseAnd g filters) (parseAnd g' filters) Moving r.Holds :=
  tracks_leftChain (chains_name fun _ _ _ => rfl) (tracks_negation hg filters)

theorem tracks_or (filters : Bool) :
    Tracks r (n + 1) (parseOr g filters) (parseOr g' filters) Moving r.Holds :=
  tracks_leftChain (chains_name fun _ _ _ => rfl) (tracks_and hg filters)

theorem tracks_else : Tracks r n (parseElse? g) (parseElse? g') Idle Anything :=
  .skips ((hg.expression r true true).idle.bind fun _ _ => .pure trivial) (.pure trivial)

theorem tracks_nextCondition (filters : Bool) (x : Expr × Nat) (hx : r.Holds x.1 ∧ r.lines x.2) :
    Tracks r n (parseNextCondition g filters x) (parseNextCondition g' filters x) Going
      (Sum.elim (fun x => r.Holds x.1 ∧ r.lines x.2) r.Holds) := by
  refine .skips ?_ (.last hx.1)
  refine ((tracks_or hg filters).mono n.le_succ).idle.bind fun _ _ => (tracks_else hg).bind fun _ _ => ?_
  exact tracks_current.bind fun t ht => .pure ⟨hx.2, r.line_of_beneath t ht⟩

theorem tracks_conditional (filters : Bool) :
    Tracks r (n + 1) (parseConditional g filters) (parseConditional g' filters) Moving r.Holds :=
  tracks_current.bind fun t ht => (tracks_or hg filters).behind fun _ he =>
    .loop (I := fun x => r.Holds x.1 ∧ r.lines x.2)
      (fun x hx => tracks_nextCondition hg filters x hx) ⟨he, r.line_of_beneath t ht⟩

/-- **Expressions** consume a token. -/
theorem tracks_expression (conditional filters : Bool) :
    Tracks r (n + 1) (parseExpression g conditional filters) (parseExpression g' conditional filters)
      Moving r.Holds :=
  .ite (tracks_conditional hg filters) (tracks_or hg filters)

/-! ### Tuples and targets -/

theorem tracks_tupleItem (item : TupleItem) :
    Tracks r (n + 1) (parseTupleItem g item) (parseTupleItem g' item) Moving r.Holds := by
  cases item with
  | primary => exact tracks_primary hg
  | expression conditional => exact tracks_expression hg conditional true

omit hg in
/-- **Items of a tuple** as far as they have been read: a comma stands behind an item. -/
structure Grammar.TupleItems.Kept (r : Route) (read : TupleItems) : Prop where
  line : r.lines read.line
  items : ∀ e ∈ read.items, r.Holds e
  ne_nil : read.isTuple = true → read.items ≠ []

theorem tracks_nextTupleItem (item : TupleItem) (ends : List TokenRule) {read : TupleItems}
    (hline : r.lines read.line) (hitems : ∀ e ∈ read.items, r.Holds e) :
    Tracks r (n + 1) (parseNextTupleItem g item ends read) (parseNextTupleItem g' item ends read)
      (Sum.elim Moving fun found => read.items = [] ∧ found.items ≠ [])
      (Sum.elim (TupleItems.Kept r) fun found => found = read ∨ found.Kept r) := by
  refine (tracks_separator _).bind fun _ _ => tracks_current.bind fun _ _ => .ite ?_ ?_
  · exact .stay (.inl rfl) fun h => h.2 h.1
  · refine (tracks_tupleItem hg item).andThen fun e he => tracks_current.bind fun t ht => ?_
    have hmore : ∀ x ∈ read.items ++ [e], r.Holds x :=
      List.forall_mem_append.2 ⟨hitems, List.forall_mem_singleton.2 he⟩
    have hne : read.items ++ [e] ≠ [] := List.append_ne_nil_of_right_ne_nil _ (List.cons_ne_nil _ _)
    refine .ite (.pure ?_) (.pure (.inr ?_))
    · exact ⟨r.line_of_beneath t ht, hmore, fun _ => hne⟩
    · exact ⟨hline, hmore, fun _ => hne⟩

theorem tracks_tupleItems (item : TupleItem) (ends : List TokenRule) {line : Nat}
    (hline : r.lines line) :
    Tracks r (n + 1) (parseTupleItems g item ends line) (parseTupleItems g' item ends line)
      (fun read => read.items ≠ []) (TupleItems.Kept r) := by
  have hstart : TupleItems.Kept r { line } := ⟨hline, nofun, nofun⟩
  have hround {must : TupleItems → Prop} (read : TupleItems) (hread : read.Kept r)
      (hmust : ∀ found, must found → read.items = [] ∧ found.items ≠ []) :
      Tracks r (n + 1) (parseNextTupleItem g item ends read) (parseNextTupleItem g' item ends read)
        (Sum.elim Moving must) (Sum.elim (TupleItems.Kept r) (TupleItems.Kept r)) := by
    intro s hs hw
    refine (tracks_nextTupleItem hg item ends hread.line hread.items s hs hw).imp
      (Sum.rec (fun _ _ => trivial) hmust) (Sum.rec (fun _ => id) fun found hfound => ?_)
    rcases hfound with rfl | hfound
    · exact hread
    · exact hfound
  exact .loopFrom (hround _ hstart fun _ hfound => ⟨rfl, hfound⟩) fun read hread =>
    hround read hread fun _ => False.elim

/-- **Tuples** consume a token unless they can be empty. -/
theorem tracks_tuple (item : TupleItem) (ends : List TokenRule) (parentheses : Bool) :
    Tracks r (n + 1) (parseTuple g item ends parentheses) (parseTuple g' item ends parentheses)
      (fun _ => parentheses = false) r.Holds := by
  refine tracks_current.bind fun t ht => ?_
  refine (tracks_tupleItems hg item ends (r.line_of_beneath t ht)).bindOf
    (fun read _ => read.items = [] ∧ parentheses = false) (fun read hread => ?_)
    fun read _ _ hmust => ?_
  · obtain ⟨items, isTuple, line⟩ := read
    obtain ⟨hline, hitems, hne⟩ := hread
    cases isTuple with
    | true => exact .stay hline fun h => hne rfl h.1
    | false =>
      cases items with
      | cons e es => exact .stay (hitems e List.mem_cons_self) fun h => nomatch h.1
      | nil =>
        cases parentheses with
        | true => exact .stay hline fun h => nomatch h.2
        | false => exact tracks_current.bind fun _ _ => tracks_fail trivial
  · by_cases hempty : read.items = []
    · exact .inr ⟨hempty, hmust⟩
    · exact .inl hempty

theorem tracks_anyTuple : Tracks r (n + 1) (parseAnyTuple g) (parseAnyTuple g') Moving r.Holds :=
  fun s hs hw => (tracks_tuple hg _ _ _ s hs hw).imp (fun _ _ => rfl) fun _ => id

omit hg in
theorem tracks_assignable {target : Expr} (h : r.Holds target) :
    Tracks r n (requireAssignable target) (requireAssignable target) Idle r.Holds :=
  .ite (.pure h) (tracks_failAt h trivial)

omit hg in
theorem tracks_targetName : Tracks r n parseTargetName parseTargetName Moving r.Holds :=
  (tracks_expect _).andThen fun t ht => tracks_assignable (r.line_of_beneath t ht)

omit hg in
/-- Contexts have no place. -/
theorem holds_setContext (context : Context) {e : Expr} (h : r.Holds e) :
    r.Holds (e.setContext context) := by
  have hline : (e.setContext context).line = e.line := by
    cases e <;> rfl
  rw [Route.Holds, hline]
  exact h

/-- **Targets** consume a token. -/
theorem tracks_target (withTuple : Bool) (ends : List TokenRule) :
    Tracks r (n + 1) (parseTarget g withTuple ends) (parseTarget g' withTuple ends) Moving r.Holds := by
  have hstore (e : Expr) (he : r.Holds e) : Tracks r (n + 1)
      (requireAssignable (e.setContext .store)) (requireAssignable (e.setContext .store)) Idle r.Holds :=
    tracks_assignable (holds_setContext .store he)
  cases withTuple with
  | true =>
    refine Tracks.andThen (fun s hs hw => ?_) hstore
    exact (tracks_tuple hg .primary ends false s hs hw).imp (fun _ _ => rfl) fun _ => id
  | false => exact (tracks_primary hg).andThen hstore

end Arguments

end LiquidTemplate
