import LiquidTemplate.Grammar.Tags
import LiquidTemplate.Proofs.Nesting.Sparing

/-!
# Targets of assignments

An assignable expression is made of names, commas and parentheses. So a target reaches neither
beyond the assignment sign behind it nor beyond the end of its tag, whatever levels of the grammar
it is read through.

* `spares_primary`, `spares_expression`, `spares_tuple`: the productions.
* `spared_tupleItems`: the items of a tuple.
* `assignsAhead_target`: the target of an assignment.
-/

namespace LiquidTemplate

open LiquidTemplate.Parser LiquidTemplate.Grammar

variable {g : Grammar} {s t : ParserState} {e : Expr}

/-! ### Primaries -/

theorem builds_list : Builds (parseList g) id :=
  Builds.bind fun _ => Builds.bind fun _ => Builds.bind fun _ => Builds.pure rfl

theorem builds_dict : Builds (parseDict g) id :=
  Builds.bind fun _ => Builds.bind fun _ => Builds.bind fun _ => Builds.pure rfl

/-- The bounds of a range literal are read on streams of their own. -/
theorem stays_bound {text : String} {tok : Token} : Stays (parseBound g text tok) := by
  refine Stays.state fun s => ?_
  split
  · exact Stays.throw
  · split
    · exact Stays.failAt
    · split
      · exact Stays.pure
      · exact Stays.failAt

theorem stays_range {tok : Token} {start stop : String} : Stays (parseRange g tok start stop) := by
  refine stays_bound.bind fun _ => stays_bound.bind fun _ => Stays.state fun s => ?_
  dsimp only
  split
  · exact Stays.throw
  · split
    · exact Stays.pure
    · exact Stays.failAt

/-- **Primaries** spare the assignment sign, in parentheses as well. -/
theorem spares_primary (hg : g.group.Spares) : (parsePrimary g).Spares := by
  intro s e t h hassign
  obtain ⟨tok, u, hu, h⟩ := bind_eq_ok.1 h
  obtain ⟨rfl, rfl⟩ := current_eq_ok.1 hu
  cases hk : u.stream.current.kind with
  | name name =>
      have hstep := assignsAhead_stepped hk nofun nofun
      rw [hk] at h
      obtain ⟨_, v, hv, h⟩ := bind_eq_ok.1 h
      obtain rfl := step_eq_ok.1 hv
      cases hconstant : Constant.ofName? name with
      | some value =>
          rw [hconstant] at h
          obtain ⟨-, rfl⟩ := EStateM.Result.ok.inj h
          exact hstep
      | none =>
          rw [hconstant] at h
          obtain ⟨-, rfl⟩ := EStateM.Result.ok.inj h
          exact hstep
  | string first =>
      rw [hk] at h
      have hbuilds : Builds (do step; let text ← parseString first
                                return Expr.const (.str text) u.stream.current.line) id :=
        Builds.bind fun _ => Builds.bind fun _ => Builds.pure rfl
      exact hbuilds.spares u e t h hassign
  | integer value =>
      rw [hk] at h
      obtain ⟨rfl, -⟩ := EStateM.Result.ok.inj h
      nomatch hassign
  | float value =>
      rw [hk] at h
      obtain ⟨rfl, -⟩ := EStateM.Result.ok.inj h
      nomatch hassign
  | range start stop =>
      have hstep := assignsAhead_stepped hk nofun nofun
      rw [hk] at h
      obtain ⟨_, v, hv, h⟩ := bind_eq_ok.1 h
      obtain rfl := step_eq_ok.1 hv
      obtain rfl := stays_range _ e t h
      exact hstep
  | symbol c =>
      cases c with
      | lParen =>
          have hopen := assignsAhead_stepped hk nofun nofun
          rw [hk] at h
          obtain ⟨_, v, hv, h⟩ := bind_eq_ok.1 h
          obtain rfl := step_eq_ok.1 hv
          obtain ⟨x, v, hv, h⟩ := bind_eq_ok.1 h
          obtain ⟨_, w, hw, h⟩ := bind_eq_ok.1 h
          obtain ⟨hfits, -, rfl⟩ := expect_eq_ok.1 hw
          obtain ⟨rfl, rfl⟩ := EStateM.Result.ok.inj h
          have hclose := assignsAhead_stepped (Token.isSymbol_iff.1 hfits) nofun nofun
          exact hopen.trans ((hg _ _ _ hv hassign).trans hclose)
      | lBracket =>
          rw [hk] at h
          exact builds_list.spares u e t h hassign
      | lBrace =>
          rw [hk] at h
          exact builds_dict.spares u e t h hassign
      | _ =>
          rw [hk] at h
          exact absurd h (failAt_ne_ok _ _)
  | _ =>
      rw [hk] at h
      exact absurd h (failAt_ne_ok _ _)

/-! ### What stands behind primaries -/

theorem builds_call (node : Expr) : Builds (parseCall g node) id :=
  Builds.bind fun _ => Builds.bind fun _ => Builds.pure rfl

theorem builds_member (node : Expr) (line : Nat) : Builds (parseMember node line) id := by
  refine Builds.bind fun tok => ?_
  split
  · exact Builds.pure rfl
  · exact Builds.pure rfl
  · exact Builds.failAt

theorem builds_item (node : Expr) (line : Nat) : Builds (parseItem g node line) id := by
  refine Builds.bind fun subscripts => Builds.bind fun _ => ?_
  split
  · exact Builds.pure rfl
  · exact Builds.pure rfl

theorem builds_filterName (node : Option Expr) : Builds (parseFilterName g node) id :=
  Builds.bind fun _ => Builds.bind fun _ => Builds.bind fun _ => Builds.pure rfl

theorem builds_test (node : Expr) : Builds (parseTest g node) id := by
  refine Builds.bind fun _ => Builds.bind fun negated => Builds.bind fun _ => ?_
  refine Builds.bind fun _ => Builds.bind fun _ => Builds.pure ?_
  cases negated with
  | true => rfl
  | false => rfl

theorem handsOn_postfixed (node : Expr) : HandsOn (parsePostfix g node) id node := by
  refine HandsOn.loop id (fun e => HandsOn.see fun tok => ?_) node
  have hdrop {p : Parser Expr} (hp : Builds p id) : HandsOn (do
      step
      let x ← p
      return .inl x : Parser (Expr ⊕ Expr)) (Sum.elim id id) e := by
    have hnext : Builds (do let x ← p; return .inl x : Parser (Expr ⊕ Expr)) (Sum.elim id id) :=
      hp.finish fun _ => rfl
    exact (Builds.bind fun _ => hnext).handsOn e
  split
  · exact hdrop (builds_member e tok.line)
  · exact hdrop (builds_item e tok.line)
  · exact (builds_call e).round e
  · exact HandsOn.last e

/-- The node that filters are behind. -/
def filteredNode (x : Option Expr × Bool) : Expr :=
  x.1.getD default

theorem handsOn_filters (node : Expr) : HandsOn (parseFilters g (some node) false) id node := by
  refine HandsOn.loop filteredNode (fun x => ?_) (some node, false)
  obtain ⟨node, bare⟩ := x
  have hnext : Builds (do
      let e ← parseFilterName g node
      return .inl (some e, false) : Parser ((Option Expr × Bool) ⊕ Expr))
        (Sum.elim filteredNode id) :=
    (builds_filterName node).finish fun _ => rfl
  refine HandsOn.ite (hnext.handsOn _) (HandsOn.skips hnext ?_)
  cases node with
  | none => exact HandsOn.fail
  | some e => exact HandsOn.last e

theorem handsOn_trailers (node : Expr) : HandsOn (parseTrailers g node) id node := by
  refine HandsOn.loop id (fun e => HandsOn.see fun tok => ?_) node
  refine HandsOn.ite ((handsOn_filters e).finish fun _ => rfl) ?_
  refine HandsOn.ite ((builds_test e).round e) ?_
  exact HandsOn.ite ((builds_call e).round e) (HandsOn.last e)

/-! ### Operators -/

theorem spares_sign (hg : g.group.Spares) : (parseSign g).Spares := by
  refine Spares.see fun tok => Spares.ite ?_ (Spares.ite ?_ (spares_primary hg))
  · exact (Builds.bind fun _ => Builds.bind fun _ => Builds.pure rfl).spares
  · exact (Builds.bind fun _ => Builds.bind fun _ => Builds.pure rfl).spares

theorem spares_signed (hg : g.group.Spares) (filters : Bool) : (parseSigned g filters).Spares := by
  refine (spares_sign hg).bind fun e => (handsOn_postfixed e).bind fun e => ?_
  exact HandsOn.ite (handsOn_trailers e) (HandsOn.pure e)

/-- **Operators** whose expressions are not assignable. -/
def BuildsAll (operator? : Token → Option (Expr → Expr → Nat → Expr)) : Prop :=
  ∀ t build, operator? t = some build →
    ∀ left right line, (build left right line).isAssignable = false

/-- **Chains** hand their first operand on. -/
theorem spares_leftChain {operand : Parser Expr}
    {operator? : Token → Option (Expr → Expr → Nat → Expr)} (h : operand.Spares)
    (hop : BuildsAll operator?) : (leftChain operand operator?).Spares := by
  refine Spares.see fun tok => h.bind fun first => ?_
  refine HandsOn.loop Prod.fst (fun x => HandsOn.see fun tok => ?_) (first, tok.line)
  obtain ⟨left, line⟩ := x
  cases hbuild : operator? tok with
  | none => exact HandsOn.last left
  | some build =>
      refine Builds.handsOn (Builds.bind fun _ => Builds.bind fun right => ?_) left
      exact Builds.bind fun _ => Builds.pure (hop tok build hbuild left right line)

theorem builds_binary (operator? : Token → Option BinaryOp) :
    BuildsAll fun t => (operator? t).map Expr.binary := by
  intro t build h left right line
  obtain ⟨op, _, rfl⟩ := Option.map_eq_some_iff.1 h
  rfl

theorem spares_product (hg : g.group.Spares) (filters : Bool) : (parseProduct g filters).Spares :=
  spares_leftChain (spares_leftChain (spares_signed hg filters) (builds_binary _)) (builds_binary _)

/-- The texts behind the first one. -/
theorem concatNodes_same {filters : Bool} {nodes : List Expr}
    (h : parseConcatNodes g filters s = .ok nodes t) (hnodes : nodes.length ≤ 1) :
    ∃ first, nodes = [first] ∧ parseProduct g filters s = .ok first t := by
  obtain ⟨first, u, hfirst, hloop⟩ := bind_eq_ok.1 h
  refine ⟨first, ?_⟩
  have hsame : nodes = [first] ∧ t = u := by
    refine repeatFrom_same List.length ?_ ?_ hloop hnodes
    · intro xs v xs' w hstep
      obtain ⟨found, v', hfound, hstep⟩ := bind_eq_ok.1 hstep
      cases found with
      | true =>
          obtain ⟨e, _, _, hstep⟩ := bind_eq_ok.1 hstep
          obtain rfl := Sum.inl.inj (EStateM.Result.ok.inj hstep).1
          simp
      | false => nomatch hstep
    · intro xs v xs' w hstep
      obtain ⟨found, v', hfound, hstep⟩ := bind_eq_ok.1 hstep
      cases found with
      | true =>
          obtain ⟨e, _, _, hstep⟩ := bind_eq_ok.1 hstep
          nomatch hstep
      | false =>
          obtain ⟨hxs, hw⟩ := EStateM.Result.ok.inj hstep
          exact ⟨(Sum.inr.inj hxs).symm, hw.symm.trans (skipIf_eq_false.1 hfound).1⟩
  rw [hsame.2]
  exact ⟨hsame.1, hfirst⟩

/-- One text alone is not joined to anything. -/
theorem spares_concat (hg : g.group.Spares) (filters : Bool) : (parseConcat g filters).Spares := by
  refine Spares.see fun tok => ?_
  intro s e t h hassign
  obtain ⟨nodes, u, hnodes, he⟩ := bind_eq_ok.1 h
  by_cases hlength : nodes.length ≤ 1
  · obtain ⟨first, rfl, hfirst⟩ := concatNodes_same hnodes hlength
    obtain ⟨rfl, rfl⟩ := EStateM.Result.ok.inj he
    exact spares_product hg filters s first u hfirst hassign
  · match nodes, hlength with
    | x :: y :: xs, _ =>
        obtain ⟨rfl, -⟩ := EStateM.Result.ok.inj he
        nomatch hassign
    | [x], hlength => exact absurd (Nat.le_refl 1) hlength
    | [], hlength => exact absurd (Nat.zero_le 1) hlength

theorem spares_sum (hg : g.group.Spares) (filters : Bool) : (parseSum g filters).Spares :=
  spares_leftChain (spares_concat hg filters) (builds_binary _)

/-! ### Logic -/

/-- Where no comparison stands nothing is consumed. -/
theorem comparison_none (h : parseComparison? s = .ok none t) : t = s := by
  obtain ⟨tok, u, hu, hmatch⟩ := bind_eq_ok.1 h
  obtain ⟨-, rfl⟩ := current_eq_ok.1 hu
  cases hop : Comparison.ofToken? tok with
  | some op =>
      rw [hop] at hmatch
      nomatch hmatch
  | none =>
      rw [hop] at hmatch
      dsimp only at hmatch
      split at hmatch
      · nomatch hmatch
      · obtain ⟨after, v, hv, hif⟩ := bind_eq_ok.1 hmatch
        obtain ⟨-, rfl⟩ := EStateM.Result.ok.inj hv
        split at hif
        · nomatch hif
        · exact (EStateM.Result.ok.inj hif).2.symm

/-- The links of a chain of comparisons that has none. -/
theorem operands_nil {filters : Bool} {line : Nat} {x : List (Operand Expr) × Nat}
    (h : parseOperands g filters line s = .ok x t) (hx : x.1 = []) : t = s := by
  have hsize : x.1.length ≤ 0 := by rw [hx]; exact Nat.le_refl 0
  refine (repeatFrom_same (fun x => x.1.length) ?_ ?_ h hsize).2
  · intro y u y' v hstep
    obtain ⟨op, w, hop, hstep⟩ := bind_eq_ok.1 hstep
    cases op with
    | none => nomatch hstep
    | some op =>
        obtain ⟨e, _, _, hstep⟩ := bind_eq_ok.1 hstep
        obtain ⟨_, _, _, hstep⟩ := bind_eq_ok.1 hstep
        obtain rfl := Sum.inl.inj (EStateM.Result.ok.inj hstep).1
        simp
  · intro y u y' v hstep
    obtain ⟨op, w, hop, hstep⟩ := bind_eq_ok.1 hstep
    cases op with
    | none =>
        obtain ⟨hy, hv⟩ := EStateM.Result.ok.inj hstep
        exact ⟨(Sum.inr.inj hy).symm, hv.symm.trans (comparison_none hop)⟩
    | some op =>
        obtain ⟨e, _, _, hstep⟩ := bind_eq_ok.1 hstep
        obtain ⟨_, _, _, hstep⟩ := bind_eq_ok.1 hstep
        nomatch hstep

theorem spares_compare (hg : g.group.Spares) (filters : Bool) : (parseCompare g filters).Spares := by
  refine Spares.see fun tok => (spares_sum hg filters).bind fun first => ?_
  intro s e t h hassign
  obtain ⟨⟨operands, line⟩, u, hu, he⟩ := bind_eq_ok.1 h
  obtain ⟨rfl, rfl⟩ := EStateM.Result.ok.inj he
  cases operands with
  | nil => exact ⟨rfl, operands_nil hu rfl⟩
  | cons x xs => nomatch hassign

theorem spares_negation (hg : g.group.Spares) (filters : Bool) :
    (parseNegation g filters).Spares := by
  refine Spares.see fun tok => Spares.ite ?_ (spares_compare hg filters)
  exact (Builds.bind fun _ => Builds.bind fun _ => Builds.pure rfl).spares

theorem builds_named {text : String} {make : Expr → Expr → Nat → Expr}
    (hmake : ∀ left right line, (make left right line).isAssignable = false) :
    BuildsAll fun t => if t.isName text then some make else none := by
  intro tok build h
  dsimp only at h
  split at h
  · obtain rfl := Option.some.inj h
    exact hmake
  · nomatch h

theorem spares_or (hg : g.group.Spares) (filters : Bool) : (parseOr g filters).Spares := by
  have hand : (parseAnd g filters).Spares :=
    spares_leftChain (spares_negation hg filters) (builds_named fun _ _ _ => rfl)
  exact spares_leftChain hand (builds_named fun _ _ _ => rfl)

theorem spares_conditional (hg : g.group.Spares) (filters : Bool) :
    (parseConditional g filters).Spares := by
  refine Spares.see fun tok => (spares_or hg filters).bind fun first => ?_
  refine HandsOn.loop Prod.fst (fun x => ?_) (first, tok.line)
  obtain ⟨e, line⟩ := x
  refine HandsOn.skips ?_ (HandsOn.last e)
  refine Builds.bind fun cond => Builds.bind fun no => Builds.bind fun _ => ?_
  exact Builds.pure rfl

/-- **Expressions** spare the assignment sign. -/
theorem spares_expression (hg : g.group.Spares) (conditional filters : Bool) :
    (parseExpression g conditional filters).Spares :=
  Spares.ite (spares_conditional hg filters) (spares_or hg filters)

/-! ### Tuples and targets -/

theorem spares_tupleItem (hg : g.group.Spares) (item : TupleItem) :
    (parseTupleItem g item).Spares := by
  cases item with
  | primary => exact spares_primary hg
  | expression conditional => exact spares_expression hg conditional true

/-- A comma is no assignment sign. -/
theorem assignsAhead_separator {needed : Bool} {x : Unit} (h : parseSeparator needed s = .ok x t) :
    assignsAhead s.stream.tokens = assignsAhead t.stream.tokens := by
  cases needed with
  | true =>
      obtain ⟨tok, u, hu, hpure⟩ := bind_eq_ok.1 h
      obtain ⟨hfits, -, rfl⟩ := expect_eq_ok.1 hu
      obtain ⟨-, rfl⟩ := EStateM.Result.ok.inj hpure
      exact assignsAhead_stepped (Token.isSymbol_iff.1 hfits) nofun nofun
  | false =>
      obtain ⟨-, rfl⟩ := EStateM.Result.ok.inj h
      rfl

/-- **Items that spare** the assignment sign, read from the state `s` on: no more than `bound` of
them without a comma, and if they are assignable, the sign stands ahead of them just if it does
behind them. -/
structure Grammar.TupleItems.Spared (bound : Nat) (s : ParserState) (read : TupleItems)
    (t : ParserState) : Prop where
  single : read.isTuple = false → read.items.length ≤ bound
  ahead : (∀ e ∈ read.items, e.isAssignable = true) →
    assignsAhead s.stream.tokens = assignsAhead t.stream.tokens

theorem spared_tupleItems {item : TupleItem} {ends : List TokenRule} {line : Nat}
    {read : TupleItems} (hitem : (parseTupleItem g item).Spares)
    (h : parseTupleItems g item ends line s = .ok read t) : read.Spared 1 s t := by
  -- Only the first round meets no comma, so that an item without one is the only one.
  have hfirst : TupleItems.Spared 0 s { line } s := ⟨fun _ => Nat.le_refl 0, fun _ => rfl⟩
  refine repeatFrom_rule (TupleItems.Spared 0 s) (TupleItems.Spared 1 s) ?_ hfirst h
  intro x u z v hx hstep
  obtain ⟨_, u', hsep, hrest⟩ := bind_eq_ok.1 hstep
  have hcomma := assignsAhead_separator hsep
  obtain ⟨tok, w, hw, hif⟩ := bind_eq_ok.1 hrest
  obtain ⟨-, rfl⟩ := current_eq_ok.1 hw
  split at hif
  · obtain ⟨rfl, rfl⟩ := EStateM.Result.ok.inj hif
    exact ⟨fun htuple => Nat.le_succ_of_le (hx.single htuple), fun hall =>
      (hx.ahead hall).trans hcomma⟩
  · obtain ⟨e, u₁, he, hnext⟩ := bind_eq_ok.1 hif
    obtain ⟨tok', u₂, hu₂, hif⟩ := bind_eq_ok.1 hnext
    obtain ⟨-, rfl⟩ := current_eq_ok.1 hu₂
    have hahead (hall : ∀ y ∈ x.items ++ [e], y.isAssignable = true) :
        assignsAhead s.stream.tokens = assignsAhead u₂.stream.tokens := by
      obtain ⟨hitems, hlast⟩ := List.forall_mem_append.1 hall
      have hsign := hitem _ e u₂ he (hlast e List.mem_cons_self)
      exact (hx.ahead hitems).trans (hcomma.trans hsign)
    split at hif
    · obtain ⟨rfl, rfl⟩ := EStateM.Result.ok.inj hif
      exact ⟨nofun, hahead⟩
    · obtain ⟨rfl, rfl⟩ := EStateM.Result.ok.inj hif
      refine ⟨fun htuple => ?_, hahead⟩
      have hlength := hx.single htuple
      show (x.items ++ [e]).length ≤ 1
      rw [List.length_append]
      exact Nat.succ_le_succ hlength

/-- **Tuples** spare the assignment sign if their items do. -/
theorem spares_tuple {item : TupleItem} (hitem : (parseTupleItem g item).Spares)
    (ends : List TokenRule) (parentheses : Bool) : (parseTuple g item ends parentheses).Spares := by
  refine Spares.see fun tok => ?_
  intro s e t h hassign
  obtain ⟨⟨items, isTuple, line⟩, u, hu, he⟩ := bind_eq_ok.1 h
  obtain ⟨hsingle, hahead⟩ := spared_tupleItems hitem hu
  cases isTuple with
  | true =>
      obtain ⟨rfl, rfl⟩ := EStateM.Result.ok.inj he
      rw [Expr.isAssignable, Expr.areAssignable_eq_all] at hassign
      exact hahead (List.all_eq_true.1 hassign)
  | false =>
      match items, hsingle rfl with
      | [x], _ =>
          obtain ⟨rfl, rfl⟩ := EStateM.Result.ok.inj he
          exact hahead (List.forall_mem_singleton.2 hassign)
      | [], _ =>
          dsimp only at he
          split at he
          · obtain ⟨-, rfl⟩ := EStateM.Result.ok.inj he
            exact hahead nofun
          · nomatch he

theorem requireAssignable_eq_ok {x : Expr} (h : requireAssignable e s = .ok x t) :
    e.isAssignable = true ∧ t = s := by
  unfold requireAssignable at h
  split at h
  · next hassign => exact ⟨hassign, (EStateM.Result.ok.inj h).2.symm⟩
  · exact absurd h (failAt_ne_ok _ _)

/-- **The target of an assignment** spares the assignment sign. -/
theorem assignsAhead_target (hg : g.group.Spares) {ends : List TokenRule}
    (h : parseTarget g true ends s = .ok e t) :
    assignsAhead s.stream.tokens = assignsAhead t.stream.tokens := by
  obtain ⟨x, u, hx, hrequire⟩ := bind_eq_ok.1 h
  obtain ⟨hassign, rfl⟩ := requireAssignable_eq_ok hrequire
  rw [Expr.isAssignable_setContext] at hassign
  exact spares_tuple (spares_tupleItem hg .primary) ends false s x t hx hassign

end LiquidTemplate
