import LiquidTemplate.Grammar.Operators
import LiquidTemplate.Proofs.Success
import LiquidTemplate.Proofs.Trees.Roles

/-!
# Sound expressions

What a parser yields does not depend on where it begins. Each production yields sound trees if those
do that it refers to.

* `Parser.Yields`: what every result of a parser satisfies.
* `Grammar.Sane`: a grammar whose expressions are sound.
* `yields_arguments`, `yields_primary`, `yields_expression`, `yields_tuple`: the productions.
* `yields_target`: targets are made of names and tuples.
-/

namespace LiquidTemplate

open LiquidTemplate.Parser LiquidTemplate.Grammar

namespace Parser

variable {α β : Type} {p q : Parser α} {f : α → Parser β} {post : α → Prop} {post' : β → Prop}

/-- **Results of a parser**, in whatever state it begins. -/
def Yields (p : Parser α) (post : α → Prop) : Prop :=
  ∀ s x t, p s = .ok x t → post x

/-! ### Parts -/

theorem Yields.pure {x : α} (h : post x) : Yields (Pure.pure x) post := by
  intro s y t hy
  obtain ⟨rfl, -⟩ := EStateM.Result.ok.inj hy
  exact h

theorem yields_failAt {cause : SyntaxError.Cause} {line : Nat} :
    Yields (failAt cause line : Parser α) post :=
  fun _ _ _ h => absurd h (failAt_ne_ok cause line)

theorem yields_fail {cause : SyntaxError.Cause} : Yields (fail cause : Parser α) post :=
  fun _ _ _ h => absurd h (fail_ne_ok cause)

theorem yields_throw {error : SyntaxError} : Yields (throw error : Parser α) post :=
  fun _ _ _ h => nomatch h

/-- **One part after another.** -/
theorem Yields.bind (hp : Yields p post) (hf : ∀ x, post x → Yields (f x) post') :
    Yields (p >>= f) post' := by
  intro s y t h
  obtain ⟨x, u, hx, hy⟩ := bind_eq_ok.1 h
  exact hf x (hp s x u hx) u y t hy

/-- A part whose result says nothing. -/
theorem yields_after (hf : ∀ x, Yields (f x) post') : Yields (p >>= f) post' :=
  Yields.bind (fun _ _ _ _ => trivial) fun x (_ : True) => hf x

theorem Yields.map {f : α → β} (hp : Yields p post) (hf : ∀ x, post x → post' (f x)) :
    Yields (f <$> p) post' := by
  intro s y t h
  obtain ⟨x, hx, rfl⟩ := map_eq_ok.1 h
  exact hf x (hp s x t hx)

theorem Yields.ite {b : Prop} [Decidable b] (hp : Yields p post) (hq : Yields q post) :
    Yields (if b then p else q) post := by
  split
  · exact hp
  · exact hq

theorem Yields.mono (hp : Yields p post) {weaker : α → Prop} (h : ∀ x, post x → weaker x) :
    Yields p weaker :=
  fun s x t hx => h x (hp s x t hx)

/-- **A repetition** whose rounds keep `inv`. -/
theorem Yields.loop {step : α → Parser (α ⊕ β)} (inv : α → Prop) {x : α} (hx : inv x)
    (hround : ∀ x, inv x → Yields (step x) (Sum.elim inv post')) :
    Yields (repeatFrom step x) post' := by
  intro s y t h
  exact repeatFrom_rule (fun x _ => inv x) (fun y _ => post' y)
    (fun x s z u hinv hz => by
      have hpost := hround x hinv s z u hz
      cases z with
      | inl _ => exact hpost
      | inr _ => exact hpost) hx h

/-- **Chains** of operands. -/
theorem yields_leftChain {operand : Parser Expr} {post : Expr → Prop} (h : Yields operand post)
    {operator? : Token → Option (Expr → Expr → Nat → Expr)}
    (hbuild : ∀ t build, operator? t = some build →
      ∀ left right line, post left → post right → post (build left right line)) :
    Yields (leftChain operand operator?) post := by
  refine yields_after fun _ => h.bind fun first hfirst => ?_
  refine .loop (fun x => post x.1) hfirst fun x hx => yields_after fun t => ?_
  cases hop : operator? t with
  | none => exact .pure hx
  | some build =>
      refine yields_after fun _ => h.bind fun right hright => yields_after fun _ => .pure ?_
      exact hbuild t build hop _ _ _ hx hright

end Parser

variable {α : Type} {g : Grammar} {r : Role} {e : Expr}

/-- **Sane grammars**: all expressions that the productions refer to are sound. -/
structure Grammar.Sane (g : Grammar) : Prop where
  expression : ∀ conditional filters, Yields (g.expression conditional filters) (Expr.Sound .ordinary)
  negation : ∀ filters, Yields (g.negation filters) (Expr.Sound .ordinary)
  signed : Yields g.signed (Expr.Sound .ordinary)
  group : Yields g.group (Expr.Sound .ordinary)

/-! ### Lists of sound expressions -/

theorem sound_one (he : e.Sound r) : ∀ x ∈ [e], x.Sound r :=
  List.forall_mem_singleton.2 he

theorem sound_append {es fs : List Expr} (he : ∀ x ∈ es, x.Sound r) (hf : ∀ x ∈ fs, x.Sound r) :
    ∀ x ∈ es ++ fs, x.Sound r :=
  List.forall_mem_append.2 ⟨he, hf⟩

theorem sound_cons {es : List Expr} (he : e.Sound r) (hes : ∀ x ∈ es, x.Sound r) :
    ∀ x ∈ e :: es, x.Sound r :=
  List.forall_mem_cons.2 ⟨he, hes⟩

theorem sound_some (he : e.Sound r) : ∀ x ∈ some e, x.Sound r := by
  intro x hx
  obtain rfl := Option.some.inj hx
  exact he

theorem sound_none : ∀ x ∈ (none : Option Expr), x.Sound r :=
  nofun

theorem sound_two {left right : Expr} (hleft : left.Sound r) (hright : right.Sound r) :
    ∀ x ∈ [left, right], x.Sound r :=
  sound_cons hleft (sound_one hright)

/-! ### Arguments -/

/-- **Sound arguments.** -/
def Arguments.Sound (args : Arguments Expr) : Prop :=
  ∀ e ∈ args.values, e.Sound .ordinary

theorem Arguments.sound_empty : ({} : Arguments Expr).Sound :=
  nofun

/-- Arguments with one more value. -/
theorem Arguments.Sound.more {args more : Arguments Expr} (h : args.Sound) (he : e.Sound .ordinary)
    (hmore : ∀ x ∈ more.values, x ∈ args.values ∨ x = e) : more.Sound := by
  intro x hx
  rcases hmore x hx with hx | rfl
  · exact h x hx
  · exact he

theorem yields_plainArgument (hg : g.Sane) {form : ArgumentForm} {line : Nat}
    {args : Arguments Expr} (ha : args.Sound) :
    Yields (parsePlainArgument g form line args) Arguments.Sound := by
  refine yields_after fun _ => yields_after fun _ => yields_after fun _ => ?_
  split
  · exact yields_after fun _ => (hg.expression true _).bind fun e he =>
      .pure (ha.more he (by grind [Arguments.values]))
  · exact yields_after fun _ => (hg.expression true _).bind fun e he =>
      .pure (ha.more he (by grind [Arguments.values]))

theorem yields_argument (hg : g.Sane) {form : ArgumentForm} {line : Nat} {args : Arguments Expr}
    (ha : args.Sound) : Yields (parseArgument g form line args) Arguments.Sound := by
  refine yields_after fun _ => .ite ?_ <| yields_after fun _ => .ite ?_ ?_
  · exact yields_after fun _ => yields_after fun _ => (hg.expression true true).bind fun e he =>
      .pure (ha.more he (by grind [Arguments.values]))
  · exact yields_after fun _ => yields_after fun _ => (hg.expression true true).bind fun e he =>
      .pure (ha.more he (by grind [Arguments.values]))
  · exact yields_plainArgument hg ha

theorem yields_argumentList (hg : g.Sane) (form : ArgumentForm) (line : Nat) :
    Yields (parseArgumentList g form line) Arguments.Sound := by
  refine .loop (fun x => x.1.Sound) Arguments.sound_empty fun x hx => ?_
  obtain ⟨args, later⟩ := x
  refine yields_after fun _ => .ite (.pure hx) ?_
  refine yields_after fun _ => yields_after fun _ => .ite (.pure hx) ?_
  exact (yields_argument hg hx).bind fun y hy => .pure hy

theorem yields_arguments (hg : g.Sane) : Yields (parseArguments g) Arguments.Sound := by
  refine yields_after fun t => ?_
  cases ArgumentForm.ofToken? t with
  | none => exact yields_failAt
  | some form =>
      refine yields_after fun _ => (yields_argumentList hg form _).bind fun args ha => ?_
      exact .ite (yields_after fun _ => .pure ha) (.pure ha)

theorem yields_optionalArguments (hg : g.Sane) :
    Yields (parseOptionalArguments g) Arguments.Sound :=
  yields_after fun _ => .ite (yields_arguments hg) (.pure Arguments.sound_empty)

/-! ### Calls and filters -/

/-- **A filter**, on an input or as the first one of a filter block. -/
theorem yields_filterName (hg : g.Sane) (hr : r = .ordinary ∨ r = .blockFilter) {node : Option Expr}
    (hnode : ∀ e ∈ node, e.Sound r) (hbare : node = none → r = .blockFilter) :
    Yields (parseFilterName g node) (Expr.Sound r) :=
  yields_after fun _ => yields_after fun _ => (yields_optionalArguments hg).bind fun _ ha =>
    .pure (Expr.sound_filter hr hnode hbare ha)

theorem yields_filters (hg : g.Sane) (hr : r = .ordinary ∨ r = .blockFilter) {node : Option Expr}
    (hnode : ∀ e ∈ node, e.Sound r) (hbare : node = none → r = .blockFilter) (bare : Bool) :
    Yields (parseFilters g node bare) (Expr.Sound r) := by
  refine .loop (fun x => (∀ e ∈ x.1, e.Sound r) ∧ (x.1 = none → r = .blockFilter)) ⟨hnode, hbare⟩
    fun x hx => ?_
  obtain ⟨node, bare⟩ := x
  have hnext : Yields (do
      let e ← parseFilterName g node
      return .inl (some e, false) : Parser ((Option Expr × Bool) ⊕ Expr))
        (Sum.elim (fun x => (∀ e ∈ x.1, e.Sound r) ∧ (x.1 = none → r = .blockFilter))
          (Expr.Sound r)) :=
    (yields_filterName hg hr hx.1 hx.2).bind fun e he => .pure ⟨sound_some he, nofun⟩
  refine .ite hnext <| yields_after fun _ => .ite hnext ?_
  cases node with
  | none => exact yields_fail
  | some e => exact .pure (hx.1 e rfl)

theorem yields_call (hg : g.Sane) (he : e.Sound .ordinary) :
    Yields (parseCall g e) (Expr.Sound .ordinary) :=
  yields_after fun _ => (yields_arguments hg).bind fun _ ha =>
    .pure (.of_children (sound_cons he ha) rfl trivial trivial)

/-! ### Primaries -/

theorem yields_items {closing : Symbol} {item : Parser α} {post : α → Prop} (h : Yields item post) :
    Yields (parseItems closing item) (fun xs => ∀ x ∈ xs, post x) := by
  refine .loop (fun xs => ∀ x ∈ xs, post x) nofun fun xs hxs => ?_
  refine yields_after fun _ => .ite (.pure hxs) <| yields_after fun _ => ?_
  refine yields_after fun _ => .ite (.pure hxs) <| h.bind fun x hx => .pure ?_
  exact List.forall_mem_append.2 ⟨hxs, List.forall_mem_singleton.2 hx⟩

theorem yields_list (hg : g.Sane) : Yields (parseList g) (Expr.Sound .ordinary) :=
  yields_after fun _ => (yields_items (hg.expression true true)).bind fun _ hitems =>
    yields_after fun _ => .pure (.of_children hitems rfl trivial trivial)

theorem yields_entry (hg : g.Sane) :
    Yields (parseEntry g) (fun x => x.key.Sound .ordinary ∧ x.value.Sound .ordinary) :=
  (hg.expression true true).bind fun _ hkey => yields_after fun _ =>
    (hg.expression true true).bind fun _ hvalue => .pure ⟨hkey, hvalue⟩

theorem yields_dict (hg : g.Sane) : Yields (parseDict g) (Expr.Sound .ordinary) := by
  refine yields_after fun _ => (yields_items (yields_entry hg)).bind fun entries hentries => ?_
  refine yields_after fun _ => .pure (.of_children (fun c hc => ?_) rfl trivial trivial)
  obtain ⟨x, hx, hc⟩ := List.mem_flatMap.1 hc
  exact sound_two (hentries x hx).1 (hentries x hx).2 c hc

/-- **Range literals**: their expression comes from a stream of its own. -/
theorem yields_range (hg : g.Sane) (t : Token) (start stop : String) :
    Yields (parseRange g t start stop) (Expr.Sound .ordinary) := by
  refine yields_after fun first => yields_after fun last => yields_after fun s => ?_
  dsimp only
  split
  · exact yields_throw
  · next e behind hrun =>
      refine .ite (.pure ?_) yields_failAt
      unfold runOn at hrun
      split at hrun
      · next y z hy =>
          obtain ⟨rfl, -⟩ := Prod.mk.inj (Except.ok.inj hrun)
          exact hg.expression true true _ _ _ hy
      · nomatch hrun

/-- A name that is no constant is none of the names of constants. -/
theorem Constant.not_mem_of_ofName? {name : String} (h : ofName? name = Option.none) :
    name ∉ Expr.constantNames := by
  intro hmem
  simp only [Expr.constantNames, List.mem_cons, List.not_mem_nil, or_false] at hmem
  rcases hmem with rfl | rfl | rfl | rfl | rfl | rfl <;> nomatch h

/-- **Primaries** are sound. -/
theorem yields_primary (hg : g.Sane) : Yields (parsePrimary g) (Expr.Sound .ordinary) := by
  have hconst (value : Constant) (line : Nat) : (Expr.const value line).Sound .ordinary :=
    .of_children nofun rfl trivial trivial
  refine yields_after fun t => ?_
  split
  · refine yields_after fun _ => ?_
    split
    · exact .pure (hconst _ _)
    · next hname => exact .pure (.of_children nofun rfl trivial
        ⟨rfl, Constant.not_mem_of_ofName? hname⟩)
  · exact yields_after fun _ => yields_after fun _ => .pure (hconst _ _)
  · exact yields_after fun _ => .pure (hconst _ _)
  · exact yields_after fun _ => .pure (hconst _ _)
  · exact yields_after fun _ => hg.group.bind fun _ he => yields_after fun _ => .pure he
  · exact yields_list hg
  · exact yields_dict hg
  · exact yields_after fun _ => yields_range hg t _ _
  · exact yields_failAt

/-! ### Members, subscripts and calls -/

theorem yields_slicePart (hg : g.Sane) (ends : List Symbol) :
    Yields (parseSlicePart g ends) (fun o => ∀ e ∈ o, e.Sound .ordinary) :=
  yields_after fun _ => .ite (.pure nofun) <| (hg.expression true true).bind fun _ he =>
    .pure (sound_some he)

/-- A slice is sound as one of several subscripts. -/
theorem sound_slice {start stop step : Option Expr} {line : Nat}
    (hstart : ∀ e ∈ start, e.Sound .ordinary) (hstop : ∀ e ∈ stop, e.Sound .ordinary)
    (hstep : ∀ e ∈ step, e.Sound .ordinary) : (Expr.slice start stop step line).Sound .entry := by
  refine .mk ⟨.inr rfl, trivial, trivial⟩ (Expr.sound_map ?_)
  exact sound_append (sound_append (Expr.sound_option hstart) (Expr.sound_option hstop))
    (Expr.sound_option hstep)

theorem yields_sliceFrom (hg : g.Sane) {start : Option Expr}
    (hstart : ∀ e ∈ start, e.Sound .ordinary) (line : Nat) :
    Yields (parseSliceFrom g start line) (Expr.Sound .entry) := by
  refine (yields_slicePart hg _).bind fun stop hstop => yields_after fun _ => .ite ?_ ?_
  · exact (yields_slicePart hg _).bind fun step hstep => .pure (sound_slice hstart hstop hstep)
  · exact .pure (sound_slice hstart hstop sound_none)

theorem yields_subscript (hg : g.Sane) : Yields (parseSubscript g) (Expr.Sound .entry) := by
  refine yields_after fun _ => yields_after fun _ => .ite (yields_sliceFrom hg sound_none _) ?_
  refine (hg.expression true true).bind fun e he => yields_after fun _ => ?_
  exact .ite (yields_sliceFrom hg (sound_some he) _) (.pure he.entry)

theorem yields_subscripts (hg : g.Sane) :
    Yields (parseSubscripts g) (fun es => ∀ e ∈ es, e.Sound .entry) := by
  refine .loop (fun es => ∀ e ∈ es, e.Sound .entry) nofun fun es hes => ?_
  refine yields_after fun _ => .ite (.pure hes) <| yields_after fun _ => ?_
  exact (yields_subscript hg).bind fun e he => .pure (sound_append hes (sound_one he))

/-- An item of a sound expression. -/
theorem sound_item {node arg : Expr} {line : Nat} (hnode : node.Sound .ordinary)
    (harg : arg.Sound .subscript) : (Expr.item node arg line).Sound .ordinary :=
  .mk ⟨trivial, trivial, trivial⟩
    (List.forall_mem_cons.2 ⟨hnode, List.forall_mem_singleton.2 harg⟩)

theorem yields_member (he : e.Sound .ordinary) (line : Nat) :
    Yields (parseMember e line) (Expr.Sound .ordinary) := by
  refine yields_after fun t => ?_
  split
  · exact .pure (.of_children (sound_one he) rfl trivial trivial)
  · have hindex (index : Int64) : (Expr.const (.int index) t.line).Sound .ordinary :=
      .of_children nofun rfl trivial trivial
    exact .pure (sound_item he (hindex _).entry.subscript)
  · exact yields_failAt

/-- **Items.** Only several subscripts are a tuple. -/
theorem yields_item (hg : g.Sane) (he : e.Sound .ordinary) (line : Nat) :
    Yields (parseItem g e line) (Expr.Sound .ordinary) := by
  refine (yields_subscripts hg).bind fun es hes => yields_after fun _ => ?_
  split
  · exact .pure (sound_item he (hes _ List.mem_cons_self).subscript)
  · next hseveral =>
      refine .pure (sound_item he (Expr.sound_subscripts hes fun hlength => ?_))
      obtain ⟨x, rfl⟩ := List.length_eq_one_iff.1 hlength
      exact hseveral x rfl

theorem yields_postfixed (hg : g.Sane) (he : e.Sound .ordinary) :
    Yields (parsePostfix g e) (Expr.Sound .ordinary) := by
  refine .loop (Expr.Sound .ordinary) he fun node hnode => yields_after fun t => ?_
  split
  · exact yields_after fun _ => (yields_member hnode _).bind fun _ hx => .pure hx
  · exact yields_after fun _ => (yields_item hg hnode _).bind fun _ hx => .pure hx
  · exact (yields_call hg hnode).bind fun _ hx => .pure hx
  · exact .pure hnode

/-! ### Signs and tests -/

theorem yields_testArguments (hg : g.Sane) : Yields (parseTestArguments g) Arguments.Sound := by
  refine yields_after fun _ => .ite (yields_arguments hg) (.ite (.ite yields_fail ?_) ?_)
  · refine (yields_primary hg).bind fun e he => .pure ?_
    exact Arguments.sound_empty.more he (by grind [Arguments.values])
  · exact .pure Arguments.sound_empty

theorem yields_test (hg : g.Sane) (he : e.Sound .ordinary) :
    Yields (parseTest g e) (Expr.Sound .ordinary) := by
  refine yields_after fun _ => yields_after fun negated => yields_after fun _ => ?_
  refine yields_after fun name => (yields_testArguments hg).bind fun args ha => ?_
  have htest (line : Nat) : (Expr.test e name args line).Sound .ordinary :=
    .of_children (sound_cons he ha) rfl trivial trivial
  cases negated with
  | true => exact .pure (.of_children (sound_one (htest _)) rfl trivial trivial)
  | false => exact .pure (htest _)

theorem yields_trailers (hg : g.Sane) (he : e.Sound .ordinary) :
    Yields (parseTrailers g e) (Expr.Sound .ordinary) := by
  refine .loop (Expr.Sound .ordinary) he fun node hnode => ?_
  refine yields_after fun _ => .ite ?_ (.ite ?_ (.ite ?_ (.pure hnode)))
  · exact (yields_filters hg (.inl rfl) (sound_some hnode) nofun false).bind fun _ hx => .pure hx
  · exact (yields_test hg hnode).bind fun _ hx => .pure hx
  · exact (yields_call hg hnode).bind fun _ hx => .pure hx

theorem yields_sign (hg : g.Sane) : Yields (parseSign g) (Expr.Sound .ordinary) := by
  refine yields_after fun _ => .ite ?_ (.ite ?_ (yields_primary hg))
  · refine yields_after fun _ => hg.signed.bind fun _ he => .pure ?_
    exact .of_children (sound_one he) rfl trivial trivial
  · refine yields_after fun _ => hg.signed.bind fun _ he => .pure ?_
    exact .of_children (sound_one he) rfl trivial trivial

theorem yields_signed (hg : g.Sane) (filters : Bool) :
    Yields (parseSigned g filters) (Expr.Sound .ordinary) :=
  (yields_sign hg).bind fun _ he => (yields_postfixed hg he).bind fun _ he =>
    .ite (yields_trailers hg he) (.pure he)

/-! ### Operators -/

/-- **Chains of arithmetic operators.** -/
theorem yields_binary {operand : Parser Expr} (h : Yields operand (Expr.Sound .ordinary))
    (operator? : Token → Option BinaryOp) :
    Yields (leftChain operand fun t => (operator? t).map Expr.binary) (Expr.Sound .ordinary) := by
  refine yields_leftChain h fun t build hbuild left right line hleft hright => ?_
  obtain ⟨op, _, rfl⟩ := Option.map_eq_some_iff.1 hbuild
  exact .of_children (sound_two hleft hright) rfl trivial trivial

theorem yields_product (hg : g.Sane) (filters : Bool) :
    Yields (parseProduct g filters) (Expr.Sound .ordinary) :=
  yields_binary (yields_binary (yields_signed hg filters) _) _

/-- **Joined texts**: two of them at least. -/
theorem yields_concat (hg : g.Sane) (filters : Bool) :
    Yields (parseConcat g filters) (Expr.Sound .ordinary) := by
  have hnodes : Yields (parseConcatNodes g filters)
      (fun es => es ≠ [] ∧ ∀ e ∈ es, e.Sound .ordinary) := by
    refine (yields_product hg filters).bind fun first hfirst => ?_
    refine .loop (fun es => es ≠ [] ∧ ∀ e ∈ es, e.Sound .ordinary) ⟨nofun, sound_one hfirst⟩
      fun es hes => yields_after fun _ => .ite ?_ (.pure hes)
    refine (yields_product hg filters).bind fun e he => .pure ⟨?_, sound_append hes.2 (sound_one he)⟩
    exact fun h => hes.1 (List.append_eq_nil_iff.1 h).1
  refine yields_after fun _ => hnodes.bind fun es hes => ?_
  obtain ⟨hne, hes⟩ := hes
  match es with
  | [] => exact absurd rfl hne
  | [e] => exact .pure (hes e List.mem_cons_self)
  | x :: y :: es =>
      have hlength : 2 ≤ (x :: y :: es).length := Nat.le_add_left 2 es.length
      exact .pure (.of_children hes rfl hlength trivial)

theorem yields_sum (hg : g.Sane) (filters : Bool) :
    Yields (parseSum g filters) (Expr.Sound .ordinary) :=
  yields_binary (yields_concat hg filters) _

/-- A chain of comparisons with at least one link. -/
theorem sound_compare {operands : List (Operand Expr)} {line : Nat} (he : e.Sound .ordinary)
    (hoperands : ∀ o ∈ operands, o.expr.Sound .ordinary) (hne : operands ≠ []) :
    (Expr.compare e operands line).Sound .ordinary := by
  refine .mk ⟨hne, trivial, trivial⟩ (List.forall_mem_cons.2 ⟨?_, Expr.sound_map ?_⟩)
  · have hrole : Role.ofChain operands = .ordinary ∨ Role.ofChain operands = .subject := by
      unfold Role.ofChain
      split
      · exact .inr rfl
      · exact .inl rfl
    rcases hrole with hrole | hrole
    · rw [hrole]
      exact he
    · rw [hrole]
      exact he.subject
  · intro x hx
    obtain ⟨o, ho, rfl⟩ := List.mem_map.1 hx
    exact hoperands o ho

theorem yields_compare (hg : g.Sane) (filters : Bool) :
    Yields (parseCompare g filters) (Expr.Sound .ordinary) := by
  have hoperands (line : Nat) : Yields (parseOperands g filters line)
      (fun x => ∀ o ∈ x.1, o.expr.Sound .ordinary) := by
    refine .loop (fun x => ∀ o ∈ x.1, o.expr.Sound .ordinary) nofun fun x hx => ?_
    obtain ⟨operands, line⟩ := x
    refine yields_after fun op => ?_
    cases op with
    | none => exact .pure hx
    | some op =>
        refine (yields_sum hg filters).bind fun e he => yields_after fun _ => .pure ?_
        exact List.forall_mem_append.2 ⟨hx, List.forall_mem_singleton.2 he⟩
  refine yields_after fun _ => (yields_sum hg filters).bind fun e he => ?_
  refine (hoperands _).bind fun x hx => .pure ?_
  obtain ⟨operands, line⟩ := x
  cases operands with
  | nil => exact he
  | cons o operands => exact sound_compare he hx (List.cons_ne_nil o operands)

theorem yields_negation (hg : g.Sane) (filters : Bool) :
    Yields (parseNegation g filters) (Expr.Sound .ordinary) := by
  refine yields_after fun _ => .ite ?_ (yields_compare hg filters)
  exact yields_after fun _ => (hg.negation filters).bind fun _ he =>
    .pure (.of_children (sound_one he) rfl trivial trivial)

/-- **Chains** of `and` or `or`. -/
theorem yields_named {operand : Parser Expr} (h : Yields operand (Expr.Sound .ordinary))
    {name : String} {make : Expr → Expr → Nat → Expr}
    (hmake : ∀ left right line, left.Sound .ordinary → right.Sound .ordinary →
      (make left right line).Sound .ordinary) :
    Yields (leftChain operand fun t => if t.isName name then some make else none)
      (Expr.Sound .ordinary) := by
  refine yields_leftChain h fun t build hbuild => ?_
  split at hbuild
  · exact Option.some.inj hbuild ▸ hmake
  · nomatch hbuild

theorem yields_or (hg : g.Sane) (filters : Bool) :
    Yields (parseOr g filters) (Expr.Sound .ordinary) := by
  have hand : Yields (parseAnd g filters) (Expr.Sound .ordinary) :=
    yields_named (yields_negation hg filters) fun _ _ _ hleft hright =>
      .of_children (sound_two hleft hright) rfl trivial trivial
  exact yields_named hand fun _ _ _ hleft hright =>
    .of_children (sound_two hleft hright) rfl trivial trivial

theorem yields_conditional (hg : g.Sane) (filters : Bool) :
    Yields (parseConditional g filters) (Expr.Sound .ordinary) := by
  have helse : Yields (parseElse? g) (fun o => ∀ e ∈ o, e.Sound .ordinary) :=
    yields_after fun _ => .ite ((hg.expression true true).bind fun _ he => .pure (sound_some he))
      (.pure nofun)
  refine yields_after fun _ => (yields_or hg filters).bind fun first hfirst => ?_
  refine .loop (fun x => x.1.Sound .ordinary) hfirst fun x hx => ?_
  obtain ⟨e, line⟩ := x
  refine yields_after fun _ => .ite ?_ (.pure hx)
  refine (yields_or hg filters).bind fun cond hcond => helse.bind fun no hno => ?_
  refine yields_after fun _ => .pure (.of_children ?_ rfl trivial trivial)
  exact sound_cons hcond (sound_cons hx (Expr.sound_option hno))

/-- **Expressions** are sound. -/
theorem yields_expression (hg : g.Sane) (conditional filters : Bool) :
    Yields (parseExpression g conditional filters) (Expr.Sound .ordinary) :=
  .ite (yields_conditional hg filters) (yields_or hg filters)

/-! ### Tuples and targets -/

theorem yields_tupleItem (hg : g.Sane) (item : TupleItem) :
    Yields (parseTupleItem g item) (Expr.Sound .ordinary) := by
  cases item with
  | primary => exact yields_primary hg
  | expression conditional => exact yields_expression hg conditional true

/-- **Tuples** are sound. -/
theorem yields_tuple (hg : g.Sane) (item : TupleItem) (ends : List TokenRule)
    (parentheses : Bool) : Yields (parseTuple g item ends parentheses) (Expr.Sound .ordinary) := by
  have hitems (line : Nat) : Yields (parseTupleItems g item ends line)
      (fun read => ∀ e ∈ read.items, e.Sound .ordinary) := by
    refine .loop (fun read => ∀ e ∈ read.items, e.Sound .ordinary) nofun fun read hread => ?_
    refine yields_after fun _ => yields_after fun _ => .ite (.pure hread) ?_
    refine (yields_tupleItem hg item).bind fun e he => yields_after fun _ => ?_
    have hmore := sound_append hread (sound_one he)
    exact .ite (.pure hmore) (.pure hmore)
  have htuple {items : List Expr} (line : Nat) (h : ∀ e ∈ items, e.Sound .ordinary) :
      (Expr.tuple items .load line).Sound .ordinary := .of_children h rfl trivial rfl
  refine yields_after fun _ => (hitems _).bind fun read hread => ?_
  split
  · next e es _ hes => exact .pure (hread e (hes ▸ List.mem_cons_self))
  · exact .ite (.pure (htuple _ nofun)) (yields_after fun _ => yields_fail)
  · exact .pure (htuple _ hread)

theorem yields_anyTuple (hg : g.Sane) : Yields (parseAnyTuple g) (Expr.Sound .ordinary) :=
  yields_tuple hg _ _ _

theorem yields_assignable (target : Expr) :
    Yields (requireAssignable target) (fun x => x = target ∧ x.isAssignable = true) := by
  unfold requireAssignable
  split
  · next hassign => exact .pure ⟨rfl, hassign⟩
  · exact yields_failAt

/-- **Names to assign to** are none of those of constants. -/
theorem yields_targetName : Yields parseTargetName
    (fun x => ∃ name line, x = .name name .store line ∧ name ∉ Expr.constantNames) := by
  refine yields_after fun t => (yields_assignable _).mono fun x hx => ?_
  obtain ⟨rfl, hassign⟩ := hx
  have hname : (!Expr.constantNames.contains t.nameText) = true := hassign
  refine ⟨t.nameText, t.line, rfl, fun hmem => ?_⟩
  rw [List.contains_iff_mem.2 hmem] at hname
  nomatch hname

/-- **Targets** come from sound expressions, whose names then are written. -/
theorem yields_target (hg : g.Sane) (withTuple : Bool) (ends : List TokenRule) :
    Yields (parseTarget g withTuple ends) (fun x => ∃ e : Expr, e.Sound .ordinary ∧
      e.isAssignable = true ∧ x = e.setContext .store) := by
  have hassignable (e : Expr) (he : e.Sound .ordinary) :
      Yields (requireAssignable (e.setContext .store)) (fun x => ∃ e : Expr, e.Sound .ordinary ∧
        e.isAssignable = true ∧ x = e.setContext .store) := by
    refine (yields_assignable _).mono fun x hx => ?_
    obtain ⟨rfl, hassign⟩ := hx
    exact ⟨e, he, Expr.isAssignable_setContext .store e ▸ hassign, rfl⟩
  cases withTuple with
  | true => exact (yields_tuple hg _ _ _).bind hassignable
  | false => exact (yields_primary hg).bind hassignable

end LiquidTemplate
