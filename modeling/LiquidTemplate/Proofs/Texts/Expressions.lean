import LiquidTemplate.Grammar.Tags
import LiquidTemplate.Proofs.Texts.Quiet

/-!
# Expressions are quiet

No expression has text in it, and none reaches beyond its tag. Each production is quiet if those
that it refers to are.

* `Whispers`: a parser of expressions that is quiet and gives no text.
* `Grammar.Hushed`: a grammar whose expressions are quiet.
* `quiet_arguments`, `quiet_primary`, `quiet_expression`, `quiet_tuple`: the productions.
-/

namespace LiquidTemplate

open LiquidTemplate.Parser LiquidTemplate.Grammar

variable {g : Grammar} {s : ParserState} {e : Expr}

/-- **Whispering**: quiet in every state, with an expression without text. -/
def Parser.Whispers (p : Parser Expr) : Prop :=
  ∀ s, Quiet p s Expr.Textless

/-! ### Lists without text -/

theorem textless_one (he : e.Textless) : ∀ x ∈ [e], x.Textless :=
  List.forall_mem_singleton.2 he

theorem textless_append {es fs : List Expr} (he : ∀ x ∈ es, x.Textless)
    (hf : ∀ x ∈ fs, x.Textless) : ∀ x ∈ es ++ fs, x.Textless :=
  List.forall_mem_append.2 ⟨he, hf⟩

theorem textless_cons {es : List Expr} (he : e.Textless) (hes : ∀ x ∈ es, x.Textless) :
    ∀ x ∈ e :: es, x.Textless :=
  List.forall_mem_cons.2 ⟨he, hes⟩

theorem textless_some (he : e.Textless) : ∀ x ∈ some e, x.Textless := by
  intro x hx
  obtain rfl := Option.some.inj hx
  exact he

theorem textless_toList {o : Option Expr} (ho : ∀ x ∈ o, x.Textless) :
    ∀ x ∈ o.toList, x.Textless :=
  fun x hx => ho x (Option.mem_toList.1 hx)

/-- **A hushed grammar.** All expressions that its productions refer to are quiet. -/
structure Grammar.Hushed (g : Grammar) : Prop where
  expression : ∀ conditional filters, (g.expression conditional filters).Whispers
  negation : ∀ filters, (g.negation filters).Whispers
  signed : g.signed.Whispers
  group : g.group.Whispers

/-! ### Arguments -/

/-- **Arguments without text.** -/
def Arguments.Textless (args : Arguments Expr) : Prop :=
  ∀ e ∈ args.values, e.Textless

theorem Arguments.textless_empty : ({} : Arguments Expr).Textless :=
  nofun

/-- Arguments with one more value. -/
theorem Arguments.Textless.more {args more : Arguments Expr} (h : args.Textless) (he : e.Textless)
    (hmore : ∀ x ∈ more.values, x ∈ args.values ∨ x = e) : more.Textless := by
  intro x hx
  rcases hmore x hx with hx | rfl
  · exact h x hx
  · exact he

theorem Arguments.Textless.positional {args : Arguments Expr} (h : args.Textless)
    (he : e.Textless) : Textless { args with positional := args.positional ++ [e] } :=
  h.more he (by grind [values])

theorem Arguments.Textless.keyword {args : Arguments Expr} (h : args.Textless) (he : e.Textless)
    (key : String) (line : Nat) :
    Textless { args with keywords := args.keywords ++ [⟨key, e, line⟩] } :=
  h.more he (by grind [values])

theorem Arguments.Textless.spread {args : Arguments Expr} (h : args.Textless) (he : e.Textless) :
    Textless { args with spread := some e } :=
  h.more he (by grind [values])

theorem Arguments.Textless.spreadKeywords {args : Arguments Expr} (h : args.Textless)
    (he : e.Textless) : Textless { args with spreadKeywords := some e } :=
  h.more he (by grind [values])

/-- What is done if the arguments are in order. -/
theorem Quiet.required {β : Type} {f : Unit → Parser β} {post : β → Prop} {ok : Bool} {line : Nat}
    (h : Quiet (f ()) s post) : Quiet (require ok line >>= f) s post := by
  cases ok with
  | true => exact h
  | false => exact Quiet.failAt.bind fun _ (hf : False) => hf.elim

theorem quiet_separator {needed : Bool} : Quiet (parseSeparator needed) s (fun _ => True) := by
  cases needed with
  | true => exact Quiet.demand trivial (Quiet.pure trivial)
  | false => exact Quiet.pure trivial

theorem quiet_plainArgument (hg : g.Hushed) {form : ArgumentForm} {line : Nat}
    {args : Arguments Expr} (ha : args.Textless) :
    Quiet (parsePlainArgument g form line args) s Arguments.Textless := by
  refine Quiet.required <| Quiet.see <| Quiet.foresee ?_
  split
  · next key hname hassign =>
      have hplain : s.stream.current.kind.Plain := by
        rw [Token.name?_eq_some_iff.1 hname]
        trivial
      refine Quiet.drop_two hplain (Token.plain_of_isSymbol hassign) ?_
      exact (hg.expression true _ _).bind fun e he _ => Quiet.pure (ha.keyword he key _)
  · refine Quiet.required ?_
    exact (hg.expression true _ _).bind fun e he _ => Quiet.pure (ha.positional he)

theorem quiet_argument (hg : g.Hushed) {form : ArgumentForm} {line : Nat} {args : Arguments Expr}
    (ha : args.Textless) : Quiet (parseArgument g form line args) s Arguments.Textless := by
  refine Quiet.symbol ?_
  split
  · next hmul =>
      refine Quiet.required <| Quiet.drop (Token.plain_of_isSymbol hmul) ?_
      exact (hg.expression true true _).bind fun e he _ => Quiet.pure (ha.spread he)
  · refine Quiet.symbol ?_
    split
    · next hpow =>
        refine Quiet.required <| Quiet.drop (Token.plain_of_isSymbol hpow) ?_
        exact (hg.expression true true _).bind fun e he _ => Quiet.pure (ha.spreadKeywords he)
    · exact quiet_plainArgument hg ha

theorem quiet_argumentList (hg : g.Hushed) (form : ArgumentForm) (line : Nat) :
    Quiet (parseArgumentList g form line) s Arguments.Textless := by
  refine Quiet.loop (fun x => x.1.Textless) Arguments.textless_empty fun x hx s => ?_
  obtain ⟨args, later⟩ := x
  refine Quiet.see ?_
  split
  · exact Quiet.pure hx
  · refine quiet_separator.bind fun _ _ t => Quiet.see ?_
    split
    · exact Quiet.pure hx
    · exact (quiet_argument hg hx).bind fun y hy _ => Quiet.pure hy

/-- A list of arguments ends before the token that closes it. -/
theorem isClosedBy_of_argumentList {form : ArgumentForm} {line : Nat} {args : Arguments Expr}
    {t : ParserState} (h : parseArgumentList g form line s = .ok args t) :
    form.isClosedBy t.stream.current = true := by
  obtain ⟨⟨args', later⟩, u, _, hlast⟩ :=
    repeatFrom_induction (fun _ _ => True) (fun _ _ _ _ _ _ _ => trivial) trivial h
  obtain ⟨tok, v, hv, hlast⟩ := bind_eq_ok.1 hlast
  obtain ⟨rfl, rfl⟩ := current_eq_ok.1 hv
  split at hlast
  · next hclosed =>
      obtain ⟨-, rfl⟩ := EStateM.Result.ok.inj hlast
      exact hclosed
  · obtain ⟨_, w, hw, hlast⟩ := bind_eq_ok.1 hlast
    obtain ⟨tok, x, hx, hlast⟩ := bind_eq_ok.1 hlast
    obtain ⟨rfl, rfl⟩ := current_eq_ok.1 hx
    split at hlast
    · next hclosed =>
        obtain ⟨-, rfl⟩ := EStateM.Result.ok.inj hlast
        exact hclosed
    · obtain ⟨_, _, _, hlast⟩ := bind_eq_ok.1 hlast
      nomatch hlast

theorem quiet_arguments (hg : g.Hushed) : Quiet (parseArguments g) s Arguments.Textless := by
  refine Quiet.see ?_
  split
  · exact Quiet.failAt
  · next form hform =>
      have hplain : s.stream.current.kind.Plain := by
        unfold ArgumentForm.ofToken? at hform
        split at hform
        · next h => exact Token.plain_of_isSymbol h
        · split at hform
          · next h => exact Token.plain_of_isSymbol h
          · nomatch hform
      refine Quiet.drop hplain ?_
      refine (quiet_argumentList hg form _).bind_ok fun args t ht ha => ?_
      split
      · next hparens =>
          subst hparens
          exact Quiet.drop (Token.plain_of_isSymbol (isClosedBy_of_argumentList ht)) (Quiet.pure ha)
      · exact Quiet.pure ha

/-! ### Calls and filters -/

theorem quiet_optionalArguments (hg : g.Hushed) :
    Quiet (parseOptionalArguments g) s Arguments.Textless := by
  refine Quiet.see ?_
  split
  · exact quiet_arguments hg
  · exact Quiet.pure Arguments.textless_empty

theorem quiet_dottedName (first : String) : Quiet (parseDottedName first) s (fun _ => True) := by
  refine Quiet.loop (fun _ => True) trivial fun name _ s => ?_
  exact Quiet.skips trivial (Quiet.demand trivial (Quiet.pure trivial)) (Quiet.pure trivial)

theorem quiet_filterName (hg : g.Hushed) {node : Option Expr} (hn : ∀ e ∈ node, e.Textless) :
    Quiet (parseFilterName g node) s Expr.Textless := by
  refine Quiet.demand trivial ?_
  refine (quiet_dottedName _).bind fun name _ _ => ?_
  refine (quiet_optionalArguments hg).bind fun args ha _ => Quiet.pure ?_
  exact .of_children rfl (textless_append (textless_toList hn) ha)

theorem quiet_filters (hg : g.Hushed) {node : Option Expr} (hn : ∀ e ∈ node, e.Textless)
    (bare : Bool) : Quiet (parseFilters g node bare) s Expr.Textless := by
  refine Quiet.loop (fun x => ∀ e ∈ x.1, e.Textless) hn fun x hx s => ?_
  obtain ⟨node, bare⟩ := x
  have hnext (s : ParserState) : Quiet (do
      let e ← parseFilterName g node
      return .inl (some e, false) : Parser ((Option Expr × Bool) ⊕ Expr)) s
        (Sum.elim (fun x => ∀ e ∈ x.1, e.Textless) Expr.Textless) := by
    exact (quiet_filterName hg hx).bind fun e he _ => Quiet.pure (textless_some he)
  show Quiet (if bare then _ else _) s _
  split
  · exact hnext s
  · refine Quiet.skips trivial (hnext _) ?_
    cases node with
    | none => exact Quiet.fail
    | some e => exact Quiet.pure (hx e rfl)

theorem quiet_call (hg : g.Hushed) (he : e.Textless) : Quiet (parseCall g e) s Expr.Textless := by
  refine Quiet.see <| (quiet_arguments hg).bind fun args ha _ => Quiet.pure ?_
  exact .of_children rfl (textless_cons he ha)

/-! ### Primaries -/

theorem quiet_items {α : Type} {closing : Symbol} {item : Parser α} {post : α → Prop}
    (h : ∀ s, Quiet item s post) :
    Quiet (parseItems closing item) s (fun xs => ∀ x ∈ xs, post x) := by
  refine Quiet.loop (fun xs => ∀ x ∈ xs, post x) nofun fun xs hxs s => Quiet.symbol ?_
  split
  · exact Quiet.pure hxs
  · refine quiet_separator.bind fun _ _ t => Quiet.symbol ?_
    split
    · exact Quiet.pure hxs
    · refine (h t).bind fun x hx _ => Quiet.pure ?_
      exact List.forall_mem_append.2 ⟨hxs, List.forall_mem_singleton.2 hx⟩

theorem quiet_list (hg : g.Hushed) : Quiet (parseList g) s Expr.Textless := by
  refine Quiet.demand trivial ?_
  refine (quiet_items (hg.expression true true)).bind fun items hitems _ => ?_
  exact Quiet.demand trivial (Quiet.pure (.of_children rfl hitems))

/-- **An entry without text.** -/
def Entry.Textless (x : Entry Expr) : Prop :=
  x.key.Textless ∧ x.value.Textless

theorem quiet_entry (hg : g.Hushed) : Quiet (parseEntry g) s Entry.Textless := by
  refine (hg.expression true true s).bind fun key hkey t => ?_
  refine Quiet.demand trivial ?_
  exact (hg.expression true true _).bind fun value hvalue _ => Quiet.pure ⟨hkey, hvalue⟩

theorem quiet_dict (hg : g.Hushed) : Quiet (parseDict g) s Expr.Textless := by
  refine Quiet.demand trivial ?_
  refine (quiet_items fun _ => quiet_entry hg).bind fun entries hentries _ => ?_
  refine Quiet.demand trivial (Quiet.pure (.of_children rfl fun c hc => ?_))
  obtain ⟨x, hx, hc⟩ := List.mem_flatMap.1 hc
  exact textless_cons (hentries x hx).1 (textless_one (hentries x hx).2) c hc

/-- The bounds of a range literal are read elsewhere. -/
theorem quiet_bound {text : String} {t : Token} : Quiet (parseBound g text t) s (fun _ => True) := by
  refine Quiet.state ?_
  split
  · exact Quiet.throw
  · split
    · exact Quiet.failAt
    · split
      · exact Quiet.pure trivial
      · exact Quiet.failAt

theorem quiet_range (hg : g.Hushed) {t : Token} {start stop : String} :
    Quiet (parseRange g t start stop) s Expr.Textless := by
  refine quiet_bound.bind fun first _ _ => quiet_bound.bind fun last _ u => Quiet.state ?_
  dsimp only
  split
  · exact Quiet.throw
  · next e behind hrun =>
      split
      · refine Quiet.pure ?_
        -- The expression comes from a stream of its own.
        unfold runOn at hrun
        split at hrun
        · next y z hy =>
            obtain ⟨rfl, -⟩ := Prod.mk.inj (Except.ok.inj hrun)
            exact (hg.expression true true _ _ _ hy).2
        · nomatch hrun
      · exact Quiet.failAt

theorem quiet_string (first : String) : Quiet (parseString first) s (fun _ => True) := by
  refine Quiet.loop (fun _ => True) trivial fun text _ s => Quiet.see ?_
  cases hk : s.stream.current.kind with
  | string more => exact Quiet.drop (by rw [hk]; trivial) (Quiet.pure trivial)
  | _ => exact Quiet.pure trivial

/-- **Primaries** are quiet. -/
theorem quiet_primary (hg : g.Hushed) : Quiet (parsePrimary g) s Expr.Textless := by
  have hplain {k : Token.Kind} (hk : s.stream.current.kind = k) (h : k.Plain) :
      s.stream.current.kind.Plain := hk ▸ h
  refine Quiet.see ?_
  cases hk : s.stream.current.kind with
  | name name =>
      refine Quiet.drop (hplain hk trivial) ?_
      split
      · exact Quiet.pure (.of_children rfl nofun)
      · exact Quiet.pure (.of_children rfl nofun)
  | string first =>
      refine Quiet.drop (hplain hk trivial) ?_
      exact (quiet_string first).bind fun text _ _ => Quiet.pure (.of_children rfl nofun)
  | integer value =>
      exact Quiet.drop (hplain hk trivial) (Quiet.pure (.of_children rfl nofun))
  | float value =>
      exact Quiet.drop (hplain hk trivial) (Quiet.pure (.of_children rfl nofun))
  | range start stop => exact Quiet.drop (hplain hk trivial) (quiet_range hg)
  | symbol c =>
      cases c with
      | lParen =>
          refine Quiet.drop (hplain hk trivial) ?_
          refine (hg.group _).bind fun e he _ => ?_
          exact Quiet.demand trivial (Quiet.pure he)
      | lBracket => exact quiet_list hg
      | lBrace => exact quiet_dict hg
      | _ => exact Quiet.failAt
  | _ => exact Quiet.failAt

/-! ### Members, subscripts and calls -/

theorem quiet_slicePart (hg : g.Hushed) (ends : List Symbol) :
    Quiet (parseSlicePart g ends) s (fun o => ∀ e ∈ o, e.Textless) := by
  refine Quiet.see ?_
  split
  · exact Quiet.pure nofun
  · exact (hg.expression true true s).bind fun e he _ => Quiet.pure (textless_some he)

theorem textless_slice {start stop step : Option Expr} {line : Nat}
    (hstart : ∀ e ∈ start, e.Textless) (hstop : ∀ e ∈ stop, e.Textless)
    (hstep : ∀ e ∈ step, e.Textless) : (Expr.slice start stop step line).Textless :=
  .of_children rfl <| textless_append
    (textless_append (textless_toList hstart) (textless_toList hstop)) (textless_toList hstep)

theorem quiet_sliceFrom (hg : g.Hushed) {start : Option Expr} (hstart : ∀ e ∈ start, e.Textless)
    (line : Nat) : Quiet (parseSliceFrom g start line) s Expr.Textless := by
  refine (quiet_slicePart hg _).bind fun stop hstop t => Quiet.skips trivial ?_ ?_
  · refine (quiet_slicePart hg _).bind fun step hstep _ => ?_
    exact Quiet.pure (textless_slice hstart hstop hstep)
  · exact Quiet.pure (textless_slice hstart hstop nofun)

theorem quiet_subscript (hg : g.Hushed) : Quiet (parseSubscript g) s Expr.Textless := by
  have hnone : ∀ e ∈ (none : Option Expr), e.Textless := nofun
  refine Quiet.see <| Quiet.skips trivial (quiet_sliceFrom hg hnone _) ?_
  refine (hg.expression true true s).bind fun e he t => Quiet.skips trivial ?_ (Quiet.pure he)
  exact quiet_sliceFrom hg (textless_some he) _

theorem quiet_subscripts (hg : g.Hushed) :
    Quiet (parseSubscripts g) s (fun es => ∀ e ∈ es, e.Textless) := by
  refine Quiet.loop (fun es => ∀ e ∈ es, e.Textless) nofun fun es hes s => Quiet.symbol ?_
  split
  · exact Quiet.pure hes
  · refine quiet_separator.bind fun _ _ t => (quiet_subscript hg).bind fun e he _ => Quiet.pure ?_
    exact textless_append hes (textless_one he)

theorem textless_item {node arg : Expr} {line : Nat} (hn : node.Textless) (ha : arg.Textless) :
    (Expr.item node arg line).Textless :=
  .of_children rfl (textless_cons hn (textless_one ha))

theorem quiet_member (he : e.Textless) (line : Nat) :
    Quiet (parseMember e line) s Expr.Textless := by
  intro x t h
  obtain ⟨tok, u, hu, h⟩ := bind_eq_ok.1 h
  obtain ⟨rfl, rfl⟩ : tok = s.stream.current ∧ u = s.stepped := by
    obtain ⟨rfl, rfl⟩ := EStateM.Result.ok.inj hu
    exact ⟨rfl, rfl⟩
  have hplain {k : Token.Kind} (hk : s.stream.current.kind = k) (h : k.Plain) :
      s.Passes s.stepped := s.passes_stepped (hk ▸ h)
  cases hk : s.stream.current.kind with
  | name attr =>
      rw [hk] at h
      obtain ⟨rfl, rfl⟩ := EStateM.Result.ok.inj h
      exact ⟨hplain hk trivial, .of_children rfl (textless_one he)⟩
  | integer index =>
      rw [hk] at h
      obtain ⟨rfl, rfl⟩ := EStateM.Result.ok.inj h
      exact ⟨hplain hk trivial, textless_item he (.of_children rfl nofun)⟩
  | _ =>
      rw [hk] at h
      nomatch h

theorem quiet_item (hg : g.Hushed) (he : e.Textless) (line : Nat) :
    Quiet (parseItem g e line) s Expr.Textless := by
  refine (quiet_subscripts hg).bind fun subscripts hsub _ => Quiet.demand trivial ?_
  have htuple : (Expr.tuple subscripts .load line).Textless := .of_children rfl hsub
  match subscripts with
  | [x] => exact Quiet.pure (textless_item he (hsub x List.mem_cons_self))
  | [] => exact Quiet.pure (textless_item he htuple)
  | x :: y :: xs => exact Quiet.pure (textless_item he htuple)

theorem quiet_postfixed (hg : g.Hushed) (he : e.Textless) :
    Quiet (parsePostfix g e) s Expr.Textless := by
  refine Quiet.loop Expr.Textless he fun e he s => Quiet.see ?_
  cases hk : s.stream.current.kind with
  | symbol c =>
      have hplain : s.stream.current.kind.Plain := by
        rw [hk]
        trivial
      cases c with
      | dot => exact Quiet.drop hplain <| (quiet_member he _).bind fun x hx _ => Quiet.pure hx
      | lBracket => exact Quiet.drop hplain <| (quiet_item hg he _).bind fun x hx _ => Quiet.pure hx
      | lParen => exact (quiet_call hg he).bind fun x hx _ => Quiet.pure hx
      | _ => exact Quiet.pure he
  | _ => exact Quiet.pure he

/-! ### Signs and tests -/

theorem quiet_testArguments (hg : g.Hushed) :
    Quiet (parseTestArguments g) s Arguments.Textless := by
  refine Quiet.see ?_
  split
  · exact quiet_arguments hg
  · split
    · split
      · exact Quiet.fail
      · refine (quiet_primary hg).bind fun e he _ => Quiet.pure ?_
        exact Arguments.textless_empty.positional he
    · exact Quiet.pure Arguments.textless_empty

theorem textless_not {line : Nat} (he : e.Textless) : (Expr.not e line).Textless :=
  .of_children rfl (textless_one he)

theorem quiet_test (hg : g.Hushed) (he : e.Textless) (his : s.stream.current.isName "is" = true) :
    Quiet (parseTest g e) s Expr.Textless := by
  refine Quiet.take (Token.plain_of_isName his) ?_
  have hrest (negated : Bool) (t : ParserState) : Quiet (do
      let first ← expectAnyName
      let name ← parseDottedName first.nameText
      let args ← parseTestArguments g
      let test := Expr.test e name args s.stream.current.line
      return if negated then .not test s.stream.current.line else test) t Expr.Textless := by
    refine Quiet.demand trivial ?_
    refine (quiet_dottedName _).bind fun name _ _ => ?_
    refine (quiet_testArguments hg).bind fun args ha _ => Quiet.pure ?_
    have htest : (Expr.test e name args s.stream.current.line).Textless :=
      .of_children rfl (textless_cons he ha)
    cases negated with
    | true => exact textless_not htest
    | false => exact htest
  exact Quiet.skips trivial (hrest true _) (hrest false _)

theorem quiet_trailers (hg : g.Hushed) (he : e.Textless) :
    Quiet (parseTrailers g e) s Expr.Textless := by
  refine Quiet.loop Expr.Textless he fun e he s => Quiet.see ?_
  split
  · exact (quiet_filters hg (textless_some he) false).bind fun x hx _ => Quiet.pure hx
  · split
    · next his => exact (quiet_test hg he his).bind fun x hx _ => Quiet.pure hx
    · split
      · exact (quiet_call hg he).bind fun x hx _ => Quiet.pure hx
      · exact Quiet.pure he

theorem quiet_sign (hg : g.Hushed) : Quiet (parseSign g) s Expr.Textless := by
  refine Quiet.see ?_
  split
  · next hsub =>
      refine Quiet.drop (Token.plain_of_isSymbol hsub) ?_
      exact (hg.signed _).bind fun e he _ => Quiet.pure (.of_children rfl (textless_one he))
  · split
    · next hadd =>
        refine Quiet.drop (Token.plain_of_isSymbol hadd) ?_
        exact (hg.signed _).bind fun e he _ => Quiet.pure (.of_children rfl (textless_one he))
    · exact quiet_primary hg

theorem quiet_signed (hg : g.Hushed) (filters : Bool) : (parseSigned g filters).Whispers := by
  intro s
  refine (quiet_sign hg).bind fun e he t => (quiet_postfixed hg he).bind fun x hx u => ?_
  split
  · exact quiet_trailers hg hx
  · exact Quiet.pure hx

/-! ### Operators -/

/-- **Operators**: plain tokens that make an expression without text of two without it. -/
def Operates (operator? : Token → Option (Expr → Expr → Nat → Expr)) : Prop :=
  ∀ t build, operator? t = some build → t.kind.Plain ∧
    ∀ left right line, left.Textless → right.Textless → (build left right line).Textless

theorem textless_binary {op : BinaryOp} {left right : Expr} {line : Nat} (hl : left.Textless)
    (hr : right.Textless) : (Expr.binary op left right line).Textless :=
  .of_children rfl (textless_cons hl (textless_one hr))

theorem textless_and {left right : Expr} {line : Nat} (hl : left.Textless)
    (hr : right.Textless) : (Expr.and left right line).Textless :=
  .of_children rfl (textless_cons hl (textless_one hr))

theorem textless_or {left right : Expr} {line : Nat} (hl : left.Textless)
    (hr : right.Textless) : (Expr.or left right line).Textless :=
  .of_children rfl (textless_cons hl (textless_one hr))

/-- **Chains** of quiet operands are quiet. -/
theorem quiet_leftChain {operand : Parser Expr}
    {operator? : Token → Option (Expr → Expr → Nat → Expr)} (h : operand.Whispers)
    (hop : Operates operator?) : (leftChain operand operator?).Whispers := by
  intro s
  refine Quiet.see <| (h s).bind fun first hfirst t => ?_
  refine Quiet.loop (fun x => x.1.Textless) hfirst fun x hx s => ?_
  obtain ⟨left, line⟩ := x
  refine Quiet.see ?_
  cases hbuild : operator? s.stream.current with
  | none => exact Quiet.pure hx
  | some build =>
      obtain ⟨hplain, htext⟩ := hop _ _ hbuild
      refine Quiet.drop hplain ?_
      refine (h _).bind fun right hright _ => Quiet.see (Quiet.pure ?_)
      exact htext left right line hx hright

theorem quiet_power (hg : g.Hushed) (filters : Bool) : (parsePower g filters).Whispers := by
  refine quiet_leftChain (quiet_signed hg filters) fun t build h => ?_
  obtain ⟨op, hop, rfl⟩ := Option.map_eq_some_iff.1 h
  refine ⟨?_, fun _ _ _ => textless_binary⟩
  unfold BinaryOp.power? at hop
  split at hop
  · next hpow => exact Token.plain_of_isSymbol hpow
  · nomatch hop

/-- The operators of arithmetic are symbols. -/
theorem plain_of_symbol {t : Token} (h : ∃ c, t.kind = .symbol c) : t.kind.Plain := by
  obtain ⟨c, hc⟩ := h
  rw [hc]
  trivial

theorem quiet_product (hg : g.Hushed) (filters : Bool) : (parseProduct g filters).Whispers := by
  refine quiet_leftChain (quiet_power hg filters) fun t build h => ?_
  obtain ⟨op, hop, rfl⟩ := Option.map_eq_some_iff.1 h
  refine ⟨plain_of_symbol ?_, fun _ _ _ => textless_binary⟩
  unfold BinaryOp.multiplicative? at hop
  split at hop <;> first | exact ⟨_, ‹_›⟩ | nomatch hop

theorem quiet_concat (hg : g.Hushed) (filters : Bool) : (parseConcat g filters).Whispers := by
  intro s
  have hnodes : Quiet (parseConcatNodes g filters) s (fun es => ∀ e ∈ es, e.Textless) := by
    refine (quiet_product hg filters s).bind fun first hfirst t => ?_
    refine Quiet.loop (fun es => ∀ e ∈ es, e.Textless) (textless_one hfirst) fun es hes s => ?_
    refine Quiet.skips trivial ?_ (Quiet.pure hes)
    refine (quiet_product hg filters _).bind fun e he _ => Quiet.pure ?_
    exact textless_append hes (textless_one he)
  refine Quiet.see <| hnodes.bind fun es hes _ => ?_
  match es with
  | [e] => exact Quiet.pure (hes e List.mem_cons_self)
  | [] => exact Quiet.pure (.of_children rfl hes)
  | e :: x :: xs => exact Quiet.pure (.of_children rfl hes)

theorem quiet_sum (hg : g.Hushed) (filters : Bool) : (parseSum g filters).Whispers := by
  refine quiet_leftChain (quiet_concat hg filters) fun t build h => ?_
  obtain ⟨op, hop, rfl⟩ := Option.map_eq_some_iff.1 h
  refine ⟨plain_of_symbol ?_, fun _ _ _ => textless_binary⟩
  unfold BinaryOp.additive? at hop
  split at hop <;> first | exact ⟨_, ‹_›⟩ | nomatch hop

theorem quiet_comparison : Quiet parseComparison? s (fun _ => True) := by
  refine Quiet.see ?_
  cases hop : Comparison.ofToken? s.stream.current with
  | some op =>
      have hplain : s.stream.current.kind.Plain := by
        refine plain_of_symbol ?_
        unfold Comparison.ofToken? at hop
        split at hop <;> first | exact ⟨_, ‹_›⟩ | nomatch hop
      exact Quiet.drop hplain (Quiet.pure trivial)
  | none =>
      dsimp only
      split
      · next hin => exact Quiet.drop (Token.plain_of_isName hin) (Quiet.pure trivial)
      · refine Quiet.foresee ?_
        split
        · next hnot =>
            obtain ⟨hnot, hin⟩ := Bool.and_eq_true_iff.1 hnot
            exact Quiet.drop_two (Token.plain_of_isName hnot) (Token.plain_of_isName hin)
              (Quiet.pure trivial)
        · exact Quiet.pure trivial

theorem quiet_compare (hg : g.Hushed) (filters : Bool) : (parseCompare g filters).Whispers := by
  intro s
  have hoperands (line : Nat) (s : ParserState) : Quiet (parseOperands g filters line) s
      (fun x => ∀ o ∈ x.1, o.expr.Textless) := by
    refine Quiet.loop (fun x => ∀ o ∈ x.1, o.expr.Textless) nofun fun x hx s => ?_
    obtain ⟨operands, line⟩ := x
    refine quiet_comparison.bind fun op _ t => ?_
    cases op with
    | none => exact Quiet.pure hx
    | some op =>
        refine (quiet_sum hg filters t).bind fun e he _ => Quiet.see (Quiet.pure ?_)
        exact List.forall_mem_append.2 ⟨hx, List.forall_mem_singleton.2 he⟩
  refine Quiet.see <| (quiet_sum hg filters s).bind fun e he t => ?_
  refine (hoperands _ t).bind fun x hx _ => ?_
  obtain ⟨operands, line⟩ := x
  refine Quiet.pure ?_
  split
  · exact he
  · exact .of_children rfl (textless_cons he (List.forall_mem_map.2 hx))

theorem quiet_negation (hg : g.Hushed) (filters : Bool) : (parseNegation g filters).Whispers := by
  intro s
  refine Quiet.see ?_
  split
  · next hnot =>
      refine Quiet.drop (Token.plain_of_isName hnot) ?_
      exact (hg.negation filters _).bind fun e he _ => Quiet.pure (textless_not he)
  · exact quiet_compare hg filters s

theorem quiet_and (hg : g.Hushed) (filters : Bool) : (parseAnd g filters).Whispers := by
  refine quiet_leftChain (quiet_negation hg filters) fun t build h => ?_
  split at h
  · next hand =>
      obtain rfl := Option.some.inj h
      exact ⟨Token.plain_of_isName hand, fun _ _ _ => textless_and⟩
  · nomatch h

theorem quiet_or (hg : g.Hushed) (filters : Bool) : (parseOr g filters).Whispers := by
  refine quiet_leftChain (quiet_and hg filters) fun t build h => ?_
  split at h
  · next hor =>
      obtain rfl := Option.some.inj h
      exact ⟨Token.plain_of_isName hor, fun _ _ _ => textless_or⟩
  · nomatch h

theorem quiet_conditional (hg : g.Hushed) (filters : Bool) :
    (parseConditional g filters).Whispers := by
  intro s
  refine Quiet.see <| (quiet_or hg filters s).bind fun first hfirst t => ?_
  refine Quiet.loop (fun x => x.1.Textless) hfirst fun x hx s => ?_
  obtain ⟨e, line⟩ := x
  refine Quiet.skips trivial ?_ (Quiet.pure hx)
  refine (quiet_or hg filters _).bind fun cond hcond t => ?_
  have helse : Quiet (parseElse? g) t (fun no => ∀ e ∈ no, e.Textless) := by
    refine Quiet.skips trivial ?_ (Quiet.pure nofun)
    exact (hg.expression true true _).bind fun e he _ => Quiet.pure (textless_some he)
  refine helse.bind fun no hno _ => Quiet.see (Quiet.pure (.of_children rfl ?_))
  exact textless_cons hcond (textless_cons hx (textless_toList hno))

/-- **Expressions** are quiet. -/
theorem quiet_expression (hg : g.Hushed) (conditional filters : Bool) :
    (parseExpression g conditional filters).Whispers := by
  cases conditional with
  | true => exact quiet_conditional hg filters
  | false => exact quiet_or hg filters

/-! ### Tuples and targets -/

theorem quiet_tupleItem (hg : g.Hushed) (item : TupleItem) : (parseTupleItem g item).Whispers := by
  cases item with
  | primary => exact fun s => quiet_primary hg
  | expression conditional => exact quiet_expression hg conditional true

/-- **Tuples** are quiet. -/
theorem quiet_tuple (hg : g.Hushed) (item : TupleItem) (ends : List TokenRule)
    (parentheses : Bool) : (parseTuple g item ends parentheses).Whispers := by
  intro s
  have hitems (line : Nat) (s : ParserState) : Quiet (parseTupleItems g item ends line) s
      (fun x => ∀ e ∈ x.items, e.Textless) := by
    refine Quiet.loop (fun x => ∀ e ∈ x.items, e.Textless) nofun fun x hx s => ?_
    refine quiet_separator.bind fun _ _ t => Quiet.see ?_
    split
    · exact Quiet.pure hx
    · refine (quiet_tupleItem hg item t).bind fun e he _ => Quiet.see ?_
      have hmore : ∀ y ∈ x.items ++ [e], y.Textless := textless_append hx (textless_one he)
      split
      · exact Quiet.pure hmore
      · exact Quiet.pure hmore
  refine Quiet.see <| (hitems _ s).bind fun x hx t => ?_
  obtain ⟨items, isTuple, line⟩ := x
  cases isTuple with
  | true => exact Quiet.pure (.of_children rfl hx)
  | false =>
      cases items with
      | cons e es => exact Quiet.pure (hx e List.mem_cons_self)
      | nil =>
          dsimp only
          split
          · exact Quiet.pure (.of_children rfl nofun)
          · exact Quiet.see Quiet.fail

theorem quiet_anyTuple (hg : g.Hushed) : (parseAnyTuple g).Whispers :=
  quiet_tuple hg _ _ _

theorem quiet_assignable (he : e.Textless) : Quiet (requireAssignable e) s Expr.Textless := by
  unfold requireAssignable
  split
  · exact Quiet.pure he
  · exact Quiet.failAt

theorem quiet_targetName : parseTargetName.Whispers :=
  fun _ => Quiet.demand trivial (quiet_assignable (.of_children rfl nofun))

theorem quiet_target (hg : g.Hushed) (ends : List TokenRule) :
    (parseTarget g true ends).Whispers := fun s =>
  (quiet_tuple hg .primary ends false s).bind fun _ he _ => quiet_assignable (he.setContext .store)

end LiquidTemplate
