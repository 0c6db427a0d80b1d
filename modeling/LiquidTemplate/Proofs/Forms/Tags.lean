import LiquidTemplate.Proofs.Forms.Bodies

/-!
# Tags made of tokens

Each tag makes statements of the tokens behind its name, if the grammar does so for the statements and
expressions deeper inside.

* `before_expression`, `before_targetName`: the parts of a tag.
* `Modifies`, `before_iterable`: the modifiers of a loop.
* `lowers_branch`, `lowers_for`, `lowers_set` and so on: the tags.
-/

namespace LiquidTemplate

open LiquidTemplate.Parser LiquidTemplate.Grammar LiquidTemplate.ParserState

variable {tokens : List Token} {e iter : Expr} {s t u v : ParserState} {g : Grammar} {stmt : Stmt}
  {ss : List Stmt} {line : Nat} {tag : String}

/-! ### Single tokens -/

theorem before_skipIf {rule : TokenRule} {found : Bool} (h : skipIf rule s = .ok found t) :
    s.Before t := by
  cases found with
  | true =>
    obtain ⟨-, rfl⟩ := skipIf_eq_true.1 h
    exact s.before_stepped
  | false =>
    obtain ⟨rfl, -⟩ := skipIf_eq_false.1 h
    exact .refl t

theorem before_context {o : Option Bool} (h : parseContext? s = .ok o t) : s.Before t := by
  have h := of_current h
  have hboth : s.Before t := by
    cases hfound : s.stream.current.isName "with" || s.stream.current.isName "without" with
    | false =>
      rw [hfound] at h
      obtain ⟨-, rfl⟩ := of_pure h
      exact .refl t
    | true =>
      rw [hfound] at h
      have h := of_look h
      split at h
      · have h := of_skipTwo h
        obtain ⟨-, rfl⟩ := of_pure h
        exact s.before_twice
      · obtain ⟨-, rfl⟩ := of_pure h
        exact .refl t
  exact hboth

theorem before_ignoreMissing {ignoring : Bool} (h : parseIgnoreMissing s = .ok ignoring t) :
    s.Before t := by
  have h := of_current h
  cases hfound : s.stream.current.isName "ignore" with
  | false =>
    rw [hfound] at h
    obtain ⟨-, rfl⟩ := of_pure h
    exact .refl t
  | true =>
    rw [hfound] at h
    have h := of_look h
    split at h
    · have h := of_skipTwo h
      obtain ⟨-, rfl⟩ := of_pure h
      exact s.before_twice
    · obtain ⟨-, rfl⟩ := of_pure h
      exact .refl t

/-- **One expression**, which is formed by what is consumed. -/
theorem before_expression (hg : g.Forming) (hs : s.stream.tokens <:+ tokens) {conditional filters : Bool}
    (h : parseExpression g conditional filters s = .ok e t) : s.Before t ∧ e.Fit tokens none :=
  have htook := took_expression hg conditional filters h
  ⟨htook.before, Expr.fit_of_expr hs htook⟩

theorem before_target (hg : g.Forming) (hs : s.stream.tokens <:+ tokens) {withTuple : Bool}
    {ends : List TokenRule} (h : parseTarget g withTuple ends s = .ok e t) :
    s.Before t ∧ e.Fit tokens none :=
  have htook := took_target hg h
  ⟨htook.before, Expr.fit_of_expr hs htook⟩

/-- **A name that is assigned to**, in any use. -/
theorem before_targetName (hs : s.stream.tokens <:+ tokens) (h : parseTargetName s = .ok e t) :
    s.Before t ∧ Token.Spelled tokens e.nameText ∧ ∀ c, (e.setContext c).Fit tokens none := by
  obtain ⟨text, rfl, hfits, rfl⟩ := took_targetName h
  have hname (c : Context) := took_token hfits (.name text c s.stream.current.line) rfl
  refine ⟨s.before_stepped, Token.spelled_current hs (Token.isName_iff.1 hfits), fun c => ?_⟩
  exact Expr.fit_of_expr hs (hname c)

/-! ### Conditions and loops -/

theorem lowers_alternatives (hg : g.Lowering tokens) (hs : s.stream.tokens <:+ tokens)
    (h : parseAlternatives g tag s = .ok ss t) : Lowers tokens s t ss := by
  have hstep := s.before_stepped
  have h := of_advance h
  split at h
  · have h := of_current h
    obtain ⟨stmt, u, hu, h⟩ := bind_eq_ok.1 h
    obtain ⟨rfl, rfl⟩ := of_pure h
    exact (hg.branch _ _ _ _ _ (hstep.tokens.trans hs) hu).between hstep (.refl _)
  · split at h
    · exact (lowers_statements hg (hstep.tokens.trans hs) h).between hstep (.refl _)
    · obtain ⟨rfl, rfl⟩ := of_pure h
      exact .nothing hstep

/-- **Conditions.** The negation that `unless` puts around its test belongs to the tokens of the
test. -/
theorem lowers_branch (hg : g.Lowering tokens) (hs : s.stream.tokens <:+ tokens) {negate : Bool}
    (h : parseBranch g line tag negate s = .ok stmt t) : Lowers tokens s t [stmt] := by
  obtain ⟨e, u, hu, h⟩ := bind_eq_ok.1 h
  obtain ⟨body, v, hv, h⟩ := bind_eq_ok.1 h
  obtain ⟨otherwise, w, hw, h⟩ := bind_eq_ok.1 h
  obtain ⟨rfl, rfl⟩ := of_pure h
  have htook := took_fullTuple hg.toForming hu
  have he := Expr.fit_of_expr hs htook
  have htest : (if negate then Expr.not e e.line else e).Fit tokens none := by
    split
    · refine .mk ((Expr.Consumes.negation htook.forms).consumedIn hs htook.suffix) ?_
      exact List.forall_mem_singleton.2 he
    · exact he
  have hbody := lowers_statements hg (htook.suffix.trans hs) hv
  have hotherwise := lowers_alternatives hg (hbody.before.tokens.trans (htook.suffix.trans hs)) hw
  exact .one htook.before (hbody.append hotherwise) (.refl _)
    ⟨List.forall_mem_singleton.2 htest, nofun⟩

/-- **Modifiers of a loop** whose iterable is read of `ts` before `us`: there are none, or what they
put around it belongs to its tokens and to those of the modifiers. -/
structure Modifies (tokens : List Token) (iter : Expr) (m : LoopModifiers) : Prop where
  limit : ∀ e ∈ m.limit, e.Fit tokens none
  offset : ∀ e ∈ m.offset, e.Fit tokens none
  built : m = {} ∨ ∀ e, LoopModifiers.Builds iter e → e.ConsumedIn tokens none

/-- **A modified iterable.** -/
theorem Modifies.apply {m : LoopModifiers} (h : Modifies tokens iter m) (hiter : iter.Fit tokens none) :
    (m.apply iter).Fit tokens none := by
  rcases h.built with rfl | hbuilt
  · exact hiter
  have hzero : (Expr.const (.int 0) iter.line).Fit tokens none := .mk (hbuilt _ .first) nofun
  have hnone : (Expr.const .none iter.line).Fit tokens none := .mk (hbuilt _ .last) nofun
  have hstart : (m.offset.getD (.const (.int 0) iter.line)).Fit tokens none := by
    cases hoffset : m.offset with
    | none => exact hzero
    | some offset => exact h.offset offset hoffset
  have hslice : (m.slice iter.line).Fit tokens none := by
    unfold LoopModifiers.slice
    cases hlimit : m.limit with
    | none =>
      exact .mk (hbuilt _ (.slice _ _))
        (List.forall_mem_cons.2 ⟨hstart, List.forall_mem_singleton.2 hnone⟩)
    | some limit =>
      have hstop : (Expr.binary .add (m.offset.getD (.const (.int 0) iter.line)) limit
          iter.line).Fit tokens none :=
        .mk (hbuilt _ (.stop _ _))
          (List.forall_mem_cons.2 ⟨hstart, List.forall_mem_singleton.2 (h.limit limit hlimit)⟩)
      exact .mk (hbuilt _ (.slice _ _))
        (List.forall_mem_cons.2 ⟨hstart, List.forall_mem_singleton.2 hstop⟩)
  have hpart : (if m.limit.isSome || m.offset.isSome then
      Expr.item iter (m.slice iter.line) iter.line else iter).Fit tokens none := by
    split
    · exact .mk (hbuilt _ (.part _)) (List.forall_mem_cons.2 ⟨hiter, List.forall_mem_singleton.2 hslice⟩)
    · exact hiter
  unfold LoopModifiers.apply
  dsimp only
  split
  · exact .mk (hbuilt _ (.reverse _)) (List.forall_mem_singleton.2 hpart)
  · exact hpart

theorem before_modifierValue (hg : g.Forming) (hs : s.stream.tokens <:+ tokens)
    (h : parseModifierValue g s = .ok e t) : s.Before t ∧ e.Fit tokens none := by
  obtain ⟨-, h⟩ := of_expect h
  have htook := hg.expression _ _ _ _ _ h
  exact ⟨s.before_stepped.trans htook.before, Expr.fit_of_expr (s.stepped_suffix.trans hs) htook⟩

/-- **Modifiers as far as they have been read**, behind an iterable that has been taken. Each of them
begins with a token. -/
structure ModifiersRead (tokens : List Token) (iter : Expr) (s t : ParserState) (m : LoopModifiers)
    (v : ParserState) : Prop where
  before : s.Before v
  limit : ∀ e ∈ m.limit, e.Fit tokens none
  offset : ∀ e ∈ m.offset, e.Fit tokens none
  first : m = {} ∧ v = t ∨ t.stream.current.isEnd = false ∧ t.stepped.Before v

namespace ModifiersRead

variable {m n : LoopModifiers}

theorem modifies (h : ModifiersRead tokens iter s t m v) (hs : s.stream.tokens <:+ tokens)
    (hiter : s.Took t [.expr iter]) : Modifies tokens iter m := by
  refine ⟨h.limit, h.offset, ?_⟩
  rcases h.first with ⟨rfl, -⟩ | ⟨hend, hv⟩
  · exact .inl rfl
  · refine .inr fun e he => ?_
    have hlater : v.stream.tokens <:+ t.stream.later := stepped_tokens hend ▸ hv.tokens
    have hconsumes : e.Consumes none s.stream.tokens v.stream.tokens :=
      .modifier hiter.forms hlater he
    exact hconsumes.consumedIn hs ((hlater.trans (List.suffix_cons _ _)).trans hiter.suffix)

/-- One more modifier, whose name is the current token. -/
theorem more (h : ModifiersRead tokens iter s t m u) (hend : u.stream.current.isEnd = false)
    (huv : u.stepped.Before v) (hlimit : ∀ e ∈ n.limit, e.Fit tokens none)
    (hoffset : ∀ e ∈ n.offset, e.Fit tokens none) : ModifiersRead tokens iter s t n v := by
  refine ⟨(h.before.trans u.before_stepped).trans huv, hlimit, hoffset, .inr ?_⟩
  rcases h.first with ⟨-, rfl⟩ | ⟨hfirst, hbefore⟩
  · exact ⟨hend, huv⟩
  · exact ⟨hfirst, (hbefore.trans u.before_stepped).trans huv⟩

end ModifiersRead

/-- **The modifiers** behind an iterable that has been taken. -/
theorem modifiersRead (hg : g.Forming) (hs : s.stream.tokens <:+ tokens) (hst : s.Before t)
    {m : LoopModifiers} (h : parseModifiers g t = .ok m u) : ModifiersRead tokens iter s t m u := by
  refine repeatFrom_rule (fun m v => ModifiersRead tokens iter s t m v)
    (fun m v => ModifiersRead tokens iter s t m v) ?_ ⟨hst, by simp, by simp, .inl ⟨rfl, rfl⟩⟩ h
  intro m v z w hm hz
  have hvalue (e : Expr) (w' : ParserState) (he : parseModifierValue g v.stepped = .ok e w') :=
    before_modifierValue hg ((hm.before.trans v.before_stepped).tokens.trans hs) he
  rcases of_skipIf hz with ⟨hword, hz⟩ | hz
  · obtain ⟨rfl, rfl⟩ := of_pure hz
    exact hm.more (Token.isEnd_of_fits hword) (.refl _) hm.limit hm.offset
  rcases of_skipIf hz with ⟨hword, hz⟩ | hz
  · obtain ⟨e, w', he, hz⟩ := bind_eq_ok.1 hz
    obtain ⟨rfl, rfl⟩ := of_pure hz
    obtain ⟨hbefore, he⟩ := hvalue e w he
    exact hm.more (Token.isEnd_of_fits hword) hbefore (fun d hd => Option.some.inj hd ▸ he) hm.offset
  rcases of_skipIf hz with ⟨hword, hz⟩ | hz
  · obtain ⟨e, w', he, hz⟩ := bind_eq_ok.1 hz
    obtain ⟨rfl, rfl⟩ := of_pure hz
    obtain ⟨hbefore, he⟩ := hvalue e w he
    exact hm.more (Token.isEnd_of_fits hword) hbefore hm.limit fun d hd => Option.some.inj hd ▸ he
  obtain ⟨rfl, rfl⟩ := of_pure hz
  exact hm

theorem before_iterable (hg : g.Forming) (hs : s.stream.tokens <:+ tokens)
    (h : parseIterable g s = .ok e t) : s.Before t ∧ e.Fit tokens none := by
  obtain ⟨iter, u, hu, h⟩ := bind_eq_ok.1 h
  obtain ⟨m, v, hv, h⟩ := bind_eq_ok.1 h
  obtain ⟨rfl, rfl⟩ := of_pure h
  have htook := took_fullTuple hg hu
  have hm : ModifiersRead tokens iter s u m t := modifiersRead hg hs htook.before hv
  exact ⟨hm.before, (hm.modifies hs htook).apply (Expr.fit_of_expr hs htook)⟩

theorem before_loopTest (hg : g.Forming) (hs : s.stream.tokens <:+ tokens) {o : Option Expr}
    (h : parseLoopTest? g s = .ok o t) : s.Before t ∧ ∀ e ∈ o.toList, e.Fit tokens none := by
  rcases of_skipIf h with ⟨-, h⟩ | h
  · obtain ⟨e, u, hu, h⟩ := bind_eq_ok.1 h
    obtain ⟨rfl, rfl⟩ := of_pure h
    obtain ⟨hbefore, he⟩ := before_expression hg (s.stepped_suffix.trans hs) hu
    exact ⟨s.before_stepped.trans hbefore, List.forall_mem_singleton.2 he⟩
  · obtain ⟨rfl, rfl⟩ := of_pure h
    exact ⟨.refl _, nofun⟩

theorem lowers_loopElse (hg : g.Lowering tokens) (hs : s.stream.tokens <:+ tokens)
    (h : parseLoopElse g s = .ok ss t) : Lowers tokens s t ss := by
  have hstep := s.before_stepped
  have h := of_advance h
  split at h
  · obtain ⟨rfl, rfl⟩ := of_pure h
    exact .nothing hstep
  · exact (lowers_statements hg (hstep.tokens.trans hs) h).between hstep (.refl _)

/-- **Loops.** -/
theorem lowers_for (hg : g.Lowering tokens) (hs : s.stream.tokens <:+ tokens)
    (h : parseFor g s = .ok stmt t) : Lowers tokens s t [stmt] := by
  obtain ⟨-, h⟩ := of_expect h
  obtain ⟨target, u, hu, h⟩ := bind_eq_ok.1 h
  obtain ⟨hsu, htarget⟩ := before_target hg.toForming (s.stepped_suffix.trans hs) hu
  obtain ⟨-, h⟩ := of_expect h
  obtain ⟨iter, u', hu', h⟩ := bind_eq_ok.1 h
  have hsu := (s.before_stepped.trans hsu).trans u.before_stepped
  obtain ⟨hiterable, hiter⟩ := before_iterable hg.toForming (hsu.tokens.trans hs) hu'
  obtain ⟨test, v, hv, h⟩ := bind_eq_ok.1 h
  have hsu := hsu.trans hiterable
  obtain ⟨hloopTest, htest⟩ := before_loopTest hg.toForming (hsu.tokens.trans hs) hv
  obtain ⟨recursive, v', hv', h⟩ := bind_eq_ok.1 h
  have hsv := (hsu.trans hloopTest).trans (before_skipIf hv')
  obtain ⟨body, w, hw, h⟩ := bind_eq_ok.1 h
  have hbody := lowers_statements hg (hsv.tokens.trans hs) hw
  obtain ⟨otherwise, w', hw', h⟩ := bind_eq_ok.1 h
  have hotherwise := lowers_loopElse hg ((hsv.trans hbody.before).tokens.trans hs) hw'
  obtain ⟨rfl, rfl⟩ := of_pure h
  refine .one hsv (hbody.append hotherwise) (.refl _) ⟨?_, nofun⟩
  exact List.forall_mem_cons.2 ⟨htarget, List.forall_mem_cons.2 ⟨hiter, htest⟩⟩

/-! ### Output and assignments -/

theorem before_separator {needed : Bool} {x : Unit} (h : parseSeparator needed s = .ok x t) :
    s.Before t := by
  rcases took_separator h with htook | htook
  · exact htook.before
  · exact htook.before

theorem lowers_print (hg : g.Lowering tokens) (hs : s.stream.tokens <:+ tokens)
    (h : parsePrint g s = .ok stmt t) : Lowers tokens s t [stmt] := by
  have h := of_advance h
  obtain ⟨nodes, u, hu, h⟩ := bind_eq_ok.1 h
  obtain ⟨rfl, rfl⟩ := of_pure h
  have hnodes : s.Before t ∧ ∀ e ∈ nodes, e.Fit tokens none := by
    refine repeatFrom_rule (fun nodes u => s.Before u ∧ ∀ e ∈ nodes, Expr.Fit tokens none e)
      (fun nodes u => s.Before u ∧ ∀ e ∈ nodes, Expr.Fit tokens none e) ?_
      ⟨s.before_stepped, List.forall_mem_nil _⟩ hu
    rintro nodes u z v ⟨hsu, hnodes⟩ hz
    have hz := of_atMark hz
    split at hz
    · obtain ⟨rfl, rfl⟩ := of_pure hz
      exact ⟨hsu, hnodes⟩
    · obtain ⟨_, w, hw, hz⟩ := bind_eq_ok.1 hz
      have hsw := hsu.trans (before_separator hw)
      obtain ⟨e, w', hw', hz⟩ := bind_eq_ok.1 hz
      obtain ⟨hbefore, he⟩ := before_expression hg.toForming (hsw.tokens.trans hs) hw'
      obtain ⟨rfl, rfl⟩ := of_pure hz
      exact ⟨hsw.trans hbefore, List.forall_mem_append.2 ⟨hnodes, List.forall_mem_singleton.2 he⟩⟩
  exact .simple hnodes.1 rfl ⟨hnodes.2, nofun⟩

theorem lowers_set (hg : g.Lowering tokens) (hs : s.stream.tokens <:+ tokens)
    (h : parseSet g tag s = .ok stmt t) : Lowers tokens s t [stmt] := by
  have h := of_advance h
  obtain ⟨target, u, hu, h⟩ := bind_eq_ok.1 h
  obtain ⟨hsu, htarget⟩ := before_target hg.toForming (s.stepped_suffix.trans hs) hu
  have hsu := s.before_stepped.trans hsu
  rcases of_skipIf h with ⟨-, h⟩ | h
  · obtain ⟨value, v, hv, h⟩ := bind_eq_ok.1 h
    obtain ⟨rfl, rfl⟩ := of_pure h
    have hsu := hsu.trans u.before_stepped
    have htook := took_anyTuple hg.toForming hv
    have hvalue := Expr.fit_of_expr (hsu.tokens.trans hs) htook
    refine .simple (hsu.trans htook.before) rfl ⟨?_, nofun⟩
    exact List.forall_mem_cons.2 ⟨htarget, List.forall_mem_singleton.2 hvalue⟩
  · obtain ⟨body, v, hv, h⟩ := bind_eq_ok.1 h
    obtain ⟨rfl, rfl⟩ := of_pure h
    have hbody := lowers_statements hg (hsu.tokens.trans hs) hv
    exact .one hsu hbody (.refl _) ⟨List.forall_mem_singleton.2 htarget, nofun⟩

theorem before_bindings (hg : g.Forming) (hs : s.stream.tokens <:+ tokens) {bs : List (Expr × Expr)}
    (h : parseBindings g s = .ok bs t) :
    s.Before t ∧ ∀ b ∈ bs, b.1.Fit tokens none ∧ b.2.Fit tokens none := by
  refine repeatFrom_rule
    (fun bs u => s.Before u ∧ ∀ b ∈ bs, Expr.Fit tokens none b.1 ∧ Expr.Fit tokens none b.2)
    (fun bs u => s.Before u ∧ ∀ b ∈ bs, Expr.Fit tokens none b.1 ∧ Expr.Fit tokens none b.2) ?_
    ⟨.refl s, nofun⟩ h
  rintro bs u z v ⟨hsu, hbs⟩ hz
  have hz := of_atMark hz
  split at hz
  · obtain ⟨rfl, rfl⟩ := of_pure hz
    exact ⟨hsu, hbs⟩
  · obtain ⟨_, w, hw, hz⟩ := bind_eq_ok.1 hz
    have hsw := hsu.trans (before_separator hw)
    obtain ⟨target, w', hw', hz⟩ := bind_eq_ok.1 hz
    have htook := took_target hg hw'
    have htarget := Expr.fit_of_expr (hsw.tokens.trans hs) (htook.setContext .param)
    obtain ⟨-, hz⟩ := of_expect hz
    obtain ⟨value, x, hx, hz⟩ := bind_eq_ok.1 hz
    have hsw := (hsw.trans htook.before).trans w'.before_stepped
    obtain ⟨hbefore, hvalue⟩ := before_expression hg (hsw.tokens.trans hs) hx
    obtain ⟨rfl, rfl⟩ := of_pure hz
    refine ⟨hsw.trans hbefore, List.forall_mem_append.2 ⟨hbs, ?_⟩⟩
    exact List.forall_mem_singleton.2 ⟨htarget, hvalue⟩

theorem lowers_with (hg : g.Lowering tokens) (hs : s.stream.tokens <:+ tokens)
    (h : parseWith g s = .ok stmt t) : Lowers tokens s t [stmt] := by
  have h := of_advance h
  obtain ⟨bs, u, hu, h⟩ := bind_eq_ok.1 h
  obtain ⟨hsu, hbs⟩ := before_bindings hg.toForming (s.stepped_suffix.trans hs) hu
  have hsu := s.before_stepped.trans hsu
  obtain ⟨body, v, hv, h⟩ := bind_eq_ok.1 h
  obtain ⟨rfl, rfl⟩ := of_pure h
  have hbody := lowers_statements hg (hsu.tokens.trans hs) hv
  refine .one hsu hbody (.refl _) ⟨List.forall_mem_append.2 ⟨?_, ?_⟩, nofun⟩
  · exact List.forall_mem_map.2 fun b hb => (hbs b hb).1
  · exact List.forall_mem_map.2 fun b hb => (hbs b hb).2

/-- The name of the option is that of the tag. -/
theorem lowers_autoescape (hg : g.Lowering tokens) (hs : s.stream.tokens <:+ tokens)
    (hname : s.stream.current.kind = .name "autoescape") (h : parseAutoescape g s = .ok stmt t) :
    Lowers tokens s t [stmt] := by
  have h := of_advance h
  obtain ⟨value, u, hu, h⟩ := bind_eq_ok.1 h
  obtain ⟨hsu, hvalue⟩ := before_expression hg.toForming (s.stepped_suffix.trans hs) hu
  have hsu := s.before_stepped.trans hsu
  obtain ⟨body, v, hv, h⟩ := bind_eq_ok.1 h
  obtain ⟨rfl, rfl⟩ := of_pure h
  have hbody := lowers_statements hg (hsu.tokens.trans hs) hv
  have hinner : Lowers tokens s t
      [.optionBlock [⟨"autoescape", value, value.line⟩] body s.stream.current.line] := by
    refine .one hsu hbody (.refl _) ⟨List.forall_mem_singleton.2 hvalue, ?_⟩
    exact List.forall_mem_singleton.2 (Token.spelled_current hs hname)
  exact .one (.refl s) hinner (.refl _) ⟨nofun, nofun⟩

/-! ### Other templates -/

theorem lowers_extends (hg : g.Lowering tokens) (hs : s.stream.tokens <:+ tokens)
    (h : parseExtends g s = .ok stmt t) : Lowers tokens s t [stmt] := by
  have h := of_advance h
  obtain ⟨e, u, hu, h⟩ := bind_eq_ok.1 h
  obtain ⟨rfl, rfl⟩ := of_pure h
  obtain ⟨hsu, he⟩ := before_expression hg.toForming (s.stepped_suffix.trans hs) hu
  exact .simple (s.before_stepped.trans hsu) rfl ⟨List.forall_mem_singleton.2 he, nofun⟩

theorem lowers_inclusion (hg : g.Lowering tokens) (hs : s.stream.tokens <:+ tokens)
    {make : Expr → Bool → Bool → Nat → Stmt}
    (hmake : ∀ e ignoring withContext line, (make e ignoring withContext line).exprs = [e] ∧
      (make e ignoring withContext line).names = [] ∧ (make e ignoring withContext line).body = [])
    (h : parseInclusion g make s = .ok stmt t) : Lowers tokens s t [stmt] := by
  have h := of_advance h
  obtain ⟨e, u, hu, h⟩ := bind_eq_ok.1 h
  obtain ⟨ignoring, v, hv, h⟩ := bind_eq_ok.1 h
  obtain ⟨context, w, hw, h⟩ := bind_eq_ok.1 h
  obtain ⟨rfl, rfl⟩ := of_pure h
  obtain ⟨hsu, he⟩ := before_expression hg.toForming (s.stepped_suffix.trans hs) hu
  have hsw := ((s.before_stepped.trans hsu).trans (before_ignoreMissing hv)).trans (before_context hw)
  obtain ⟨hexprs, hnames, hbody⟩ := hmake e ignoring (context.getD true) s.stream.current.line
  exact .simple hsw hbody ⟨hexprs ▸ List.forall_mem_singleton.2 he, hnames ▸ nofun⟩

theorem lowers_import (hg : g.Lowering tokens) (hs : s.stream.tokens <:+ tokens)
    (h : parseImport g s = .ok stmt t) : Lowers tokens s t [stmt] := by
  have h := of_advance h
  obtain ⟨e, u, hu, h⟩ := bind_eq_ok.1 h
  obtain ⟨hsu, he⟩ := before_expression hg.toForming (s.stepped_suffix.trans hs) hu
  have hsu := (s.before_stepped.trans hsu).trans u.before_stepped
  obtain ⟨-, h⟩ := of_expect h
  obtain ⟨target, v, hv, h⟩ := bind_eq_ok.1 h
  obtain ⟨huv, htarget, -⟩ := before_targetName (hsu.tokens.trans hs) hv
  obtain ⟨context, w, hw, h⟩ := bind_eq_ok.1 h
  obtain ⟨rfl, rfl⟩ := of_pure h
  exact .simple ((hsu.trans huv).trans (before_context hw)) rfl
    ⟨List.forall_mem_singleton.2 he, List.forall_mem_singleton.2 htarget⟩

/-- **Imported names** are spelled by tokens, and so are their other names. -/
def SpelledImports (tokens : List Token) (names : List ImportName) : Prop :=
  ∀ text ∈ names.flatMap fun x => x.name :: x.localName.toList, Token.Spelled tokens text

theorem before_alias (hs : s.stream.tokens <:+ tokens) {o : Option String}
    (h : parseAlias? s = .ok o t) : s.Before t ∧ ∀ text ∈ o.toList, Token.Spelled tokens text := by
  rcases of_skipIf h with ⟨-, h⟩ | h
  · obtain ⟨target, u, hu, h⟩ := bind_eq_ok.1 h
    obtain ⟨rfl, rfl⟩ := of_pure h
    obtain ⟨hbefore, htarget, -⟩ := before_targetName (s.stepped_suffix.trans hs) hu
    exact ⟨s.before_stepped.trans hbefore, List.forall_mem_singleton.2 htarget⟩
  · obtain ⟨rfl, rfl⟩ := of_pure h
    exact ⟨.refl _, nofun⟩

theorem before_importName (hs : s.stream.tokens <:+ tokens) {x : ImportName}
    (h : parseImportName s = .ok x t) : s.Before t ∧ SpelledImports tokens [x] := by
  obtain ⟨target, u, hu, h⟩ := bind_eq_ok.1 h
  obtain ⟨hsu, htarget, -⟩ := before_targetName hs hu
  split at h
  · exact absurd h (failAt_ne_ok _ _)
  · obtain ⟨other, v, hv, h⟩ := bind_eq_ok.1 h
    obtain ⟨rfl, rfl⟩ := of_pure h
    obtain ⟨huv, hother⟩ := before_alias (hsu.tokens.trans hs) hv
    refine ⟨hsu.trans huv, ?_⟩
    unfold SpelledImports
    rw [List.flatMap_singleton]
    exact List.forall_mem_cons.2 ⟨htarget, hother⟩

theorem SpelledImports.nil : SpelledImports tokens [] := by
  simp [SpelledImports]

theorem SpelledImports.concat {names : List ImportName} {x : ImportName}
    (h : SpelledImports tokens names) (hx : SpelledImports tokens [x]) :
    SpelledImports tokens (names ++ [x]) := by
  unfold SpelledImports
  rw [List.flatMap_append]
  exact List.forall_mem_append.2 ⟨h, hx⟩

theorem before_importEnd {names : List ImportName}
    {z : List ImportName ⊕ (List ImportName × Option Bool)} (h : parseImportEnd names s = .ok z t) :
    s.Before t ∧ (z = .inl names ∨ ∃ o, z = .inr (names, o)) := by
  obtain ⟨context, u, hu, h⟩ := bind_eq_ok.1 h
  have hsu := before_context hu
  cases context with
  | some context =>
    obtain ⟨rfl, rfl⟩ := of_pure h
    exact ⟨hsu, .inr ⟨_, rfl⟩⟩
  | none =>
    have h := of_atSymbol h
    split at h
    · obtain ⟨rfl, rfl⟩ := of_pure h
      exact ⟨hsu, .inl rfl⟩
    · obtain ⟨rfl, rfl⟩ := of_pure h
      exact ⟨hsu, .inr ⟨_, rfl⟩⟩

theorem before_importNames (hs : s.stream.tokens <:+ tokens) {x : List ImportName × Option Bool}
    (h : parseImportNames s = .ok x t) : s.Before t ∧ SpelledImports tokens x.1 := by
  refine repeatFrom_rule (fun names u => s.Before u ∧ SpelledImports tokens names)
    (fun x u => s.Before u ∧ SpelledImports tokens x.1) ?_ ⟨.refl s, .nil⟩ h
  rintro names u z v ⟨hsu, hnames⟩ hz
  obtain ⟨_, w, hw, hz⟩ := bind_eq_ok.1 hz
  have hsw := hsu.trans (before_separator hw)
  have hz := of_current hz
  split at hz
  · obtain ⟨rfl, rfl⟩ := of_pure hz
    exact ⟨hsw, hnames⟩
  · obtain ⟨context, w', hw', hz⟩ := bind_eq_ok.1 hz
    have hsw := hsw.trans (before_context hw')
    cases context with
    | some context =>
      obtain ⟨rfl, rfl⟩ := of_pure hz
      exact ⟨hsw, hnames⟩
    | none =>
      obtain ⟨name, x, hx, hz⟩ := bind_eq_ok.1 hz
      obtain ⟨hbefore, hname⟩ := before_importName (hsw.tokens.trans hs) hx
      have hsx := hsw.trans hbefore
      have hmore := hnames.concat hname
      obtain ⟨hend, rfl | ⟨o, rfl⟩⟩ := before_importEnd hz
      · exact ⟨hsx.trans hend, hmore⟩
      · exact ⟨hsx.trans hend, hmore⟩

theorem lowers_from (hg : g.Lowering tokens) (hs : s.stream.tokens <:+ tokens)
    (h : parseFrom g s = .ok stmt t) : Lowers tokens s t [stmt] := by
  have h := of_advance h
  obtain ⟨e, u, hu, h⟩ := bind_eq_ok.1 h
  obtain ⟨hsu, he⟩ := before_expression hg.toForming (s.stepped_suffix.trans hs) hu
  have hsu := (s.before_stepped.trans hsu).trans u.before_stepped
  obtain ⟨-, h⟩ := of_expect h
  obtain ⟨⟨names, context⟩, v, hv, h⟩ := bind_eq_ok.1 h
  obtain ⟨huv, hnames⟩ := before_importNames (hsu.tokens.trans hs) hv
  have hsv := hsu.trans huv
  cases context with
  | some context =>
    obtain ⟨rfl, rfl⟩ := of_pure h
    exact .simple hsv rfl ⟨List.forall_mem_singleton.2 he, hnames⟩
  | none =>
    obtain ⟨found, w, hw, h⟩ := bind_eq_ok.1 h
    obtain ⟨rfl, rfl⟩ := of_pure h
    exact .simple (hsv.trans (before_skipIf hw)) rfl ⟨List.forall_mem_singleton.2 he, hnames⟩

/-! ### Definitions and calls -/

/-- **Signatures of a template.** -/
def Grammar.Signature.Fit (tokens : List Token) (sig : Signature) : Prop :=
  ∀ e ∈ sig.params ++ sig.defaults, e.Fit tokens none

theorem Grammar.Signature.fit_empty : ({} : Signature).Fit tokens := by
  simp [Signature.Fit]

theorem before_parameter (hg : g.Forming) (hs : s.stream.tokens <:+ tokens) {sig x : Signature}
    (hsig : sig.Fit tokens) (h : parseParameter g sig s = .ok x t) : s.Before t ∧ x.Fit tokens := by
  obtain ⟨hparams, hdefaults⟩ := List.forall_mem_append.1 hsig
  obtain ⟨param, u, hu, h⟩ := bind_eq_ok.1 h
  obtain ⟨hsu, -, hparam⟩ := before_targetName hs hu
  have hparams := List.forall_mem_append.2 ⟨hparams, List.forall_mem_singleton.2 (hparam .param)⟩
  rcases of_skipIf h with ⟨-, h⟩ | h
  · obtain ⟨value, v, hv, h⟩ := bind_eq_ok.1 h
    obtain ⟨rfl, rfl⟩ := of_pure h
    have hsu := hsu.trans u.before_stepped
    obtain ⟨hbefore, hvalue⟩ := before_expression hg (hsu.tokens.trans hs) hv
    refine ⟨hsu.trans hbefore, List.forall_mem_append.2 ⟨hparams, ?_⟩⟩
    exact List.forall_mem_append.2 ⟨hdefaults, List.forall_mem_singleton.2 hvalue⟩
  · split at h
    · obtain ⟨rfl, rfl⟩ := of_pure h
      exact ⟨hsu, List.forall_mem_append.2 ⟨hparams, nofun⟩⟩
    · exact absurd h (fail_ne_ok _)

theorem before_signature (hg : g.Forming) (hs : s.stream.tokens <:+ tokens) {sig : Signature}
    (h : parseSignature g s = .ok sig t) : s.Before t ∧ sig.Fit tokens := by
  obtain ⟨-, h⟩ := of_expect h
  obtain ⟨sig', u, hu, h⟩ := bind_eq_ok.1 h
  obtain ⟨-, h⟩ := of_expect h
  obtain ⟨rfl, rfl⟩ := of_pure h
  have hsig : s.Before u ∧ sig.Fit tokens := by
    refine repeatFrom_rule (fun sig u => s.Before u ∧ Signature.Fit tokens sig)
      (fun sig u => s.Before u ∧ Signature.Fit tokens sig) ?_
      ⟨s.before_stepped, Signature.fit_empty⟩ hu
    rintro sig u z v ⟨hsu, hsig⟩ hz
    have hz := of_atSymbol hz
    split at hz
    · obtain ⟨rfl, rfl⟩ := of_pure hz
      exact ⟨hsu, hsig⟩
    · obtain ⟨_, w, hw, hz⟩ := bind_eq_ok.1 hz
      have hsw := hsu.trans (before_separator hw)
      obtain ⟨x, w', hw', hz⟩ := bind_eq_ok.1 hz
      obtain ⟨rfl, rfl⟩ := of_pure hz
      obtain ⟨hbefore, hx⟩ := before_parameter hg (hsw.tokens.trans hs) hsig hw'
      exact ⟨hsw.trans hbefore, hx⟩
  exact ⟨hsig.1.trans u.before_stepped, hsig.2⟩

theorem lowers_block (hg : g.Lowering tokens) (hs : s.stream.tokens <:+ tokens)
    (h : parseBlock g s = .ok stmt t) : Lowers tokens s t [stmt] := by
  have h := of_advance h
  obtain ⟨hname, h⟩ := of_expect h
  obtain ⟨text, hk⟩ := TokenRule.exists_of_anyName hname
  have htext : s.stepped.stream.current.nameText = text := by
    rw [Token.nameText, Token.name?_eq_some_iff.2 hk]
    rfl
  obtain ⟨isScoped, u, hu, h⟩ := bind_eq_ok.1 h
  obtain ⟨_, v, hv, hrest⟩ := bind_eq_ok.1 h
  have hv := of_atSymbol hv
  split at hv
  · exact absurd hv (fail_ne_ok _)
  · obtain ⟨-, rfl⟩ := of_pure hv
    obtain ⟨body, w, hw, hrest⟩ := bind_eq_ok.1 hrest
    have hsu := s.before_twice.trans (before_skipIf hu)
    have hbody := lowers_statements hg (hsu.tokens.trans hs) hw
    obtain ⟨found, w', hw', hend⟩ := bind_eq_ok.1 hrest
    obtain ⟨rfl, rfl⟩ := of_pure hend
    refine .one hsu hbody (before_skipIf hw') ⟨List.forall_mem_nil _, List.forall_mem_singleton.2 ?_⟩
    exact htext ▸ Token.spelled_current (s.stepped_suffix.trans hs) hk

theorem lowers_macro (hg : g.Lowering tokens) (hs : s.stream.tokens <:+ tokens)
    (h : parseMacro g s = .ok stmt t) : Lowers tokens s t [stmt] := by
  have h := of_advance h
  obtain ⟨target, u, hu, h⟩ := bind_eq_ok.1 h
  obtain ⟨hsu, htarget, -⟩ := before_targetName (s.stepped_suffix.trans hs) hu
  have hsu := s.before_stepped.trans hsu
  obtain ⟨sig, v, hv, h⟩ := bind_eq_ok.1 h
  obtain ⟨huv, hsig⟩ := before_signature hg.toForming (hsu.tokens.trans hs) hv
  have hsv := hsu.trans huv
  obtain ⟨body, w, hw, h⟩ := bind_eq_ok.1 h
  obtain ⟨rfl, rfl⟩ := of_pure h
  have hbody := lowers_statements hg (hsv.tokens.trans hs) hw
  exact .one hsv hbody (.refl _) ⟨hsig, List.forall_mem_singleton.2 htarget⟩

theorem lowers_callBlock (hg : g.Lowering tokens) (hs : s.stream.tokens <:+ tokens)
    (h : parseCallBlock g s = .ok stmt t) : Lowers tokens s t [stmt] := by
  have h := of_advance h
  obtain ⟨sig, u, hu, h⟩ := bind_eq_ok.1 h
  have hsig : s.Before u ∧ sig.Fit tokens := by
    have hu := of_atSymbol hu
    split at hu
    · obtain ⟨hbefore, hsig⟩ := before_signature hg.toForming (s.stepped_suffix.trans hs) hu
      exact ⟨s.before_stepped.trans hbefore, hsig⟩
    · obtain ⟨rfl, rfl⟩ := of_pure hu
      exact ⟨s.before_stepped, Signature.fit_empty⟩
  obtain ⟨call, v, hv, h⟩ := bind_eq_ok.1 h
  obtain ⟨huv, hcall⟩ := before_expression hg.toForming (hsig.1.tokens.trans hs) hv
  have hsv := hsig.1.trans huv
  split at h
  · obtain ⟨body, w, hw, h⟩ := bind_eq_ok.1 h
    obtain ⟨rfl, rfl⟩ := of_pure h
    have hbody := lowers_statements hg (hsv.tokens.trans hs) hw
    exact .one hsv hbody (.refl _) ⟨List.forall_mem_cons.2 ⟨hcall, hsig.2⟩, nofun⟩
  · exact absurd h (failAt_ne_ok _ _)

theorem lowers_filterBlock (hg : g.Lowering tokens) (hs : s.stream.tokens <:+ tokens)
    (h : parseFilterBlock g s = .ok stmt t) : Lowers tokens s t [stmt] := by
  have h := of_advance h
  obtain ⟨filter, u, hu, h⟩ := bind_eq_ok.1 h
  obtain ⟨body, v, hv, h⟩ := bind_eq_ok.1 h
  obtain ⟨rfl, rfl⟩ := of_pure h
  have htook := took_filters (s := s.stepped) hg.toForming (by simp) (fun _ => rfl)
    ⟨fun _ => rfl, fun _ => rfl⟩ hu
  have hfilter := Expr.fit_of_expr (s.stepped_suffix.trans hs) htook
  have hsu := s.before_stepped.trans htook.before
  have hbody := lowers_statements hg (hsu.tokens.trans hs) hv
  exact .one hsu hbody (.refl _) ⟨List.forall_mem_singleton.2 hfilter, nofun⟩

end LiquidTemplate
