import LiquidTemplate.Proofs.Texts.Bodies

/-!
# Texts of tags

Each statement has the texts of its bodies, in the order of the tokens, and no others.

* `TellsTag`: the statement of a tag tells its texts.
* `tells_alternatives`: a body and the alternative behind it.
* `tells_for` and its like: one for each tag.
* `tells_builtin`: all tags that every environment has.
-/

namespace LiquidTemplate

open LiquidTemplate.Parser LiquidTemplate.Grammar

variable {dropping : Bool} {drops : List Bool} {g : Grammar} {s t : ParserState} {tag : String}
  {e : Expr} {c : Place}

/-- **Telling a tag**, from its name on. -/
def TellsTag (dropping : Bool) (tag : String) (p : Parser Stmt) : Prop :=
  ∀ s drops, s.stream.current.kind = .name tag →
    Tells dropping p s ⟨true, drops⟩ ⟨false, drops⟩ Stmt.Says

/-- **Neutral tags**, which have nothing to do with what is dropped. -/
def Neutral (dropping : Bool) (tag : String) : Prop :=
  ∀ drops, Place.dropsBehind dropping tag drops = drops

/-- What is told behind the name of a neutral tag. -/
theorem Tells.enter {β : Type} {f : Token → Parser β} {post : β → Texts → Prop}
    (hn : Neutral dropping tag) (hk : s.stream.current.kind = .name tag)
    (h : Tells dropping (f s.stream.current) s.stepped ⟨false, drops⟩ c post) :
    Tells dropping (advance >>= f) s ⟨true, drops⟩ c post :=
  Tells.take hk (hn drops) rfl h

/-- The body of a statement with a neutral end tag. -/
theorem tells_inner (hg : g.Faithful dropping) {tag : String} (hn : Neutral dropping tag) :
    Tells dropping (parseStatements g [.name tag] true) s ⟨false, drops⟩ ⟨false, drops⟩ SaysAll :=
  tells_closed hg (hn drops)

/-- A statement whose expressions are without text says what its inner statements say. -/
theorem Stmt.says_of_body {s : Stmt} {texts : Texts} (h : ∀ e ∈ s.exprs, e.Textless)
    (hb : SaysAll s.body texts) : s.Says texts := by
  rw [Says, texts_eq_body h]
  exact hb

/-! ### Statements without a body -/

theorem tells_break : TellsTag dropping "break" parseBreak := fun _ _ hk =>
  Tells.enter (fun _ => rfl) hk (Tells.pure (Stmt.says_of_body nofun rfl))

theorem tells_continue : TellsTag dropping "continue" parseContinue := fun _ _ hk =>
  Tells.enter (fun _ => rfl) hk (Tells.pure (Stmt.says_of_body nofun rfl))

theorem tells_extends (hg : g.Hushed) : TellsTag dropping "extends" (parseExtends g) := by
  intro s drops hk
  refine Tells.enter (fun _ => rfl) hk ?_
  refine Tells.quiet (quiet_expression hg true true _) fun e t he => Tells.pure ?_
  exact Stmt.says_of_body (textless_one he) rfl

theorem quiet_printed (hg : g.Hushed) :
    Quiet (parsePrinted g) s (fun es => ∀ e ∈ es, e.Textless) := by
  refine Quiet.loop (fun es => ∀ e ∈ es, e.Textless) nofun fun es hes s => Quiet.mark ?_
  split
  · exact Quiet.pure hes
  · refine quiet_separator.bind fun _ _ t => ?_
    refine (quiet_expression hg true true t).bind fun e he _ => Quiet.pure ?_
    exact textless_append hes (textless_one he)

theorem tells_print (hg : g.Hushed) : TellsTag dropping "print" (parsePrint g) := by
  intro s drops hk
  refine Tells.enter (fun _ => rfl) hk ?_
  refine Tells.quiet (quiet_printed hg) fun es t hes => ?_
  exact Tells.pure (Stmt.says_of_body hes rfl)

/-- The context modifier is quiet. -/
theorem quiet_context : Quiet parseContext? s (fun _ => True) := by
  refine Quiet.see <| Quiet.foresee ?_
  split
  · next h =>
      obtain ⟨hword, hcontext⟩ := Bool.and_eq_true_iff.1 h
      have hplain : s.stream.current.kind.Plain := by
        rcases Bool.or_eq_true_iff.1 hword with hword | hword
        · exact Token.plain_of_isName hword
        · exact Token.plain_of_isName hword
      exact Quiet.drop_two hplain (Token.plain_of_isName hcontext) (Quiet.pure trivial)
  · exact Quiet.pure trivial

theorem quiet_ignoreMissing : Quiet parseIgnoreMissing s (fun _ => True) := by
  refine Quiet.see <| Quiet.foresee ?_
  split
  · next h =>
      obtain ⟨hignore, hmissing⟩ := Bool.and_eq_true_iff.1 h
      exact Quiet.drop_two (Token.plain_of_isName hignore) (Token.plain_of_isName hmissing)
        (Quiet.pure trivial)
  · exact Quiet.pure trivial

theorem tells_inclusion (hg : g.Hushed) {make : Expr → Bool → Bool → Nat → Stmt}
    (hn : Neutral dropping tag) (hmake : ∀ e a b line, (make e a b line).exprs = [e] ∧
      (make e a b line).body = []) : TellsTag dropping tag (parseInclusion g make) := by
  intro s drops hk
  refine Tells.enter hn hk ?_
  refine Tells.quiet (quiet_expression hg true true _) fun e t he => ?_
  refine Tells.quiet quiet_ignoreMissing fun a u _ => Tells.quiet quiet_context fun b v _ => ?_
  refine Tells.pure (Stmt.says_of_body ?_ ?_)
  · rw [(hmake ..).1]
    exact textless_one he
  · rw [(hmake ..).2]
    rfl

theorem tells_import (hg : g.Hushed) : TellsTag dropping "import" (parseImport g) := by
  intro s drops hk
  refine Tells.enter (fun _ => rfl) hk ?_
  refine Tells.quiet (quiet_expression hg true true _) fun e t he => ?_
  refine Tells.quiet (quiet_expect (.name "as") trivial) fun _ u _ => ?_
  refine Tells.quiet (quiet_targetName u) fun target v _ => Tells.quiet quiet_context fun b w _ => ?_
  exact Tells.pure (Stmt.says_of_body (textless_one he) rfl)

theorem quiet_alias : Quiet parseAlias? s (fun _ => True) := by
  refine Quiet.skips trivial ?_ (Quiet.pure trivial)
  exact (quiet_targetName _).bind fun _ _ _ => Quiet.pure trivial

theorem quiet_importName : Quiet parseImportName s (fun _ => True) := by
  refine (quiet_targetName s).bind fun target _ t => ?_
  split
  · exact Quiet.failAt
  · exact quiet_alias.bind fun _ _ _ => Quiet.pure trivial

/-- What stands behind imported names is quiet, whether or not another one follows. -/
theorem quiet_importEnd (names : List ImportName) :
    Quiet (parseImportEnd names) s (Sum.elim (fun _ => True) fun _ => True) := by
  refine quiet_context.bind fun found _ t => ?_
  cases found with
  | some withContext => exact Quiet.pure trivial
  | none =>
      refine Quiet.symbol ?_
      split
      · exact Quiet.pure trivial
      · exact Quiet.pure trivial

theorem quiet_importNames : Quiet parseImportNames s (fun _ => True) := by
  refine Quiet.loop (fun _ => True) trivial fun names _ s => ?_
  refine quiet_separator.bind fun _ _ t => Quiet.see ?_
  split
  · exact Quiet.pure trivial
  · refine quiet_context.bind fun found _ u => ?_
    cases found with
    | some withContext => exact Quiet.pure trivial
    | none => exact quiet_importName.bind fun name _ _ => quiet_importEnd _

theorem tells_from (hg : g.Hushed) : TellsTag dropping "from" (parseFrom g) := by
  intro s drops hk
  refine Tells.enter (fun _ => rfl) hk ?_
  refine Tells.quiet (quiet_expression hg true true _) fun e t he => ?_
  refine Tells.quiet (quiet_expect (.name "import") trivial) fun _ u _ => ?_
  refine Tells.quiet quiet_importNames fun x v _ => ?_
  obtain ⟨names, found⟩ := x
  cases found with
  | some withContext => exact Tells.pure (Stmt.says_of_body (textless_one he) rfl)
  | none =>
      refine Tells.quiet (quiet_skipIf (.type (.symbol .comma)) trivial) fun _ w _ => ?_
      exact Tells.pure (Stmt.says_of_body (textless_one he) rfl)

/-! ### Assignments and scopes -/

theorem tells_set (hg : g.Faithful dropping) (hn : Neutral dropping tag)
    (hend : Neutral dropping ("end" ++ tag)) : TellsTag dropping tag (parseSet g tag) := by
  intro s drops hk
  refine Tells.enter hn hk ?_
  refine Tells.quiet (quiet_target hg.toHushed [] _) fun target t ht => ?_
  refine Tells.quiet (quiet_skipIf (.type (.symbol .assign)) trivial) fun found u _ => ?_
  split
  · refine Tells.quiet (quiet_anyTuple hg.toHushed u) fun value v hv => ?_
    exact Tells.pure (Stmt.says_of_body (textless_cons ht (textless_one hv)) rfl)
  · exact Tells.finish (tells_inner hg hend) fun body texts hb =>
      Stmt.says_of_body (textless_one ht) hb

/-- **Bindings without text.** -/
theorem quiet_bindings (hg : g.Hushed) :
    Quiet (parseBindings g) s (fun xs => ∀ x ∈ xs, x.1.Textless ∧ x.2.Textless) := by
  refine Quiet.loop (fun xs => ∀ x ∈ xs, x.1.Textless ∧ x.2.Textless) nofun
    fun xs hxs s => Quiet.mark ?_
  split
  · exact Quiet.pure hxs
  · refine quiet_separator.bind fun _ _ t => ?_
    refine (quiet_target hg [] t).bind fun target ht u => Quiet.demand trivial ?_
    refine (quiet_expression hg true true _).bind fun value hv _ => Quiet.pure ?_
    exact List.forall_mem_append.2
      ⟨hxs, List.forall_mem_singleton.2 ⟨ht.setContext .param, hv⟩⟩

theorem tells_with (hg : g.Faithful dropping) : TellsTag dropping "with" (parseWith g) := by
  intro s drops hk
  refine Tells.enter (fun _ => rfl) hk ?_
  refine Tells.quiet (quiet_bindings hg.toHushed) fun xs t hxs => ?_
  have hend : Neutral dropping "endwith" := fun _ => rfl
  refine Tells.finish (tells_inner hg hend) fun body texts hb => Stmt.says_of_body ?_ hb
  exact textless_append (List.forall_mem_map.2 fun x hx => (hxs x hx).1)
    (List.forall_mem_map.2 fun x hx => (hxs x hx).2)

theorem tells_autoescape (hg : g.Faithful dropping) :
    TellsTag dropping "autoescape" (parseAutoescape g) := by
  intro s drops hk
  refine Tells.enter (fun _ => rfl) hk ?_
  refine Tells.quiet (quiet_expression hg.toHushed true true _) fun value t hv => ?_
  have hend : Neutral dropping "endautoescape" := fun _ => rfl
  refine Tells.finish (tells_inner hg hend) fun body texts hb => Stmt.says_of_body nofun ?_
  have hscope (line line' : Nat) :
      (Stmt.optionBlock [⟨"autoescape", value, line⟩] body line').texts = texts :=
    Stmt.says_of_body (textless_one hv) hb
  show textsOf [_] = texts
  rw [textsOf_singleton]
  exact hscope _ _

theorem quiet_hyphen : Quiet refuseHyphen s (fun _ => True) := by
  refine Quiet.symbol ?_
  split
  · exact Quiet.fail
  · exact Quiet.pure trivial

theorem tells_block (hg : g.Faithful dropping) : TellsTag dropping "block" (parseBlock g) := by
  intro s drops hk
  refine Tells.enter (fun _ => rfl) hk ?_
  refine Tells.quiet (quiet_expect (.type .name) trivial) fun name t _ => ?_
  refine Tells.quiet (quiet_skipIf (.name "scoped") trivial) fun isScoped u _ => ?_
  refine Tells.quiet quiet_hyphen fun _ v _ => ?_
  have hend : Neutral dropping "endblock" := fun _ => rfl
  refine (tells_inner hg hend).bind_ok rfl fun body w texts _ _ hb => ?_
  refine Tells.quiet (quiet_skipIf (.name name.nameText) trivial) fun _ _ _ => Tells.pure ?_
  rw [List.append_nil]
  exact Stmt.says_of_body nofun hb

/-! ### Definitions, calls and filters -/

/-- **A signature without text.** -/
def Grammar.Signature.Textless (sig : Signature) : Prop :=
  ∀ e ∈ sig.params ++ sig.defaults, e.Textless

theorem quiet_parameter (hg : g.Hushed) {sig : Signature} (hs : sig.Textless) :
    Quiet (parseParameter g sig) s Signature.Textless := by
  have hparams {target : Expr} (ht : target.Textless) :
      ∀ e ∈ sig.params ++ [target.setContext .param], e.Textless :=
    textless_append (fun e he => hs e (List.mem_append_left _ he))
      (textless_one (ht.setContext .param))
  refine (quiet_targetName s).bind fun target ht t => Quiet.skips trivial ?_ ?_
  · refine (quiet_expression hg true true _).bind fun value hv _ => Quiet.pure ?_
    exact textless_append (hparams ht)
      (textless_append (fun e he => hs e (List.mem_append_right _ he)) (textless_one hv))
  · show Quiet (if sig.defaults.isEmpty then _ else _) t _
    split
    · refine Quiet.pure fun e he => ?_
      rw [List.append_nil] at he
      exact hparams ht e he
    · exact Quiet.fail

theorem quiet_signature (hg : g.Hushed) : Quiet (parseSignature g) s Signature.Textless := by
  have hparameters (s : ParserState) : Quiet (parseParameters g) s Signature.Textless := by
    refine Quiet.loop Signature.Textless nofun fun sig hsig s => Quiet.symbol ?_
    split
    · exact Quiet.pure hsig
    · refine quiet_separator.bind fun _ _ t => ?_
      exact (quiet_parameter hg hsig).bind fun more hmore _ => Quiet.pure hmore
  refine Quiet.demand trivial ?_
  exact (hparameters _).bind fun sig hsig _ => Quiet.demand trivial (Quiet.pure hsig)

theorem quiet_optionalSignature (hg : g.Hushed) :
    Quiet (parseOptionalSignature g) s Signature.Textless := by
  refine Quiet.symbol ?_
  split
  · exact quiet_signature hg
  · exact Quiet.pure nofun

theorem tells_macro (hg : g.Faithful dropping) : TellsTag dropping "macro" (parseMacro g) := by
  intro s drops hk
  refine Tells.enter (fun _ => rfl) hk ?_
  refine Tells.quiet (quiet_targetName _) fun target t _ => ?_
  refine Tells.quiet (quiet_signature hg.toHushed) fun sig u hsig => ?_
  have hend : Neutral dropping "endmacro" := fun _ => rfl
  exact Tells.finish (tells_inner hg hend) fun body texts hb => Stmt.says_of_body hsig hb

theorem tells_call (hg : g.Faithful dropping) : TellsTag dropping "call" (parseCallBlock g) := by
  intro s drops hk
  refine Tells.enter (fun _ => rfl) hk ?_
  refine Tells.quiet (quiet_optionalSignature hg.toHushed) fun sig t hsig => ?_
  refine Tells.quiet (quiet_expression hg.toHushed true true _) fun call u hcall => ?_
  split
  · have hend : Neutral dropping "endcall" := fun _ => rfl
    exact Tells.finish (tells_inner hg hend) fun body texts hb =>
      Stmt.says_of_body (textless_cons hcall hsig) hb
  · exact fun _ _ _ h => absurd h (failAt_ne_ok _ _)

theorem tells_filter (hg : g.Faithful dropping) :
    TellsTag dropping "filter" (parseFilterBlock g) := by
  intro s drops hk
  refine Tells.enter (fun _ => rfl) hk ?_
  have hnone : ∀ e ∈ (none : Option Expr), e.Textless := nofun
  refine Tells.quiet (quiet_filters hg.toHushed hnone true) fun filter t hf => ?_
  have hend : Neutral dropping "endfilter" := fun _ => rfl
  exact Tells.finish (tells_inner hg hend) fun body texts hb =>
    Stmt.says_of_body (textless_one hf) hb

/-! ### Conditions and loops -/

/-- **A body and its alternative**, where `p` tells the alternative from the name of its tag on. -/
theorem tells_alternatives (hg : g.Faithful dropping) (tags : List String)
    {p : Parser (List Stmt)} {make : List Stmt → List Stmt → Stmt}
    (hp : ∀ s, (∃ tag ∈ tags, s.stream.current.kind = .name tag) →
      Tells dropping p s ⟨true, false :: drops⟩ ⟨false, drops⟩ SaysAll)
    (hmake : ∀ body otherwise, (∀ e ∈ (make body otherwise).exprs, e.Textless) ∧
      (make body otherwise).body = body ++ otherwise) :
    Tells dropping (do
        let body ← parseStatements g (tags.map .name) false
        let otherwise ← p
        return make body otherwise) s ⟨false, false :: drops⟩ ⟨false, drops⟩ Stmt.Says := by
  refine (tells_statements hg tags).bind_ok rfl fun body t texts hw hbody hb => ?_
  obtain ⟨hname, -⟩ := told_statements (false :: drops) hg hw hbody
  intro hw otherwise u h
  obtain ⟨o, v, ho, h⟩ := bind_eq_ok.1 h
  obtain ⟨rfl, rfl⟩ := EStateM.Result.ok.inj h
  obtain ⟨hsuf, more, hmore, hsays⟩ := hp t hname hw o v ho
  obtain ⟨hexprs, hinner⟩ := hmake body o
  refine ⟨hsuf, more, hmore, Stmt.says_of_body hexprs ?_⟩
  rw [SaysAll, hinner, textsOf_append, hb, hsays]

theorem isName_of_kind {tok : Token} {name : String} (hk : tok.kind = .name name) (text : String) :
    tok.isName text = (name == text) := by
  rw [Token.isName, Token.name?_eq_some_iff.2 hk]
  rfl

/-- The alternative of a loop. -/
theorem tells_loopElse (hg : g.Faithful dropping)
    (hk : ∃ tag ∈ ["endfor", "else"], s.stream.current.kind = .name tag) :
    Tells dropping (parseLoopElse g) s ⟨true, false :: drops⟩ ⟨false, drops⟩ SaysAll := by
  obtain ⟨tag, htag, hk⟩ := hk
  have hname := isName_of_kind hk "endfor"
  rcases List.mem_cons.1 htag with rfl | htag
  · refine Tells.take hk rfl rfl ?_
    rw [hname]
    exact Tells.pure rfl
  · obtain rfl := List.mem_singleton.1 htag
    refine Tells.take hk rfl rfl ?_
    rw [hname]
    exact tells_closed hg rfl

theorem LoopModifiers.textless_apply {m : LoopModifiers} {iter : Expr} (hi : iter.Textless)
    (hlimit : ∀ e ∈ m.limit, e.Textless) (hoffset : ∀ e ∈ m.offset, e.Textless) :
    (m.apply iter).Textless := by
  have hconst {value : Constant} {line : Nat} : (Expr.const value line).Textless :=
    .of_children rfl nofun
  have hstart (line : Nat) : (m.offset.getD (.const (.int 0) line)).Textless := by
    cases ho : m.offset with
    | none => exact hconst
    | some e => exact hoffset e ho
  have hslice (line : Nat) : (m.slice line).Textless := by
    refine textless_slice (textless_some (hstart line)) (textless_some ?_) nofun
    cases hl : m.limit with
    | none => exact hconst
    | some e => exact textless_binary (hstart line) (hlimit e hl)
  have hpart : (if m.limit.isSome || m.offset.isSome then
      Expr.item iter (m.slice iter.line) iter.line else iter).Textless := by
    split
    · exact textless_item hi (hslice _)
    · exact hi
  unfold apply
  dsimp only
  split
  · exact .of_children rfl (textless_append (textless_toList (textless_some hpart)) nofun)
  · exact hpart

theorem quiet_iterable (hg : g.Hushed) : Quiet (parseIterable g) s Expr.Textless := by
  have hvalue (s : ParserState) : Quiet (parseModifierValue g) s Expr.Textless :=
    Quiet.demand trivial (hg.expression true true _)
  have hmodifiers (s : ParserState) : Quiet (parseModifiers g) s
      (fun m => (∀ e ∈ m.limit, e.Textless) ∧ ∀ e ∈ m.offset, e.Textless) := by
    refine Quiet.loop (fun m => (∀ e ∈ m.limit, e.Textless) ∧ ∀ e ∈ m.offset, e.Textless)
      ⟨nofun, nofun⟩ fun m hm s => ?_
    refine Quiet.skips trivial (Quiet.pure hm) ?_
    refine Quiet.skips trivial ?_ ?_
    · exact (hvalue _).bind fun e he _ => Quiet.pure ⟨textless_some he, hm.2⟩
    · refine Quiet.skips trivial ?_ (Quiet.pure hm)
      exact (hvalue _).bind fun e he _ => Quiet.pure ⟨hm.1, textless_some he⟩
  refine (quiet_tuple hg _ _ _ s).bind fun iter hi t => (hmodifiers t).bind fun m hm _ => ?_
  exact Quiet.pure (LoopModifiers.textless_apply hi hm.1 hm.2)

theorem quiet_loopTest (hg : g.Hushed) :
    Quiet (parseLoopTest? g) s (fun o => ∀ e ∈ o, e.Textless) := by
  refine Quiet.skips trivial ?_ (Quiet.pure nofun)
  exact (quiet_expression hg true true _).bind fun e he _ => Quiet.pure (textless_some he)

theorem tells_for (hg : g.Faithful dropping) : TellsTag dropping "for" (parseFor g) := by
  intro s drops hk
  refine Tells.demand hk rfl rfl ?_
  refine Tells.quiet (quiet_target hg.toHushed _ _) fun target t ht => ?_
  refine Tells.quiet (quiet_expect (.name "in") trivial) fun _ u _ => ?_
  refine Tells.quiet (quiet_iterable hg.toHushed) fun iter v hi => ?_
  refine Tells.quiet (quiet_loopTest hg.toHushed) fun test w hc => ?_
  refine Tells.quiet (quiet_skipIf (.name "recursive") trivial) fun recursive _ _ => ?_
  refine tells_alternatives hg ["endfor", "else"] (fun s hs => tells_loopElse hg hs) ?_
  intro body otherwise
  exact ⟨textless_cons ht (textless_cons hi (textless_toList hc)), rfl⟩

/-- What is dropped behind the tags of a condition. -/
theorem dropsBehind_condition (htag : tag = "if" ∨ tag = "unless") :
    Place.dropsBehind dropping tag drops = false :: drops ∧
      Place.dropsBehind dropping ("end" ++ tag) (false :: drops) = drops := by
  rcases htag with rfl | rfl
  · exact ⟨rfl, rfl⟩
  · exact ⟨rfl, rfl⟩

/-- The alternatives of a condition. -/
theorem tells_conditionElse (hg : g.Faithful dropping) (htag : tag = "if" ∨ tag = "unless")
    (hk : ∃ name ∈ ["elif", "else", "end" ++ tag], s.stream.current.kind = .name name) :
    Tells dropping (parseAlternatives g tag) s ⟨true, false :: drops⟩ ⟨false, drops⟩ SaysAll := by
  obtain ⟨name, hname, hk⟩ := hk
  have helif := isName_of_kind hk "elif"
  have helse := isName_of_kind hk "else"
  have hend : Place.dropsBehind dropping ("end" ++ tag) (false :: drops) = drops :=
    (dropsBehind_condition htag).2
  rcases List.mem_cons.1 hname with rfl | hname
  · refine Tells.take hk rfl rfl ?_
    rw [helif]
    refine Tells.see (Tells.finish (hg.branch _ tag _ drops htag) fun stmt texts hs => ?_)
    rw [SaysAll, textsOf_singleton]
    exact hs
  rcases List.mem_cons.1 hname with rfl | hname
  · refine Tells.take hk rfl rfl ?_
    rw [helif, helse]
    exact tells_closed hg hend
  · obtain rfl := List.mem_singleton.1 hname
    have hnone : ("end" ++ tag == "elif") = false ∧ ("end" ++ tag == "else") = false := by
      rcases htag with rfl | rfl
      · exact ⟨rfl, rfl⟩
      · exact ⟨rfl, rfl⟩
    refine Tells.take hk hend rfl ?_
    rw [helif, helse, hnone.1, hnone.2]
    exact Tells.pure rfl

/-- **A condition** from its test on. -/
theorem tells_branch (hg : g.Faithful dropping) (line : Nat) (negate : Bool)
    (htag : tag = "if" ∨ tag = "unless") :
    Tells dropping (parseBranch g line tag negate) s ⟨false, false :: drops⟩ ⟨false, drops⟩
      Stmt.Says := by
  refine Tells.quiet (quiet_tuple hg.toHushed _ _ _ s) fun e t he => ?_
  have htest : (if negate then Expr.not e e.line else e).Textless := by
    split
    · exact textless_not he
    · exact he
  refine tells_alternatives hg ["elif", "else", "end" ++ tag]
    (fun s hs => tells_conditionElse hg htag hs) fun body otherwise => ?_
  exact ⟨textless_one htest, rfl⟩

theorem tells_if (hg : g.Faithful dropping) : TellsTag dropping "if" (parseIf g) := fun _ _ hk =>
  Tells.demand hk rfl rfl (tells_branch hg _ false (.inl rfl))

theorem tells_unless (hg : g.Faithful dropping) : TellsTag dropping "unless" (parseUnless g) :=
  fun _ _ hk => Tells.demand hk rfl rfl (tells_branch hg _ true (.inr rfl))

/-! ### All tags -/

/-- **Every tag of every environment** is told. -/
theorem tells_builtin (hg : g.Faithful dropping) {p : Parser Stmt} (h : builtin? g tag = some p) :
    TellsTag dropping tag p := by
  have hinclude := fun e a b line => And.intro (rfl : (Stmt.includeTemplate e a b line).exprs = [e])
    (rfl : (Stmt.includeTemplate e a b line).body = [])
  have hsection := fun e a b line => And.intro (rfl : (Stmt.sectionTemplate e a b line).exprs = [e])
    (rfl : (Stmt.sectionTemplate e a b line).body = [])
  unfold builtin? at h
  split at h
  · exact Option.some.inj h ▸ tells_for hg
  · exact Option.some.inj h ▸ tells_if hg
  · exact Option.some.inj h ▸ tells_unless hg
  · exact Option.some.inj h ▸ tells_break
  · exact Option.some.inj h ▸ tells_continue
  · exact Option.some.inj h ▸ tells_block hg
  · exact Option.some.inj h ▸ tells_extends hg.toHushed
  · exact Option.some.inj h ▸ tells_print hg.toHushed
  · exact Option.some.inj h ▸ tells_macro hg
  · exact Option.some.inj h ▸ tells_inclusion hg.toHushed (fun _ => rfl) hinclude
  · exact Option.some.inj h ▸ tells_inclusion hg.toHushed (fun _ => rfl) hsection
  · exact Option.some.inj h ▸ tells_from hg.toHushed
  · exact Option.some.inj h ▸ tells_import hg.toHushed
  · exact Option.some.inj h ▸ tells_set hg (fun _ => rfl) (fun _ => rfl)
  · exact Option.some.inj h ▸ tells_set hg (fun _ => rfl) (fun _ => rfl)
  · exact Option.some.inj h ▸ tells_set hg (fun _ => rfl) (fun _ => rfl)
  · exact Option.some.inj h ▸ tells_with hg
  · exact Option.some.inj h ▸ tells_autoescape hg
  · exact Option.some.inj h ▸ tells_call hg
  · exact Option.some.inj h ▸ tells_filter hg
  · nomatch h

end LiquidTemplate
