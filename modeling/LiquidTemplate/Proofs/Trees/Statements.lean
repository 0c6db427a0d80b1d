import LiquidTemplate.Proofs.Texts.Grammars
import LiquidTemplate.Proofs.Trees.Expressions

/-!
# Sound statements

Each tag yields sound statements if the expressions and the bodies in it are sound. So do the grammars
of all environments whose extensions are known.

* `Grammar.Sound`: a grammar whose expressions and statements are sound.
* `yields_statements`: bodies.
* `yields_builtin`, `yields_known`, `yields_statement`: the tags.
* `sound_below`, `sound_grammar`: the bounded grammars, and that of an environment.
-/

namespace LiquidTemplate

open LiquidTemplate.Parser LiquidTemplate.Grammar

variable {α : Type} {env : Environment} {g : Grammar} {tag : String}

/-- **Sound grammars**: so are all trees that the productions refer to. -/
structure Grammar.Sound (g : Grammar) : Prop extends Sane g where
  statement : Yields g.statement (fun x => ∀ s ∈ x.toList, s.Sound)
  branch : ∀ line tag, Yields (g.branch line tag) Stmt.Sound

/-! ### Brackets of the state -/

theorem Parser.Yields.inTag {p : Parser α} {post : α → Prop} (h : Yields p post) (tag : String) :
    Yields (Parser.inTag tag p) post := by
  intro s x t hx
  obtain ⟨u, v, _, _, hx⟩ := inTag_eq_ok hx
  exact h u x v hx

theorem Parser.Yields.awaiting {p : Parser α} {post : α → Prop} (h : Yields p post)
    (ends : List TokenRule) : Yields (Parser.awaiting ends p) post := by
  intro s x t hx
  obtain ⟨u, v, _, _, hx⟩ := awaiting_eq_ok hx
  exact h u x v hx

/-! ### Bodies -/

/-- A statement whose expressions have no role of their own. -/
theorem Stmt.Sound.of_exprs {s : Stmt} (h : ∀ e ∈ s.exprs, e.Sound .ordinary)
    (body : ∀ t ∈ s.body, t.Sound) (hplaced : s.placed = s.exprs.map (.ordinary, ·))
    (formed : s.Formed) : s.Sound :=
  .mk formed (hplaced ▸ Expr.sound_map h) body

/-- **All statements are sound.** -/
abbrev SoundBody (body : List Stmt) : Prop :=
  ∀ s ∈ body, s.Sound

/-- **A body that is sound so far.** -/
structure PartialBody.Sound (b : PartialBody) : Prop where
  stmts : SoundBody b.stmts
  pending : ∀ e ∈ b.pending, e.Sound .shown

theorem PartialBody.Sound.flush {b : PartialBody} (h : b.Sound) : b.flush.Sound := by
  obtain ⟨stmts, pending⟩ := b
  cases pending with
  | nil => exact h
  | cons e es =>
      have houtput : (Stmt.output (e :: es) e.line).Sound :=
        .mk trivial (Expr.sound_map h.pending) nofun
      exact ⟨List.forall_mem_append.2 ⟨h.stmts, List.forall_mem_singleton.2 houtput⟩, nofun⟩

theorem PartialBody.Sound.addOutput {b : PartialBody} {e : Expr} (h : b.Sound)
    (he : e.Sound .shown) : (b.addOutput e).Sound :=
  ⟨h.stmts, sound_append h.pending (sound_one he)⟩

/-- Text is shown, and it is left out if it is empty. -/
theorem PartialBody.Sound.addText {b : PartialBody} (h : b.Sound) (data : String) (line : Nat) :
    (b.addText data line).Sound := by
  unfold PartialBody.addText
  split
  · exact h
  · next hdata =>
      have hne : data ≠ "" := fun hempty => hdata (hempty ▸ rfl)
      exact h.addOutput (.mk ⟨⟨rfl, hne⟩, trivial, trivial⟩ nofun)

theorem PartialBody.Sound.addStatements {b : PartialBody} {stmts : List Stmt} (h : b.Sound)
    (hstmts : SoundBody stmts) : (b.addStatements stmts).Sound :=
  ⟨List.forall_mem_append.2 ⟨h.stmts, hstmts⟩, h.pending⟩

theorem yields_bodyPart (hg : g.Sound) (ends : List TokenRule) {b : PartialBody} (hb : b.Sound) :
    Yields (parseBodyPart g ends b) (Sum.elim PartialBody.Sound SoundBody) := by
  have houtput : Yields (parseOutput g) (Expr.Sound .ordinary) :=
    (yields_anyTuple hg.toSane).bind fun _ he => yields_after fun _ => .pure he
  have hclosed : Yields (parseClosedStatement g) SoundBody :=
    hg.statement.bind fun _ hx => yields_after fun _ => .pure hx
  refine yields_after fun t => ?_
  split
  · exact .pure hb.flush.stmts
  · exact yields_after fun _ => .pure (hb.addText _ _)
  · exact yields_after fun _ => houtput.bind fun _ he => .pure (hb.addOutput he.shown)
  · refine yields_after fun _ => yields_after fun _ => .ite (.pure hb.flush.stmts) ?_
    exact hclosed.bind fun _ hstmts => .pure (hb.flush.addStatements hstmts)
  · exact yields_failAt

theorem yields_body (hg : g.Sound) (ends : Option (List TokenRule)) :
    Yields (parseBody g ends) SoundBody := by
  have hparts : Yields (repeatFrom (parseBodyPart g (ends.getD [])) {}) SoundBody :=
    .loop PartialBody.Sound ⟨nofun, nofun⟩ fun _ hb => yields_bodyPart hg _ hb
  cases ends with
  | none => exact hparts
  | some ends => exact hparts.awaiting ends

/-- **Bodies of statements** are sound. -/
theorem yields_statements (hg : g.Sound) (ends : List TokenRule) (consume : Bool) :
    Yields (parseStatements g ends consume) SoundBody := by
  refine yields_after fun _ => yields_after fun _ => (yields_body hg _).bind fun body hbody => ?_
  refine yields_after fun t => .ite (fun _ _ _ h => nomatch h) (.ite ?_ (.pure hbody))
  exact yields_after fun _ => .pure hbody

/-! ### Conditions and loops -/

theorem sound_ifThen {test : Expr} {body otherwise : List Stmt} {line : Nat}
    (htest : test.Sound .ordinary) (hbody : SoundBody body) (hotherwise : SoundBody otherwise) :
    (Stmt.ifThen test body otherwise line).Sound :=
  .of_exprs (sound_one htest) (List.forall_mem_append.2 ⟨hbody, hotherwise⟩) rfl trivial

theorem yields_branch (hg : g.Sound) (line : Nat) (tag : String) (negate : Bool) :
    Yields (parseBranch g line tag negate) Stmt.Sound := by
  have halternatives : Yields (parseAlternatives g tag) SoundBody := by
    refine yields_after fun _ => .ite ?_ (.ite (yields_statements hg _ _) (.pure nofun))
    exact yields_after fun _ => (hg.branch _ _).bind fun _ hs =>
      .pure (List.forall_mem_singleton.2 hs)
  refine (yields_tuple hg.toSane _ _ _).bind fun e he => ?_
  have htest : (if negate then Expr.not e e.line else e).Sound .ordinary := by
    split
    · exact .of_children (sound_one he) rfl trivial trivial
    · exact he
  exact (yields_statements hg _ _).bind fun _ hbody => halternatives.bind fun _ hotherwise =>
    .pure (sound_ifThen htest hbody hotherwise)

/-- **Modifiers with sound values.** -/
structure LoopModifiers.Sound (m : LoopModifiers) : Prop where
  limit : ∀ e ∈ m.limit, e.Sound .ordinary
  offset : ∀ e ∈ m.offset, e.Sound .ordinary

/-- **A modified iterable**: its slice is a subscript, its filter has an input. -/
theorem LoopModifiers.Sound.apply {m : LoopModifiers} (h : m.Sound) {iter : Expr}
    (hiter : iter.Sound .ordinary) : (m.apply iter).Sound .ordinary := by
  have hconst (value : Constant) : (Expr.const value iter.line).Sound .ordinary :=
    .of_children nofun rfl trivial trivial
  have hstart : (m.offset.getD (.const (.int 0) iter.line)).Sound .ordinary := by
    cases hoffset : m.offset with
    | none => exact hconst _
    | some offset => exact h.offset offset hoffset
  have hslice : (m.slice iter.line).Sound .subscript := by
    unfold LoopModifiers.slice
    cases hlimit : m.limit with
    | none =>
        exact (sound_slice (sound_some hstart) (sound_some (hconst .none)) sound_none).subscript
    | some limit =>
        have hstop : (Expr.binary .add (m.offset.getD (.const (.int 0) iter.line)) limit
            iter.line).Sound .ordinary :=
          .of_children (sound_two hstart (h.limit limit hlimit)) rfl trivial trivial
        exact (sound_slice (sound_some hstart) (sound_some hstop) sound_none).subscript
  have hpart : (if m.limit.isSome || m.offset.isSome then
      Expr.item iter (m.slice iter.line) iter.line else iter).Sound .ordinary := by
    split
    · exact sound_item hiter hslice
    · exact hiter
  unfold LoopModifiers.apply
  dsimp only
  split
  · exact Expr.sound_filter (.inl rfl) (sound_some hpart) nofun Arguments.sound_empty
  · exact hpart

theorem yields_iterable (hg : g.Sane) : Yields (parseIterable g) (Expr.Sound .ordinary) := by
  have hvalue : Yields (parseModifierValue g) (Expr.Sound .ordinary) :=
    yields_after fun _ => hg.expression true true
  have hmodifiers : Yields (parseModifiers g) LoopModifiers.Sound := by
    refine .loop LoopModifiers.Sound ⟨nofun, nofun⟩ fun m hm => ?_
    refine yields_after fun _ => .ite (.pure ⟨hm.limit, hm.offset⟩) <| yields_after fun _ => ?_
    refine .ite (hvalue.bind fun _ he => .pure ⟨sound_some he, hm.offset⟩) ?_
    refine yields_after fun _ => .ite ?_ (.pure hm)
    exact hvalue.bind fun _ he => .pure ⟨hm.limit, sound_some he⟩
  exact (yields_tuple hg _ _ _).bind fun _ hiter => hmodifiers.bind fun _ hm =>
    .pure (hm.apply hiter)

theorem yields_for (hg : g.Sound) : Yields (parseFor g) Stmt.Sound := by
  have htest : Yields (parseLoopTest? g) (fun o => ∀ e ∈ o, e.Sound .ordinary) :=
    yields_after fun _ => .ite
      ((yields_expression hg.toSane _ _).bind fun _ he => .pure (sound_some he)) (.pure nofun)
  have helse : Yields (parseLoopElse g) SoundBody :=
    yields_after fun _ => .ite (.pure nofun) (yields_statements hg _ _)
  refine yields_after fun _ => (yields_target hg.toSane _ _).bind fun target htarget => ?_
  refine yields_after fun _ => (yields_iterable hg.toSane).bind fun iter hiter => ?_
  refine htest.bind fun test htest => yields_after fun _ => ?_
  refine (yields_statements hg _ _).bind fun body hbody => helse.bind fun otherwise hotherwise => ?_
  obtain ⟨e, he, hassign, rfl⟩ := htarget
  refine .pure (.mk trivial ?_ (List.forall_mem_append.2 ⟨hbody, hotherwise⟩))
  exact List.forall_mem_cons.2 ⟨he.target hassign .store,
    Expr.sound_map (sound_cons hiter (Expr.sound_option htest))⟩

/-! ### Output and assignments -/

theorem yields_print (hg : g.Sane) : Yields (parsePrint g) Stmt.Sound := by
  have hprinted : Yields (parsePrinted g) (fun es => ∀ e ∈ es, e.Sound .shown) := by
    refine .loop (fun es => ∀ e ∈ es, e.Sound .shown) nofun fun es hes => ?_
    refine yields_after fun _ => .ite (.pure hes) <| yields_after fun _ => ?_
    exact (yields_expression hg _ _).bind fun _ he => .pure (sound_append hes (sound_one he.shown))
  exact yields_after fun _ => hprinted.bind fun _ hes => .pure (.mk trivial (Expr.sound_map hes) nofun)

theorem sound_assign {target value : Expr} {line : Nat} (htarget : target.Sound .assigned)
    (hvalue : value.Sound .ordinary) : (Stmt.assign target value line).Sound :=
  .mk trivial (List.forall_mem_cons.2 ⟨htarget, List.forall_mem_singleton.2 hvalue⟩) nofun

theorem yields_set (hg : g.Sound) (tag : String) : Yields (parseSet g tag) Stmt.Sound := by
  refine yields_after fun _ => (yields_target hg.toSane _ _).bind fun target htarget => ?_
  obtain ⟨e, he, hassign, rfl⟩ := htarget
  have htarget := he.target hassign .store
  refine yields_after fun _ => .ite ?_ ?_
  · exact (yields_anyTuple hg.toSane).bind fun _ hvalue =>
      .pure (sound_assign htarget.assigned hvalue)
  · exact (yields_statements hg _ _).bind fun _ hbody =>
      .pure (.mk trivial (List.forall_mem_singleton.2 htarget) hbody)

theorem yields_with (hg : g.Sound) : Yields (parseWith g) Stmt.Sound := by
  have hbindings : Yields (parseBindings g)
      (fun bs => ∀ b ∈ bs, b.1.Sound (.target .param) ∧ b.2.Sound .ordinary) := by
    refine .loop (fun bs => ∀ b ∈ bs, b.1.Sound (.target .param) ∧ b.2.Sound .ordinary) nofun
      fun bs hbs => ?_
    refine yields_after fun _ => .ite (.pure hbs) <| yields_after fun _ => ?_
    refine (yields_target hg.toSane _ _).bind fun target htarget => yields_after fun _ => ?_
    obtain ⟨e, he, hassign, rfl⟩ := htarget
    refine (yields_expression hg.toSane _ _).bind fun value hvalue => .pure ?_
    rw [Expr.setContext_setContext]
    exact List.forall_mem_append.2
      ⟨hbs, List.forall_mem_singleton.2 ⟨he.target hassign .param, hvalue⟩⟩
  refine yields_after fun _ => hbindings.bind fun bs hbs => ?_
  refine (yields_statements hg _ _).bind fun body hbody => .pure (.mk ?_ ?_ hbody)
  · show (bs.map Prod.snd).length = (bs.map Prod.fst).length
    rw [List.length_map, List.length_map]
  · refine List.forall_mem_append.2 ⟨Expr.sound_map fun x hx => ?_, Expr.sound_map fun x hx => ?_⟩
    · obtain ⟨b, hb, rfl⟩ := List.mem_map.1 hx
      exact (hbs b hb).1
    · obtain ⟨b, hb, rfl⟩ := List.mem_map.1 hx
      exact (hbs b hb).2

theorem yields_autoescape (hg : g.Sound) : Yields (parseAutoescape g) Stmt.Sound := by
  refine yields_after fun _ => (yields_expression hg.toSane _ _).bind fun value hvalue => ?_
  refine (yields_statements hg _ _).bind fun body hbody => .pure (.of_exprs nofun ?_ rfl trivial)
  exact List.forall_mem_singleton.2 (.of_exprs (sound_one hvalue) hbody rfl trivial)

/-! ### Other templates -/

theorem yields_extends (hg : g.Sane) : Yields (parseExtends g) Stmt.Sound :=
  yields_after fun _ => (yields_expression hg _ _).bind fun _ he =>
    .pure (.of_exprs (sound_one he) nofun rfl trivial)

/-- **A statement about another template**, whatever it does with it. -/
theorem yields_inclusion (hg : g.Sane) {make : Expr → Bool → Bool → Nat → Stmt}
    (hmake : ∀ e ignoring withContext line, e.Sound .ordinary →
      (make e ignoring withContext line).Sound) : Yields (parseInclusion g make) Stmt.Sound :=
  yields_after fun _ => (yields_expression hg _ _).bind fun _ he => yields_after fun _ =>
    yields_after fun _ => .pure (hmake _ _ _ _ he)

theorem yields_include (hg : g.Sane) : Yields (parseInclude g) Stmt.Sound :=
  yields_inclusion hg fun _ _ _ _ he => .of_exprs (sound_one he) nofun rfl trivial

theorem yields_section (hg : g.Sane) : Yields (parseSection g) Stmt.Sound :=
  yields_inclusion hg fun _ _ _ _ he => .of_exprs (sound_one he) nofun rfl trivial

theorem yields_import (hg : g.Sane) : Yields (parseImport g) Stmt.Sound :=
  yields_after fun _ => (yields_expression hg _ _).bind fun _ he => yields_after fun _ =>
    yields_after fun _ => yields_after fun _ => .pure (.of_exprs (sound_one he) nofun rfl trivial)

/-- **Imported names** are not private. -/
theorem yields_importName : Yields parseImportName (fun n => n.name.startsWith "_" = false) := by
  refine yields_after fun target => ?_
  split
  · exact yields_failAt
  · next hprivate => exact yields_after fun _ => .pure (Bool.eq_false_iff.2 hprivate)

theorem yields_importNames : Yields parseImportNames
    (fun x => ∀ n ∈ x.1, n.name.startsWith "_" = false) := by
  refine .loop (fun names => ∀ n ∈ names, n.name.startsWith "_" = false) nofun fun names hnames => ?_
  refine yields_after fun _ => yields_after fun _ => .ite (.pure hnames) ?_
  refine yields_after fun withContext => ?_
  cases withContext with
  | some withContext => exact .pure hnames
  | none =>
      refine yields_importName.bind fun name hname => ?_
      have hmore : ∀ n ∈ names ++ [name], n.name.startsWith "_" = false :=
        List.forall_mem_append.2 ⟨hnames, List.forall_mem_singleton.2 hname⟩
      refine yields_after fun withContext => ?_
      cases withContext with
      | some withContext => exact .pure hmore
      | none => exact yields_after fun _ => .ite (.pure hmore) (.pure hmore)

theorem yields_from (hg : g.Sane) : Yields (parseFrom g) Stmt.Sound := by
  refine yields_after fun _ => (yields_expression hg _ _).bind fun e he => yields_after fun _ => ?_
  refine yields_importNames.bind fun x hx => ?_
  obtain ⟨names, withContext⟩ := x
  cases withContext with
  | some withContext => exact .pure (.of_exprs (sound_one he) nofun rfl hx)
  | none => exact yields_after fun _ => .pure (.of_exprs (sound_one he) nofun rfl hx)

/-! ### Definitions and calls -/

/-- **A sound signature**: parameters are names, and no default is without one. -/
structure Grammar.Signature.Sound (sig : Signature) : Prop where
  params : ∀ e ∈ sig.params, e.Sound .parameter
  defaults : ∀ e ∈ sig.defaults, e.Sound .ordinary
  length : sig.defaults.length ≤ sig.params.length

theorem Grammar.Signature.sound_empty : ({} : Signature).Sound :=
  ⟨nofun, nofun, Nat.le_refl 0⟩

theorem yields_parameter (hg : g.Sane) {sig : Signature} (hsig : sig.Sound) :
    Yields (parseParameter g sig) Signature.Sound := by
  refine yields_targetName.bind fun param hparam => ?_
  obtain ⟨name, line, rfl, hname⟩ := hparam
  have hparam : (Expr.name name .param line).Sound .parameter :=
    .mk ⟨trivial, ⟨name, .param, line, rfl⟩, rfl, hname⟩ nofun
  have hparams := sound_append hsig.params (sound_one hparam)
  have hlength := hsig.length
  refine yields_after fun _ => .ite ?_ (.ite ?_ yields_fail)
  · refine (yields_expression hg _ _).bind fun value hvalue => .pure ?_
    refine ⟨hparams, sound_append hsig.defaults (sound_one hvalue), ?_⟩
    rw [List.length_append, List.length_append]
    exact Nat.succ_le_succ hlength
  · exact .pure ⟨hparams, nofun, Nat.zero_le _⟩

theorem yields_signature (hg : g.Sane) : Yields (parseSignature g) Signature.Sound := by
  have hparameters : Yields (parseParameters g) Signature.Sound := by
    refine .loop Signature.Sound Signature.sound_empty fun sig hsig => ?_
    refine yields_after fun _ => .ite (.pure hsig) <| yields_after fun _ => ?_
    exact (yields_parameter hg hsig).bind fun _ hx => .pure hx
  exact yields_after fun _ => hparameters.bind fun _ hsig => yields_after fun _ => .pure hsig

theorem yields_block (hg : g.Sound) : Yields (parseBlock g) Stmt.Sound :=
  yields_after fun _ => yields_after fun _ => yields_after fun _ => yields_after fun _ =>
    (yields_statements hg _ _).bind fun _ hbody => yields_after fun _ =>
      .pure (.of_exprs nofun hbody rfl trivial)

theorem yields_macro (hg : g.Sound) : Yields (parseMacro g) Stmt.Sound := by
  refine yields_after fun _ => yields_after fun _ => ?_
  refine (yields_signature hg.toSane).bind fun sig hsig => ?_
  refine (yields_statements hg _ _).bind fun body hbody => .pure (.mk hsig.length ?_ hbody)
  exact List.forall_mem_append.2 ⟨Expr.sound_map hsig.params, Expr.sound_map hsig.defaults⟩

theorem yields_callBlock (hg : g.Sound) : Yields (parseCallBlock g) Stmt.Sound := by
  have hsignature : Yields (parseOptionalSignature g) Signature.Sound :=
    yields_after fun _ => .ite (yields_signature hg.toSane) (.pure Signature.sound_empty)
  refine yields_after fun _ => hsignature.bind fun sig hsig => ?_
  refine (yields_expression hg.toSane _ _).bind fun call hcall => ?_
  cases call with
  | call node args line =>
      refine (yields_statements hg _ _).bind fun body hbody => .pure (.mk hsig.length ?_ hbody)
      exact List.forall_mem_cons.2 ⟨hcall.called, List.forall_mem_append.2
        ⟨Expr.sound_map hsig.params, Expr.sound_map hsig.defaults⟩⟩
  | const | templateData | name | internalName | tuple | list | dict | member | item | slice | filter
  | test | conditional | and | or | not | neg | pos | binary | concat | compare =>
      exact yields_failAt

theorem yields_filterBlock (hg : g.Sound) : Yields (parseFilterBlock g) Stmt.Sound := by
  refine yields_after fun _ => ?_
  refine (yields_filters hg.toSane (.inr rfl) sound_none (fun _ => rfl) true).bind
    fun filter hfilter => ?_
  exact (yields_statements hg _ _).bind fun _ hbody =>
    .pure (.mk trivial (List.forall_mem_singleton.2 hfilter) hbody)

/-! ### Case distinctions -/

/-- The alternatives of a sound expression are sound. -/
theorem sound_alternatives {e : Expr} (he : e.Sound .ordinary) :
    ∀ x ∈ e.alternatives, x.Sound .ordinary := by
  induction e using Expr.alternatives.induct with
  | case1 left right line ihl ihr =>
      have hleft : left.Sound .ordinary := he.placed (.ordinary, left) List.mem_cons_self
      have hright : right.Sound .ordinary :=
        he.placed (.ordinary, right) (List.mem_cons_of_mem _ List.mem_cons_self)
      rw [Expr.alternatives]
      exact sound_append (ihl hleft) (ihr hright)
  | case2 e hor =>
      have hone : e.alternatives = [e] := by
        rw [Expr.alternatives]
        exact hor
      rw [hone]
      exact sound_one he

/-- **A comparison with the subject**, which no template text can spell. -/
theorem CaseBranch.sound_comparison (b : CaseBranch) (subject : String) {value : Expr}
    (hvalue : value.Sound .ordinary) : (b.comparison subject value).Sound .ordinary := by
  have hsubject : (Expr.internalName subject b.line).Sound .subject :=
    .mk ⟨.inr rfl, trivial, trivial⟩ nofun
  exact .mk ⟨nofun, trivial, trivial⟩
    (List.forall_mem_cons.2 ⟨hsubject, List.forall_mem_singleton.2 hvalue⟩)

/-- Further comparisons keep a condition sound. -/
theorem CaseBranch.sound_tests (b : CaseBranch) (subject : String) {values : List Expr}
    (hvalues : ∀ e ∈ values, e.Sound .ordinary) {test : Expr} (htest : test.Sound .ordinary) :
    (values.foldl (fun e value => .or e (b.comparison subject value) b.line) test).Sound
      .ordinary := by
  induction values generalizing test with
  | nil => exact htest
  | cons value values ih =>
      have hvalue := b.sound_comparison subject (hvalues value List.mem_cons_self)
      exact ih (fun e he => hvalues e (List.mem_cons_of_mem _ he))
        (.of_children (sound_two htest hvalue) rfl trivial trivial)

/-- **A branch that is fit for a tree.** -/
structure CaseBranch.Fit (b : CaseBranch) : Prop where
  values : ∀ e ∈ b.values, e.Sound .ordinary
  body : SoundBody b.body

theorem CaseBranch.Fit.test {b : CaseBranch} (hb : b.Fit) {subject : String} {test : Expr}
    (h : b.test? subject = some test) : test.Sound .ordinary := by
  obtain ⟨values, body, line⟩ := b
  cases values with
  | nil => nomatch h
  | cons value values =>
      obtain rfl := Option.some.inj h
      refine CaseBranch.sound_tests _ subject (fun e he => hb.values e (List.mem_cons_of_mem _ he)) ?_
      exact CaseBranch.sound_comparison _ subject (hb.values value List.mem_cons_self)

/-- **The chain of conditions** is sound. -/
theorem sound_caseChain (subject : String) {branches : List CaseBranch} {fallback : List Stmt}
    (hb : ∀ b ∈ branches, b.Fit) (hf : SoundBody fallback) :
    SoundBody (caseChain subject branches fallback) := by
  induction branches with
  | nil => exact hf
  | cons b branches ih =>
      have hrest := ih fun b' hb' => hb b' (List.mem_cons_of_mem _ hb')
      have hfirst := hb b List.mem_cons_self
      rw [caseChain, List.foldr_cons]
      cases htest : b.test? subject with
      | none => exact hrest
      | some test =>
          exact List.forall_mem_singleton.2 (sound_ifThen (hfirst.test htest) hfirst.body hrest)

theorem yields_case (hg : g.Sound) :
    Yields (parseCase g) (fun x => SoundBody x.toList) := by
  have hvalues : Yields (parseWhenValues g) (fun es => ∀ e ∈ es, e.Sound .ordinary) := by
    refine .loop (fun es => ∀ e ∈ es, e.Sound .ordinary) nofun fun es hes => ?_
    refine (yields_expression hg.toSane _ _).bind fun e he => yields_after fun _ => ?_
    have hmore := sound_append hes (sound_alternatives he)
    exact .ite (.pure hmore) (.pure hmore)
  have hbranch (line : Nat) : Yields (parseCaseBranch g line) CaseBranch.Fit :=
    hvalues.bind fun _ hes => (yields_statements hg _ _).bind fun _ hbody => .pure ⟨hes, hbody⟩
  have hbranches : Yields (parseCaseBranches g)
      (fun x => (∀ b ∈ x.1, b.Fit) ∧ SoundBody x.2) := by
    refine .loop (fun x => (∀ b ∈ x.1, b.Fit) ∧ SoundBody x.2) ⟨nofun, nofun⟩ fun x hx => ?_
    refine yields_after fun t => .ite ?_ (.ite ?_ (.pure hx))
    · exact (hbranch _).bind fun b hb =>
        .pure ⟨List.forall_mem_append.2 ⟨hx.1, List.forall_mem_singleton.2 hb⟩, hx.2⟩
    · exact (yields_statements hg _ _).bind fun _ hbody => .pure ⟨hx.1, hbody⟩
  have hfresh (line : Nat) :
      Yields (freshName line) (fun e => ∃ name line, e = .internalName name line) := by
    intro s x t h
    obtain ⟨rfl, -⟩ := EStateM.Result.ok.inj h
    exact ⟨_, _, rfl⟩
  refine yields_after fun _ => (yields_expression hg.toSane _ _).bind fun subject hsubject => ?_
  refine (hfresh _).bind fun target htarget => yields_after fun _ => ?_
  refine hbranches.bind fun x hx => .pure ?_
  obtain ⟨name, line, rfl⟩ := htarget
  have htarget : (Expr.internalName name line).Sound .assigned := .mk ⟨.inl rfl, rfl, trivial⟩ nofun
  exact List.forall_mem_cons.2 ⟨sound_assign htarget hsubject, sound_caseChain _ hx.1 hx.2⟩

/-! ### All tags -/

/-- **The tags of every environment** yield sound statements. -/
theorem yields_builtin (hg : g.Sound) {p : Parser Stmt} (h : builtin? g tag = some p) :
    Yields p Stmt.Sound := by
  unfold builtin? at h
  split at h
  case h_1 => exact Option.some.inj h ▸ yields_for hg
  case h_2 => exact Option.some.inj h ▸ yields_after fun _ => yields_branch hg _ _ _
  case h_3 => exact Option.some.inj h ▸ yields_after fun _ => yields_branch hg _ _ _
  case h_4 => exact Option.some.inj h ▸ yields_after fun _ => .pure (.of_exprs nofun nofun rfl trivial)
  case h_5 => exact Option.some.inj h ▸ yields_after fun _ => .pure (.of_exprs nofun nofun rfl trivial)
  case h_6 => exact Option.some.inj h ▸ yields_block hg
  case h_7 => exact Option.some.inj h ▸ yields_extends hg.toSane
  case h_8 => exact Option.some.inj h ▸ yields_print hg.toSane
  case h_9 => exact Option.some.inj h ▸ yields_macro hg
  case h_10 => exact Option.some.inj h ▸ yields_include hg.toSane
  case h_11 => exact Option.some.inj h ▸ yields_section hg.toSane
  case h_12 => exact Option.some.inj h ▸ yields_from hg.toSane
  case h_13 => exact Option.some.inj h ▸ yields_import hg.toSane
  case h_14 => exact Option.some.inj h ▸ yields_set hg _
  case h_15 => exact Option.some.inj h ▸ yields_set hg _
  case h_16 => exact Option.some.inj h ▸ yields_set hg _
  case h_17 => exact Option.some.inj h ▸ yields_with hg
  case h_18 => exact Option.some.inj h ▸ yields_autoescape hg
  case h_19 => exact Option.some.inj h ▸ yields_callBlock hg
  case h_20 => exact Option.some.inj h ▸ yields_filterBlock hg
  case h_21 => nomatch h

/-- **The tags of known extensions** yield sound statements. -/
theorem yields_known (hg : g.Sound) {x : Extension} (hx : x.Known) :
    Yields (x.parse g) (fun x => SoundBody x.toList) := by
  cases hx with
  | doExpr =>
      exact yields_after fun _ => (yields_anyTuple hg.toSane).bind fun _ he =>
        .pure (List.forall_mem_singleton.2 (.of_exprs (sound_one he) nofun rfl trivial))
  | case => exact yields_case hg
  | shout _ =>
      refine yields_after fun _ => (yields_expression hg.toSane _ _).bind fun e he => .pure ?_
      have hfilter (line : Nat) : (Expr.filter (some e) "upcase" {} line).Sound .ordinary :=
        Expr.sound_filter (.inl rfl) (sound_some he) nofun Arguments.sound_empty
      exact List.forall_mem_singleton.2
        (.mk trivial (Expr.sound_map (sound_one (hfilter _).shown)) nofun)

/-- **Any statement** is sound. -/
theorem yields_statement (henv : ∀ x ∈ env.extensions, x.Known) (hg : g.Sound) :
    Yields (parseStatement env g) (fun x => SoundBody x.toList) := by
  refine yields_after fun t => ?_
  split
  · exact yields_failAt
  · next tag _ =>
      split
      · next p hp =>
          refine Yields.inTag ?_ tag
          unfold tag? at hp
          split at hp
          · next q hq =>
              exact Option.some.inj hp ▸ (yields_builtin hg hq).map fun _ hs =>
                List.forall_mem_singleton.2 hs
          · obtain ⟨x, hx, rfl⟩ := Option.map_eq_some_iff.1 hp
            exact yields_known hg (henv x (Environment.extension?_mem hx).1)
      · exact fun _ _ _ h => nomatch h

/-! ### Grammars -/

/-- **The bounded grammars** are sound, since their references are to those of smaller bounds. -/
theorem sound_below (henv : ∀ x ∈ env.extensions, x.Known) (n : Nat) : (below env n).Sound := by
  induction n using Nat.strongRecOn with
  | _ n ih =>
      have hbelow {α : Type} {p : Nat → Parser α} {post : α → Prop}
          (h : ∀ j, j < n → Yields (p j) post) :
          Yields (guarded n fun s _ => p s.weight s) post := by
        intro s x t hx
        obtain ⟨hlt, hx⟩ := guarded_eq_ok hx
        exact h _ hlt s x t hx
      refine { expression := ?_, negation := ?_, signed := ?_, group := ?_, statement := ?_,
               branch := ?_ }
      · intro conditional filters
        rw [below_expression]
        exact hbelow (p := fun j => parseExpression (below env j) conditional filters)
          fun j hj => yields_expression (ih j hj).toSane conditional filters
      · intro filters
        rw [below_negation]
        exact hbelow (p := fun j => parseNegation (below env j) filters)
          fun j hj => yields_negation (ih j hj).toSane filters
      · rw [below_signed]
        exact hbelow (p := fun j => parseSigned (below env j) false)
          fun j hj => yields_signed (ih j hj).toSane false
      · rw [below_group]
        exact hbelow (p := fun j => parseTuple (below env j) (.expression true) [] true)
          fun j hj => yields_tuple (ih j hj).toSane _ _ _
      · rw [below_statement]
        exact hbelow (p := fun j => parseStatement env (below env j))
          fun j hj => yields_statement henv (ih j hj)
      · intro line tag
        rw [below_branch]
        exact hbelow (p := fun j => parseBranch (below env j) line tag false)
          fun j hj => yields_branch (ih j hj) line tag false

/-- **The grammar of an environment** is sound. -/
theorem sound_grammar (henv : ∀ x ∈ env.extensions, x.Known) : env.grammar.Sound := by
  have hbelow (n : Nat) := sound_below henv n
  refine { expression := ?_, negation := ?_, signed := ?_, group := ?_, statement := ?_,
           branch := ?_ }
  · exact fun conditional filters s x t h =>
      yields_expression (hbelow _).toSane conditional filters s x t h
  · exact fun filters s x t h => yields_negation (hbelow _).toSane filters s x t h
  · exact fun s x t h => yields_signed (hbelow _).toSane false s x t h
  · exact fun s x t h => yields_tuple (hbelow _).toSane _ _ _ s x t h
  · exact fun s x t h => yields_statement henv (hbelow _) s x t h
  · exact fun line tag s x t h => yields_branch (hbelow _) line tag false s x t h

end LiquidTemplate
