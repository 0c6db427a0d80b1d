import LiquidTemplate.Proofs.Echoes.Expressions
import LiquidTemplate.Proofs.Texts.Grammars

/-!
# Statements at other places

Every tag makes the same statement of tokens that look the same: the same up to lines, and just the
same where the tokens stand on the same lines.

* `Stmt.seen`: what is looked at of a statement.
* `Grammar.EchoedAll`: a grammar whose statements and bodies are echoed.
* `echoes_branch`, `echoes_for`: conditions and loops.
* `echoes_signature`: the parameters of macros and calls.
* `echoes_builtin`: all tags of the language.
-/

namespace LiquidTemplate

open LiquidTemplate.Parser LiquidTemplate.Grammar

variable {lines : Bool} {n : Nat} {s s' t : ParserState} {g : Grammar} {env : Environment} {tag : String}

/-! ### What is seen -/

/-- **What is seen of a statement.** -/
def Stmt.seen (lines : Bool) (s : Stmt) : Stmt :=
  if lines then s else s.withoutLines

namespace Stmt

theorem seen_true : seen true = id :=
  rfl

theorem seen_false : seen false = withoutLines :=
  rfl

section Nodes

variable (line : Nat) (body : List Stmt)

theorem seen_output (nodes : List Expr) : (output nodes line).seen lines =
    output (nodes.map (Expr.seen lines)) (seenLine lines line) := by
  cases lines <;> simp [seen_true, seen_false, withoutLines, seenLine, Expr.seen_true, Expr.seen_false]

theorem seen_extendsTemplate (template : Expr) : (extendsTemplate template line).seen lines =
    extendsTemplate (template.seen lines) (seenLine lines line) := by
  cases lines <;> rfl

theorem seen_forLoop (target iter : Expr) (otherwise : List Stmt) (test : Option Expr)
    (recursive : Bool) : (forLoop target iter body otherwise test recursive line).seen lines =
      forLoop (target.seen lines) (iter.seen lines) (body.map (seen lines)) (otherwise.map (seen lines))
        (test.map (Expr.seen lines)) recursive (seenLine lines line) := by
  cases lines <;> simp [seen_true, seen_false, withoutLines, seenLine, Expr.seen_true, Expr.seen_false]

theorem seen_ifThen (test : Expr) (otherwise : List Stmt) :
    (ifThen test body otherwise line).seen lines = ifThen (test.seen lines) (body.map (seen lines))
      (otherwise.map (seen lines)) (seenLine lines line) := by
  cases lines <;> simp [seen_true, seen_false, withoutLines, seenLine, Expr.seen_true, Expr.seen_false]

theorem seen_breakLoop : (breakLoop line).seen lines = breakLoop (seenLine lines line) := by
  cases lines <;> rfl

theorem seen_continueLoop : (continueLoop line).seen lines = continueLoop (seenLine lines line) := by
  cases lines <;> rfl

theorem seen_withBlock (targets values : List Expr) : (withBlock targets values body line).seen lines =
    withBlock (targets.map (Expr.seen lines)) (values.map (Expr.seen lines)) (body.map (seen lines))
      (seenLine lines line) := by
  cases lines <;> simp [seen_true, seen_false, withoutLines, seenLine, Expr.seen_true, Expr.seen_false]

theorem seen_scope :
    (scope body line).seen lines = scope (body.map (seen lines)) (seenLine lines line) := by
  cases lines <;> simp [seen_true, seen_false, withoutLines, seenLine]

theorem seen_optionBlock (key : String) (value : Expr) (line' : Nat) :
    (optionBlock [⟨key, value, line'⟩] body line).seen lines =
      optionBlock [⟨key, value.seen lines, seenLine lines line'⟩] (body.map (seen lines))
        (seenLine lines line) := by
  cases lines <;> simp [seen_true, seen_false, withoutLines, seenLine, Expr.seen_true, Expr.seen_false]

theorem seen_block (name : String) (isScoped : Bool) : (block name isScoped body line).seen lines =
    block name isScoped (body.map (seen lines)) (seenLine lines line) := by
  cases lines <;> simp [seen_true, seen_false, withoutLines, seenLine]

theorem seen_includeTemplate (template : Expr) (ignoreMissing withContext : Bool) :
    (includeTemplate template ignoreMissing withContext line).seen lines =
      includeTemplate (template.seen lines) ignoreMissing withContext (seenLine lines line) := by
  cases lines <;> rfl

theorem seen_sectionTemplate (template : Expr) (ignoreMissing withContext : Bool) :
    (sectionTemplate template ignoreMissing withContext line).seen lines =
      sectionTemplate (template.seen lines) ignoreMissing withContext (seenLine lines line) := by
  cases lines <;> rfl

theorem seen_importTemplate (template : Expr) (target : String) (withContext : Bool) :
    (importTemplate template target withContext line).seen lines =
      importTemplate (template.seen lines) target withContext (seenLine lines line) := by
  cases lines <;> rfl

theorem seen_importNames (template : Expr) (names : List ImportName) (withContext : Bool) :
    (importNames template names withContext line).seen lines =
      importNames (template.seen lines) names withContext (seenLine lines line) := by
  cases lines <;> rfl

theorem seen_macroBlock (name : String) (params defaults : List Expr) :
    (macroBlock name params defaults body line).seen lines =
      macroBlock name (params.map (Expr.seen lines)) (defaults.map (Expr.seen lines))
        (body.map (seen lines)) (seenLine lines line) := by
  cases lines <;> simp [seen_true, seen_false, withoutLines, seenLine, Expr.seen_true, Expr.seen_false]

theorem seen_callBlock (call : Expr) (params defaults : List Expr) :
    (callBlock call params defaults body line).seen lines =
      callBlock (call.seen lines) (params.map (Expr.seen lines)) (defaults.map (Expr.seen lines))
        (body.map (seen lines)) (seenLine lines line) := by
  cases lines <;> simp [seen_true, seen_false, withoutLines, seenLine, Expr.seen_true, Expr.seen_false]

theorem seen_filterBlock (filter : Expr) : (filterBlock filter body line).seen lines =
    filterBlock (filter.seen lines) (body.map (seen lines)) (seenLine lines line) := by
  cases lines <;> simp [seen_true, seen_false, withoutLines, seenLine, Expr.seen_true, Expr.seen_false]

theorem seen_assign (target value : Expr) : (assign target value line).seen lines =
    assign (target.seen lines) (value.seen lines) (seenLine lines line) := by
  cases lines <;> rfl

theorem seen_assignBlock (target : Expr) : (assignBlock target body line).seen lines =
    assignBlock (target.seen lines) (body.map (seen lines)) (seenLine lines line) := by
  cases lines <;> simp [seen_true, seen_false, withoutLines, seenLine, Expr.seen_true, Expr.seen_false]

theorem seen_expr (node : Expr) :
    (expr node line).seen lines = expr (node.seen lines) (seenLine lines line) := by
  cases lines <;> rfl

end Nodes

end Stmt

/-- **What is seen of what a tag stands for.** -/
def Expansion.seen (lines : Bool) : Expansion → Expansion
  | single stmt => single (stmt.seen lines)
  | multiple stmts => multiple (stmts.map (Stmt.seen lines))

/-- **What is seen of the modifiers of a loop.** -/
def LoopModifiers.seen (lines : Bool) (m : LoopModifiers) : LoopModifiers :=
  ⟨m.reversed, m.limit.map (Expr.seen lines), m.offset.map (Expr.seen lines)⟩

theorem Expr.line_seen (e : Expr) : (e.seen lines).line = seenLine lines e.line := by
  cases lines with
  | true => rfl
  | false => cases e <;> rfl

theorem LoopModifiers.seen_slice (m : LoopModifiers) (line : Nat) :
    (m.slice line).seen lines = (m.seen lines).slice (seenLine lines line) := by
  obtain ⟨reversed, limit, offset⟩ := m
  cases limit <;> cases offset <;>
    simp [slice, seen, Expr.seen_slice, Expr.seen_binary, Expr.seen_const]

/-- Modifiers add nothing but what is in them and in the items, and the line of these. -/
theorem LoopModifiers.seen_apply (m : LoopModifiers) (e : Expr) :
    (m.apply e).seen lines = (m.seen lines).apply (e.seen lines) := by
  have hslice : (m.slice e.line).seen lines = _ := m.seen_slice e.line
  obtain ⟨reversed, limit, offset⟩ := m
  cases reversed <;> cases limit <;> cases offset <;>
    simp_all [apply, seen, Expr.seen_filter, Expr.seen_item, Expr.line_seen, Arguments.seen]

/-- **Echoed statements** of a grammar, and their bodies. -/
structure Grammar.EchoedAll (lines : Bool) (n : Nat) (g : Grammar) : Prop extends Echoed lines n g where
  statement : Echoes lines n (Expansion.seen lines) g.statement g.statement
  branch : ∀ {line line' : Nat} (tag : String), seenLine lines line = seenLine lines line' →
    Echoes lines n (Stmt.seen lines) (g.branch line tag) (g.branch line' tag)
  body : ∀ ends consume, Echoes lines n (List.map (Stmt.seen lines)) (parseStatements g ends consume)
    (parseStatements g ends consume)

/-- **An echoed tag**: its statement is. -/
abbrev EchoesTag (lines : Bool) (n : Nat) (p : Parser Stmt) : Prop :=
  Echoes lines n (Stmt.seen lines) p p

section Tags

variable (hg : g.EchoedAll lines n)
include hg

/-! ### Conditions and loops -/

theorem echoes_branch {line line' : Nat} (hline : seenLine lines line = seenLine lines line')
    (tag : String) (negate : Bool) : Echoes lines n (Stmt.seen lines) (parseBranch g line tag negate)
      (parseBranch g line' tag negate) := by
  have halternatives : Echoes lines n (List.map (Stmt.seen lines)) (parseAlternatives g tag)
      (parseAlternatives g tag) := by
    refine echoes_advance.bind_value fun t t' ht => ?_
    refine .ite (by rw [Token.isName_of_seen ht]) ?_ (.ite (by rw [Token.isName_of_seen ht])
      (hg.body _ _) .pure)
    refine echoes_current.bind_value fun u u' hu => ?_
    refine (hg.branch tag (Token.line_of_seen hu)).bind_value fun stmt stmt' h => .pure_value ?_
    rw [List.map_singleton, List.map_singleton, h]
  refine (echoes_tuple hg.toEchoed _ _).bind_value fun e e' he => ?_
  refine (hg.body _ _).bind_value fun body body' hbody => ?_
  refine halternatives.bind_value fun otherwise otherwise' hotherwise => .pure_value ?_
  rw [Stmt.seen_ifThen, Stmt.seen_ifThen, hbody, hotherwise, hline]
  cases negate with
  | false => exact congrArg (Stmt.ifThen · _ _ _) he
  | true =>
    have hnot : (Expr.not e e.line).seen lines = (Expr.not e' e'.line).seen lines := by
      rw [Expr.seen_not, Expr.seen_not, he, Expr.seenLine_line he]
    exact congrArg (Stmt.ifThen · _ _ _) hnot

theorem echoes_if : EchoesTag lines n (parseIf g) :=
  (echoes_expect _).bind_value fun _ _ h => echoes_branch hg (Token.line_of_seen h) _ _

theorem echoes_unless : EchoesTag lines n (parseUnless g) :=
  (echoes_expect _).bind_value fun _ _ h => echoes_branch hg (Token.line_of_seen h) _ _

theorem echoes_iterable : Echoes lines n (Expr.seen lines) (parseIterable g) (parseIterable g) := by
  have hvalue : Echoes lines n (Expr.seen lines) (parseModifierValue g) (parseModifierValue g) :=
    (echoes_expect _).bind_value fun _ _ _ => hg.reference _ _
  have hmodifiers : Echoes lines n (LoopModifiers.seen lines) (parseModifiers g) (parseModifiers g) := by
    refine .loop (d := LoopModifiers.seen lines) (fun m m' h => ?_) rfl
    obtain ⟨hreversed, hlimit, hoffset⟩ := LoopModifiers.mk.inj h
    refine (echoes_skipIf _).bind fun _ => .ite Iff.rfl (.pure_value (congrArg Sum.inl ?_)) ?_
    · rw [LoopModifiers.seen, LoopModifiers.seen, hlimit, hoffset]
    refine (echoes_skipIf _).bind fun _ => .ite Iff.rfl ?_ ?_
    · refine hvalue.bind_value fun e e' he => .pure_value (congrArg Sum.inl ?_)
      simp only [LoopModifiers.seen, hreversed, hoffset, Option.map_some, he]
    refine (echoes_skipIf _).bind fun _ => .ite Iff.rfl ?_ (.pure_value (congrArg Sum.inr h))
    refine hvalue.bind_value fun e e' he => .pure_value (congrArg Sum.inl ?_)
    simp only [LoopModifiers.seen, hreversed, hlimit, Option.map_some, he]
  refine (echoes_tuple hg.toEchoed _ _).bind_value fun e e' he => ?_
  refine hmodifiers.bind_value fun m m' h => .pure_value ?_
  rw [LoopModifiers.seen_apply, LoopModifiers.seen_apply, h, he]

theorem echoes_for : EchoesTag lines n (parseFor g) := by
  have htest : Echoes lines n (Option.map (Expr.seen lines)) (parseLoopTest? g) (parseLoopTest? g) :=
    (echoes_skipIf _).bind fun _ => .ite Iff.rfl
      ((hg.expression _ _).bind_value fun _ _ h => .pure_value (congrArg some h)) .pure
  have helse : Echoes lines n (List.map (Stmt.seen lines)) (parseLoopElse g) (parseLoopElse g) :=
    echoes_advance.bind_value fun _ _ h =>
      .ite (by rw [Token.isName_of_seen h]) .pure (hg.body _ _)
  refine (echoes_expect _).bind_value fun t t' ht => ?_
  refine (echoes_target hg.toEchoed _ _).bind_value fun target target' htarget => ?_
  refine (echoes_expect _).bind_value fun _ _ _ =>
    (echoes_iterable hg).bind_value fun iter iter' hiter => ?_
  refine htest.bind_value fun test test' hsame => (echoes_skipIf _).bind fun recursive => ?_
  refine (hg.body _ _).bind_value fun body body' hbody => ?_
  refine helse.bind_value fun otherwise otherwise' hotherwise => .pure_value ?_
  rw [Stmt.seen_forLoop, Stmt.seen_forLoop, htarget, hiter, hbody, hotherwise, hsame,
    Token.line_of_seen ht]

/-! ### Output and assignments -/

theorem echoes_print : EchoesTag lines n (parsePrint g) := by
  have hprinted : Echoes lines n (List.map (Expr.seen lines)) (parsePrinted g) (parsePrinted g) := by
    refine .loop (d := List.map (Expr.seen lines)) (fun nodes nodes' h => ?_) rfl
    have hempty : nodes.isEmpty = nodes'.isEmpty := by
      rw [← List.isEmpty_map (f := Expr.seen lines), h, List.isEmpty_map]
    rw [parseNextPrinted, parseNextPrinted, hempty]
    refine (echoes_atMark _).bind fun _ => .ite Iff.rfl (.pure_value (congrArg Sum.inr h)) ?_
    refine (echoes_separator _).bind fun _ => (hg.expression _ _).bind_value fun e e' he => ?_
    exact .pure_value (congrArg Sum.inl (by simp [h, he]))
  refine echoes_advance.bind_value fun t t' ht => hprinted.bind_value fun nodes nodes' h => ?_
  exact .pure_value (by rw [Stmt.seen_output, Stmt.seen_output, h, Token.line_of_seen ht])

theorem echoes_set (tag : String) : EchoesTag lines n (parseSet g tag) := by
  refine echoes_advance.bind_value fun t t' ht => ?_
  refine (echoes_target hg.toEchoed _ _).bind_value fun target target' htarget => ?_
  refine (echoes_skipIf _).bind fun _ => .ite Iff.rfl ?_ ?_
  · refine (echoes_tuple hg.toEchoed _ _).bind_value fun value value' hvalue => .pure_value ?_
    rw [Stmt.seen_assign, Stmt.seen_assign, htarget, hvalue, Token.line_of_seen ht]
  · refine (hg.body _ _).bind_value fun body body' hbody => .pure_value ?_
    rw [Stmt.seen_assignBlock, Stmt.seen_assignBlock, htarget, hbody, Token.line_of_seen ht]

theorem echoes_with : EchoesTag lines n (parseWith g) := by
  let look : List (Expr × Expr) → List (Expr × Expr) :=
    List.map fun b => (b.1.seen lines, b.2.seen lines)
  have hbindings : Echoes lines n look (parseBindings g) (parseBindings g) := by
    refine .loop (d := look) (fun bindings bindings' h => ?_) rfl
    have hempty : bindings.isEmpty = bindings'.isEmpty := by
      have hlooks := congrArg List.isEmpty h
      rwa [List.isEmpty_map, List.isEmpty_map] at hlooks
    rw [parseNextBinding, parseNextBinding, hempty]
    refine (echoes_atMark _).bind fun _ => .ite Iff.rfl (.pure_value (congrArg Sum.inr h)) ?_
    refine (echoes_separator _).bind fun _ => ?_
    refine (echoes_target hg.toEchoed _ _).bind_value fun target target' htarget => ?_
    refine (echoes_expect _).bind_value fun _ _ _ => ?_
    refine (hg.expression _ _).bind_value fun value value' hvalue => .pure_value (congrArg Sum.inl ?_)
    show look (bindings ++ _) = look (bindings' ++ _)
    have hparam := Expr.setContext_of_seen htarget .param
    simp only [look, List.map_append, List.map_singleton, hparam, hvalue]
    exact congrArg (· ++ _) h
  refine echoes_advance.bind_value fun t t' ht => hbindings.bind_value fun bindings bindings' h => ?_
  refine (hg.body _ _).bind_value fun body body' hbody => .pure_value ?_
  have htargets := congrArg (List.map Prod.fst) h
  have hvalues := congrArg (List.map Prod.snd) h
  simp only [look, List.map_map] at htargets hvalues
  rw [Stmt.seen_withBlock, Stmt.seen_withBlock, hbody, Token.line_of_seen ht, List.map_map, List.map_map,
    List.map_map, List.map_map]
  exact congrArg₂ (Stmt.withBlock · · _ _) htargets hvalues

theorem echoes_autoescape : EchoesTag lines n (parseAutoescape g) := by
  refine echoes_advance.bind_value fun t t' ht => (hg.expression _ _).bind_value fun value value' h => ?_
  refine (hg.body _ _).bind_value fun body body' hbody => .pure_value ?_
  rw [Stmt.seen_scope, Stmt.seen_scope, List.map_singleton, List.map_singleton, Stmt.seen_optionBlock,
    Stmt.seen_optionBlock, h, Expr.seenLine_line h, hbody, Token.line_of_seen ht]

/-! ### Other templates -/

omit hg in
theorem echoes_context : Echoes lines n id parseContext? parseContext? := by
  refine echoes_current.bind_value fun t t' ht => echoes_look.bind_value fun u u' hu => ?_
  refine .ite (by rw [Token.isName_of_seen ht, Token.isName_of_seen ht, Token.isName_of_seen hu])
    (echoes_skip_two.bind fun _ => .pure_value ?_) .pure
  exact congrArg some (Token.isName_of_seen ht _)

omit hg in
theorem echoes_ignoreMissing : Echoes lines n id parseIgnoreMissing parseIgnoreMissing := by
  refine echoes_current.bind_value fun t t' ht => echoes_look.bind_value fun u u' hu => ?_
  exact .ite (by rw [Token.isName_of_seen ht, Token.isName_of_seen hu])
    (echoes_skip_two.bind fun _ => .pure) .pure

theorem echoes_extends : EchoesTag lines n (parseExtends g) := by
  refine echoes_advance.bind_value fun t t' ht => (hg.expression _ _).bind_value fun e e' he => ?_
  exact .pure_value
    (by rw [Stmt.seen_extendsTemplate, Stmt.seen_extendsTemplate, he, Token.line_of_seen ht])

theorem echoes_inclusion {make : Expr → Bool → Bool → Nat → Stmt}
    (hmake : ∀ e ignoring withContext line, (make e ignoring withContext line).seen lines =
      make (e.seen lines) ignoring withContext (seenLine lines line)) :
    EchoesTag lines n (parseInclusion g make) := by
  refine echoes_advance.bind_value fun t t' ht => (hg.expression _ _).bind_value fun e e' he => ?_
  refine echoes_ignoreMissing.bind fun _ => echoes_context.bind fun _ => .pure_value ?_
  rw [hmake, hmake, he, Token.line_of_seen ht]

theorem echoes_import : EchoesTag lines n (parseImport g) := by
  refine echoes_advance.bind_value fun t t' ht => (hg.expression _ _).bind_value fun e e' he => ?_
  refine (echoes_expect _).bind_value fun _ _ _ => echoes_targetName.bind_value fun x x' hx => ?_
  refine echoes_context.bind fun _ => .pure_value ?_
  rw [Stmt.seen_importTemplate, Stmt.seen_importTemplate, he, Expr.nameText_of_seen hx,
    Token.line_of_seen ht]

omit hg in
theorem echoes_importNames : Echoes lines n id parseImportNames parseImportNames := by
  have halias : Echoes lines n id parseAlias? parseAlias? := by
    refine (echoes_skipIf _).bind fun _ => .ite Iff.rfl ?_ .pure
    exact echoes_targetName.bind_value fun x x' hx =>
      .pure_value (congrArg some (Expr.nameText_of_seen hx))
  have hname : Echoes lines n id parseImportName parseImportName := by
    refine echoes_targetName.bind_value fun x x' hx => ?_
    rw [Expr.nameText_of_seen hx]
    exact .ite Iff.rfl echoes_failAt (halias.bind fun _ => .pure)
  have hend (names : List ImportName) :
      Echoes lines n id (parseImportEnd names) (parseImportEnd names) := by
    refine echoes_context.bind fun context => ?_
    cases context with
    | some _ => exact .pure
    | none => exact (echoes_atSymbol _).bind fun _ => .ite Iff.rfl .pure .pure
  refine .loop (d := id) (fun names names' h => ?_) rfl
  obtain rfl : names = names' := h
  rw [Sum.map_id_id]
  refine (echoes_separator _).bind fun _ => echoes_current.bind_value fun t t' ht => ?_
  refine .ite (by rw [Token.name?_of_seen ht]) .pure (echoes_context.bind fun context => ?_)
  cases context with
  | some _ => exact .pure
  | none => exact hname.bind fun _ => hend _

theorem echoes_from : EchoesTag lines n (parseFrom g) := by
  refine echoes_advance.bind_value fun t t' ht => (hg.expression _ _).bind_value fun e e' he => ?_
  refine (echoes_expect _).bind_value fun _ _ _ => echoes_importNames.bind fun y => ?_
  obtain ⟨names, context⟩ := y
  have hmake (withContext : Bool) : (Stmt.importNames e names withContext t.line).seen lines =
      (Stmt.importNames e' names withContext t'.line).seen lines := by
    rw [Stmt.seen_importNames, Stmt.seen_importNames, he, Token.line_of_seen ht]
  cases context with
  | some _ => exact .pure_value (hmake _)
  | none => exact (echoes_skipIf _).bind fun _ => .pure_value (hmake _)

/-! ### Definitions and calls -/

omit hg in
/-- **What is seen of a signature.** -/
def Grammar.Signature.seen (lines : Bool) (sig : Signature) : Signature :=
  ⟨sig.params.map (Expr.seen lines), sig.defaults.map (Expr.seen lines)⟩

theorem echoes_signature :
    Echoes lines n (Signature.seen lines) (parseSignature g) (parseSignature g) := by
  have hparameter {sig sig' : Signature} (h : sig.seen lines = sig'.seen lines) :
      Echoes lines n (Signature.seen lines) (parseParameter g sig) (parseParameter g sig') := by
    obtain ⟨hparams, hdefaults⟩ := Signature.mk.inj h
    refine echoes_targetName.bind_value fun x x' hx => (echoes_skipIf _).bind fun _ => ?_
    have hparam := Expr.setContext_of_seen hx .param
    refine .ite Iff.rfl ?_ (.ite ?_ (.pure_value ?_) echoes_fail)
    · refine (hg.expression _ _).bind_value fun value value' hvalue => .pure_value ?_
      simp only [Signature.seen, List.map_append, List.map_singleton, hparams, hdefaults, hparam, hvalue]
    · rw [← List.isEmpty_map (f := Expr.seen lines), hdefaults, List.isEmpty_map]
    · simp only [Signature.seen, List.map_append, List.map_singleton, hparams, hparam]
  have hparameters : Echoes lines n (Signature.seen lines) (parseParameters g) (parseParameters g) := by
    refine .loop (d := Signature.seen lines) (fun sig sig' h => ?_) rfl
    obtain ⟨hparams, -⟩ := Signature.mk.inj h
    have hempty : sig.params.isEmpty = sig'.params.isEmpty := by
      rw [← List.isEmpty_map (f := Expr.seen lines), hparams, List.isEmpty_map]
    rw [parseNextParameter, parseNextParameter, hempty]
    refine (echoes_atSymbol _).bind fun _ => .ite Iff.rfl (.pure_value (congrArg Sum.inr h)) ?_
    refine (echoes_separator _).bind fun _ => (hparameter h).bind_value fun _ _ hsig => ?_
    exact .pure_value (congrArg Sum.inl hsig)
  refine (echoes_expect _).bind_value fun _ _ _ => hparameters.bind_value fun _ _ h => ?_
  exact (echoes_expect _).bind_value fun _ _ _ => .pure_value h

theorem echoes_block : EchoesTag lines n (parseBlock g) := by
  have hhyphen : Echoes lines n id refuseHyphen refuseHyphen :=
    (echoes_atSymbol _).bind fun _ => .ite Iff.rfl echoes_fail .pure
  refine echoes_advance.bind_value fun t t' ht => (echoes_expect _).bind_value fun u u' hu => ?_
  have hname : u.nameText = u'.nameText := by rw [Token.nameText, Token.nameText, Token.name?_of_seen hu]
  rw [hname]
  refine (echoes_skipIf _).bind fun _ => hhyphen.bind fun _ => ?_
  refine (hg.body _ _).bind_value fun body body' hbody => (echoes_skipIf _).bind fun _ => .pure_value ?_
  rw [Stmt.seen_block, Stmt.seen_block, hbody, Token.line_of_seen ht]

theorem echoes_macroBlock : EchoesTag lines n (parseMacro g) := by
  refine echoes_advance.bind_value fun t t' ht => echoes_targetName.bind_value fun x x' hx => ?_
  refine (echoes_signature hg).bind_value fun sig sig' hsig => ?_
  refine (hg.body _ _).bind_value fun body body' hbody => .pure_value ?_
  obtain ⟨hparams, hdefaults⟩ := Signature.mk.inj hsig
  rw [Stmt.seen_macroBlock, Stmt.seen_macroBlock, Expr.nameText_of_seen hx, hparams, hdefaults, hbody,
    Token.line_of_seen ht]

theorem echoes_callBlock : EchoesTag lines n (parseCallBlock g) := by
  have hsignature : Echoes lines n (Signature.seen lines) (parseOptionalSignature g)
      (parseOptionalSignature g) :=
    (echoes_atSymbol _).bind fun _ => .ite Iff.rfl (echoes_signature hg) .pure
  refine echoes_advance.bind_value fun t t' ht => hsignature.bind_value fun sig sig' hsig => ?_
  refine (hg.expression _ _).bind_value fun e e' he => ?_
  refine .ite (by rw [Expr.isCall_of_seen he]) ?_ echoes_failAt
  refine (hg.body _ _).bind_value fun body body' hbody => .pure_value ?_
  obtain ⟨hparams, hdefaults⟩ := Signature.mk.inj hsig
  rw [Stmt.seen_callBlock, Stmt.seen_callBlock, he, hparams, hdefaults, hbody, Token.line_of_seen ht]

theorem echoes_filterBlock : EchoesTag lines n (parseFilterBlock g) := by
  refine echoes_advance.bind_value fun t t' ht => ?_
  refine (echoes_filters hg.toEchoed).bind_value fun filter filter' h => ?_
  refine (hg.body _ _).bind_value fun body body' hbody => .pure_value ?_
  rw [Stmt.seen_filterBlock, Stmt.seen_filterBlock, h, hbody, Token.line_of_seen ht]

/-! ### All tags -/

/-- **The tags of every environment.** -/
theorem echoes_builtin {p : Parser Stmt} (h : builtin? g tag = some p) : EchoesTag lines n p := by
  have hexit {make : Nat → Stmt}
      (hmake : ∀ line, (make line).seen lines = make (seenLine lines line)) :
      EchoesTag lines n (do return make (← advance).line) :=
    echoes_advance.bind_value fun t t' ht => .pure_value (by rw [hmake, hmake, Token.line_of_seen ht])
  unfold builtin? at h
  split at h
  case h_1 => exact Option.some.inj h ▸ echoes_for hg
  case h_2 => exact Option.some.inj h ▸ echoes_if hg
  case h_3 => exact Option.some.inj h ▸ echoes_unless hg
  case h_4 => exact Option.some.inj h ▸ hexit Stmt.seen_breakLoop
  case h_5 => exact Option.some.inj h ▸ hexit Stmt.seen_continueLoop
  case h_6 => exact Option.some.inj h ▸ echoes_block hg
  case h_7 => exact Option.some.inj h ▸ echoes_extends hg
  case h_8 => exact Option.some.inj h ▸ echoes_print hg
  case h_9 => exact Option.some.inj h ▸ echoes_macroBlock hg
  case h_10 => exact Option.some.inj h ▸ echoes_inclusion hg fun e i w line =>
    Stmt.seen_includeTemplate line e i w
  case h_11 => exact Option.some.inj h ▸ echoes_inclusion hg fun e i w line =>
    Stmt.seen_sectionTemplate line e i w
  case h_12 => exact Option.some.inj h ▸ echoes_from hg
  case h_13 => exact Option.some.inj h ▸ echoes_import hg
  case h_14 => exact Option.some.inj h ▸ echoes_set hg _
  case h_15 => exact Option.some.inj h ▸ echoes_set hg _
  case h_16 => exact Option.some.inj h ▸ echoes_set hg _
  case h_17 => exact Option.some.inj h ▸ echoes_with hg
  case h_18 => exact Option.some.inj h ▸ echoes_autoescape hg
  case h_19 => exact Option.some.inj h ▸ echoes_callBlock hg
  case h_20 => exact Option.some.inj h ▸ echoes_filterBlock hg
  case h_21 => nomatch h

end Tags

end LiquidTemplate
