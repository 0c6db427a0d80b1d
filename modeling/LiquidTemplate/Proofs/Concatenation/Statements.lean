import LiquidTemplate.Proofs.Concatenation.Expressions

/-!
# Statements before another sequel

The statements of a body are read the same before another sequel, with the made-up names that belong
there. What a body holds before the statements that are read stays in front of them.

Every tag is read the same before another sequel. Only case distinctions make up names, which have
higher numbers where more names have been made up before.

* `Expr.Plain.of_took`, `Carries.plain`: expressions that are read have no made-up names.
* `PartialBody.behind`: a body as far as it has been read, behind other statements.
* `carries_bodyPart`, `carries_statements`: the parts of a body, and the body of a statement.
* `Grammar.ContinuesAll`: a grammar whose statements another one reads before another sequel.
* `carries_builtin`: the tags of every environment.
* `carries_known`: the tags of the known extensions.
* `Environment.Local`: extensions to which nothing counts but the tokens that they read.
* `carries_statement`: any tag.
* `continuesAll_below`, `carries_grammarStatement`: the grammars of an environment.
-/

namespace LiquidTemplate

open LiquidTemplate.Parser LiquidTemplate.Grammar

variable {x : Sequel} {g g' : Grammar} {f : String → String} {s t : ParserState} {e : Expr}
  {env : Environment} {tag : String}

/-! ### Expressions in statements -/

/-- **What is taken of the tokens** has no made-up names. -/
theorem Expr.Plain.of_took {ps : List Piece} (h : s.Took t ps) (he : .expr e ∈ ps) : e.Plain :=
  (Expr.fit_of_took (List.suffix_refl _) h he none).plain

/-- **What has no made-up names** is renamed as it is. -/
theorem Parser.Carries.plain {p p' : Parser Expr} (h : Carries x id p p')
    (hplain : ∀ s e t, p s = .ok e t → e.Plain) : Carries x (Expr.renamed x.names) p p' :=
  h.value fun s e t he => ((hplain s e t he).renamed _).symm

section Expressions

variable (hg : g.Continues x g') (hforming : g.Forming)
include hg hforming

theorem renamed_expression (conditional filters : Bool) :
    Carries x (Expr.renamed x.names) (parseExpression g conditional filters)
      (parseExpression g' conditional filters) :=
  (carries_expression hg conditional filters).plain fun _ _ _ h =>
    .of_took (took_expression hforming conditional filters h) List.mem_cons_self

theorem renamed_tuple (item : TupleItem) (ends : List TokenRule) :
    Carries x (Expr.renamed x.names) (parseTuple g item ends false) (parseTuple g' item ends false) :=
  (carries_tuple hg item ends false).plain fun _ _ _ h =>
    .of_took (took_fullTuple hforming h) List.mem_cons_self

theorem renamed_target (withTuple : Bool) (ends : List TokenRule) :
    Carries x (Expr.renamed x.names) (parseTarget g withTuple ends) (parseTarget g' withTuple ends) :=
  (carries_target hg withTuple ends).plain fun _ _ _ h =>
    .of_took (took_target hforming h) List.mem_cons_self

end Expressions

/-! ### Bodies as far as they have been read -/

namespace PartialBody

/-- **A body behind other statements**, with other made-up names. -/
def behind (front : List Stmt) (f : String → String) (b : PartialBody) : PartialBody :=
  ⟨front ++ b.stmts.map (Stmt.renamed f), b.pending.map (Expr.renamed f)⟩

variable (front : List Stmt) (f : String → String) (b : PartialBody)

theorem behind_flush : b.flush.behind front f = (b.behind front f).flush := by
  obtain ⟨stmts, pending⟩ := b
  cases pending with
  | nil => rfl
  | cons e es => simp [behind, flush, Stmt.renamed]

theorem behind_addOutput (e : Expr) :
    (b.addOutput e).behind front f = (b.behind front f).addOutput (e.renamed f) := by
  simp [behind, addOutput]

theorem behind_addText (data : String) (line : Nat) :
    (b.addText data line).behind front f = (b.behind front f).addText data line := by
  unfold addText
  split
  · rfl
  · exact b.behind_addOutput front f (.templateData data line)

theorem behind_addStatements (ss : List Stmt) : (b.addStatements ss).behind front f =
    (b.behind front f).addStatements (ss.map (Stmt.renamed f)) := by
  simp [behind, addStatements]

theorem stmts_behind_flush :
    (b.behind front f).flush.stmts = front ++ b.flush.stmts.map (Stmt.renamed f) :=
  congrArg stmts (b.behind_flush front f).symm

end PartialBody

/-! ### Bodies -/

/-- What a tag stands for, with other made-up names. -/
def Expansion.renamed (f : String → String) : Expansion → Expansion
  | single stmt => single (stmt.renamed f)
  | multiple stmts => multiple (stmts.map (Stmt.renamed f))

theorem Expansion.toList_renamed (f : String → String) (y : Expansion) :
    (y.renamed f).toList = y.toList.map (Stmt.renamed f) := by
  cases y <;> rfl

section Bodies

variable (hg : g.Continues x g') (hforming : g.Forming)
  (hstatement : Carries x (Expansion.renamed x.names) g.statement g'.statement)
include hg hforming hstatement

/-- **Parts of a body.** -/
theorem carries_bodyPart (front : List Stmt) (ends : List TokenRule) (b : PartialBody) :
    Carries x
      (Sum.map (PartialBody.behind front x.names) fun ss => front ++ ss.map (Stmt.renamed x.names))
      (parseBodyPart g ends b) (parseBodyPart g' ends (b.behind front x.names)) := by
  have houtput : Carries x (Expr.renamed x.names) (parseOutput g) (parseOutput g') :=
    (renamed_tuple hg hforming _ _).bind_value fun _ => (carries_expect _).bind fun _ =>
      .pure_value rfl
  have hclosed : Carries x (List.map (Stmt.renamed x.names)) (parseClosedStatement g)
      (parseClosedStatement g') :=
    hstatement.bind_value fun y => (carries_expect _).bind fun _ =>
      .pure_value (y.toList_renamed _).symm
  refine carries_current.bind fun t => ?_
  split
  · exact .pure_value (congrArg Sum.inr (b.stmts_behind_flush _ _).symm)
  · exact carries_step.bind fun _ => .pure_value (congrArg Sum.inl (b.behind_addText _ _ _ _))
  · exact carries_step.bind fun _ => houtput.bind_value fun e =>
      .pure_value (congrArg Sum.inl (b.behind_addOutput _ _ e))
  · refine carries_step.bind fun _ => carries_current.bind fun _ => .ite ?_ ?_
    · exact .pure_value (congrArg Sum.inr (b.stmts_behind_flush _ _).symm)
    · refine hclosed.bind_value fun ss => .pure_value (congrArg Sum.inl ?_)
      rw [← b.behind_flush, b.flush.behind_addStatements]
  · exact carries_failAt

/-- **Bodies.** -/
theorem carries_body (ends : Option (List TokenRule)) :
    Carries x (List.map (Stmt.renamed x.names)) (parseBody g ends) (parseBody g' ends) := by
  have hparts (rules : List TokenRule) : Carries x (List.map (Stmt.renamed x.names))
      (repeatFrom (parseBodyPart g rules) {}) (repeatFrom (parseBodyPart g' rules) {}) :=
    .loop_value (carries_bodyPart hg hforming hstatement [] rules) {}
  cases ends with
  | none => exact hparts []
  | some rules => exact (hparts rules).awaiting rules

/-- **The body of a statement.** -/
theorem carries_statements (ends : List TokenRule) (consume : Bool) :
    Carries x (List.map (Stmt.renamed x.names)) (parseStatements g ends consume)
      (parseStatements g' ends consume) := by
  refine (carries_skipIf _).bind fun _ => (carries_expect _).bind fun _ => ?_
  refine (carries_body hg hforming hstatement _).bind_value fun body => carries_current.bind fun _ => ?_
  refine .ite (fun _ _ _ h => nomatch h) (.ite (carries_step.bind fun _ => .pure_value rfl) ?_)
  exact .pure_value rfl

end Bodies

/-! ### Grammars -/

/-- **The second grammar goes on as the first one** with all statements and their bodies. -/
structure Grammar.ContinuesAll (x : Sequel) (g g' : Grammar) : Prop extends Continues x g g' where
  forming : g.Forming
  statement : Carries x (Expansion.renamed x.names) g.statement g'.statement
  branch : ∀ line tag, Carries x (Stmt.renamed x.names) (g.branch line tag) (g'.branch line tag)
  body : ∀ ends consume, Carries x (List.map (Stmt.renamed x.names))
    (parseStatements g ends consume) (parseStatements g' ends consume)

namespace Grammar.ContinuesAll

variable (hg : g.ContinuesAll x g')
include hg

theorem expr (conditional filters : Bool) : Carries x (Expr.renamed x.names)
    (parseExpression g conditional filters) (parseExpression g' conditional filters) :=
  renamed_expression hg.toContinues hg.forming conditional filters

theorem tuple (item : TupleItem) (ends : List TokenRule) : Carries x (Expr.renamed x.names)
    (parseTuple g item ends false) (parseTuple g' item ends false) :=
  renamed_tuple hg.toContinues hg.forming item ends

theorem target (withTuple : Bool) (ends : List TokenRule) : Carries x (Expr.renamed x.names)
    (parseTarget g withTuple ends) (parseTarget g' withTuple ends) :=
  renamed_target hg.toContinues hg.forming withTuple ends

end Grammar.ContinuesAll

/-! ### Conditions and loops -/

theorem carries_branch (hg : g.ContinuesAll x g') (line : Nat) (tag : String) (negate : Bool) :
    Carries x (Stmt.renamed x.names) (parseBranch g line tag negate)
      (parseBranch g' line tag negate) := by
  have halternatives : Carries x (List.map (Stmt.renamed x.names)) (parseAlternatives g tag)
      (parseAlternatives g' tag) := by
    refine carries_advance.bind fun _ => .ite ?_ (.ite (hg.body _ _) (.pure_value rfl))
    exact carries_current.bind fun _ => (hg.branch _ _).bind_value fun _ => .pure_value rfl
  refine (hg.tuple _ _).bind_value fun e => (hg.body _ _).bind_value fun body => ?_
  refine halternatives.bind_value fun otherwise => .pure_value ?_
  cases negate <;> simp [Stmt.renamed, Expr.renamed]

theorem carries_if (hg : g.ContinuesAll x g') :
    Carries x (Stmt.renamed x.names) (parseIf g) (parseIf g') :=
  (carries_expect _).bind fun _ => carries_branch hg _ _ _

theorem carries_unless (hg : g.ContinuesAll x g') :
    Carries x (Stmt.renamed x.names) (parseUnless g) (parseUnless g') :=
  (carries_expect _).bind fun _ => carries_branch hg _ _ _

theorem carries_iterable (hg : g.ContinuesAll x g') :
    Carries x (Expr.renamed x.names) (parseIterable g) (parseIterable g') := by
  have hvalue : Carries x id (parseModifierValue g) (parseModifierValue g') :=
    (carries_expect _).bind fun _ => hg.expression true true
  have hmodifiers : Carries x id (parseModifiers g) (parseModifiers g') := by
    refine .loop (fun _ => ?_) _
    refine (carries_skipIf _).bind fun _ => .ite .pure <| (carries_skipIf _).bind fun _ => ?_
    refine .ite (hvalue.bind fun _ => .pure) <| (carries_skipIf _).bind fun _ => ?_
    exact .ite (hvalue.bind fun _ => .pure) .pure
  have hsame : Carries x id (parseIterable g) (parseIterable g') :=
    (carries_tuple hg.toContinues _ _ _).bind fun _ => hmodifiers.bind fun _ => .pure
  exact hsame.plain fun _ _ _ h => (before_iterable hg.forming (List.suffix_refl _) h).2.plain

theorem carries_for (hg : g.ContinuesAll x g') :
    Carries x (Stmt.renamed x.names) (parseFor g) (parseFor g') := by
  have htest : Carries x (Option.map (Expr.renamed x.names)) (parseLoopTest? g) (parseLoopTest? g') :=
    (carries_skipIf _).bind fun _ =>
      .ite ((hg.expr _ _).bind_value fun _ => .pure_value rfl) (.pure_value rfl)
  have helse : Carries x (List.map (Stmt.renamed x.names)) (parseLoopElse g) (parseLoopElse g') :=
    carries_advance.bind fun _ => .ite (.pure_value rfl) (hg.body _ _)
  refine (carries_expect _).bind fun _ => (hg.target _ _).bind_value fun _ => ?_
  refine (carries_expect _).bind fun _ => (carries_iterable hg).bind_value fun _ => ?_
  refine htest.bind_value fun _ => (carries_skipIf _).bind fun _ => ?_
  refine (hg.body _ _).bind_value fun _ => helse.bind_value fun _ => .pure_value ?_
  simp [Stmt.renamed]

/-! ### Output and assignments -/

theorem carries_print (hg : g.ContinuesAll x g') :
    Carries x (Stmt.renamed x.names) (parsePrint g) (parsePrint g') := by
  have hprinted : Carries x (List.map (Expr.renamed x.names)) (parsePrinted g) (parsePrinted g') := by
    refine .loop_value (r := List.map (Expr.renamed x.names)) (fun nodes => ?_) []
    rw [parseNextPrinted, parseNextPrinted, List.isEmpty_map]
    refine (carries_atMark _).bind fun _ => .ite (.pure_value rfl) ?_
    refine (carries_separator _).bind fun _ => (hg.expr _ _).bind_value fun e => .pure_value ?_
    simp
  exact carries_advance.bind fun _ => hprinted.bind_value fun _ => .pure_value rfl

theorem carries_set (hg : g.ContinuesAll x g') (tag : String) :
    Carries x (Stmt.renamed x.names) (parseSet g tag) (parseSet g' tag) := by
  refine carries_advance.bind fun _ => (hg.target _ _).bind_value fun _ => ?_
  refine (carries_skipIf _).bind fun _ => .ite ?_ ?_
  · exact (hg.tuple _ _).bind_value fun _ => .pure_value rfl
  · exact (hg.body _ _).bind_value fun _ => .pure_value (by simp [Stmt.renamed])

theorem carries_with (hg : g.ContinuesAll x g') :
    Carries x (Stmt.renamed x.names) (parseWith g) (parseWith g') := by
  have hbindings : Carries x id (parseBindings g) (parseBindings g') := by
    refine .loop (fun _ => ?_) _
    refine (carries_atMark _).bind fun _ => .ite .pure <| (carries_separator _).bind fun _ => ?_
    refine (carries_target hg.toContinues _ _).bind fun _ => (carries_expect _).bind fun _ => ?_
    exact (carries_expression hg.toContinues _ _).bind fun _ => .pure
  have hrenamed : Carries x (List.map fun b : Expr × Expr => (b.1.renamed x.names, b.2.renamed x.names))
      (parseBindings g) (parseBindings g') := by
    refine hbindings.value fun s bs t h => ?_
    obtain ⟨-, hbs⟩ := before_bindings hg.forming (List.suffix_refl _) h
    refine ((List.map_congr_left fun b hb => ?_).trans (List.map_id _)).symm
    rw [(hbs b hb).1.plain.renamed, (hbs b hb).2.plain.renamed]
    rfl
  refine carries_advance.bind fun _ => hrenamed.bind_value fun _ => (hg.body _ _).bind_value fun _ => ?_
  exact .pure_value (by simp [Stmt.renamed])

theorem carries_autoescape (hg : g.ContinuesAll x g') :
    Carries x (Stmt.renamed x.names) (parseAutoescape g) (parseAutoescape g') :=
  carries_advance.bind fun _ => (hg.expr _ _).bind_value fun _ => (hg.body _ _).bind_value fun _ =>
    .pure_value (by simp [Stmt.renamed])

/-! ### Other templates -/

theorem carries_context : Carries x id parseContext? parseContext? := by
  refine carries_current.bind fun _ => carries_look fun after after' hafter => ?_
  rw [isName_eq_of_alike hafter]
  exact .ite (carries_skip_two.bind fun _ => .pure) .pure

theorem carries_ignoreMissing : Carries x id parseIgnoreMissing parseIgnoreMissing := by
  refine carries_current.bind fun _ => carries_look fun after after' hafter => ?_
  rw [isName_eq_of_alike hafter]
  exact .ite (carries_skip_two.bind fun _ => .pure) .pure

theorem carries_extends (hg : g.ContinuesAll x g') :
    Carries x (Stmt.renamed x.names) (parseExtends g) (parseExtends g') :=
  carries_advance.bind fun _ => (hg.expr _ _).bind_value fun _ => .pure_value rfl

theorem carries_inclusion (hg : g.ContinuesAll x g') {make : Expr → Bool → Bool → Nat → Stmt}
    (hmake : ∀ e ignoring withContext line, (make e ignoring withContext line).renamed x.names =
      make (e.renamed x.names) ignoring withContext line) :
    Carries x (Stmt.renamed x.names) (parseInclusion g make) (parseInclusion g' make) :=
  carries_advance.bind fun _ => (hg.expr _ _).bind_value fun _ => carries_ignoreMissing.bind fun _ =>
    carries_context.bind fun _ => .pure_value (hmake _ _ _ _)

theorem carries_import (hg : g.ContinuesAll x g') :
    Carries x (Stmt.renamed x.names) (parseImport g) (parseImport g') :=
  carries_advance.bind fun _ => (hg.expr _ _).bind_value fun _ => (carries_expect _).bind fun _ =>
    carries_targetName.bind fun _ => carries_context.bind fun _ => .pure_value rfl

theorem carries_importNames : Carries x id parseImportNames parseImportNames := by
  have halias : Carries x id parseAlias? parseAlias? := (carries_skipIf _).bind fun _ =>
    .ite (carries_targetName.bind fun _ => .pure) .pure
  have hname : Carries x id parseImportName parseImportName :=
    carries_targetName.bind fun _ => .ite carries_failAt (halias.bind fun _ => .pure)
  have hend (names : List ImportName) : Carries x id (parseImportEnd names) (parseImportEnd names) := by
    refine carries_context.bind fun context => ?_
    cases context with
    | some _ => exact .pure
    | none => exact (carries_atSymbol _).bind fun _ => .ite .pure .pure
  refine .loop (fun names => ?_) _
  refine (carries_separator _).bind fun _ => carries_current.bind fun _ => .ite .pure ?_
  refine carries_context.bind fun context => ?_
  cases context with
  | some _ => exact .pure
  | none => exact hname.bind fun _ => hend _

theorem carries_from (hg : g.ContinuesAll x g') :
    Carries x (Stmt.renamed x.names) (parseFrom g) (parseFrom g') := by
  refine carries_advance.bind fun _ => (hg.expr _ _).bind_value fun _ => ?_
  refine (carries_expect _).bind fun _ => carries_importNames.bind fun y => ?_
  obtain ⟨names, context⟩ := y
  cases context with
  | some _ => exact .pure_value rfl
  | none => exact (carries_skipIf _).bind fun _ => .pure_value rfl

/-! ### Definitions and calls -/

/-- A signature with other made-up names. -/
def Grammar.Signature.renamed (f : String → String) (sig : Signature) : Signature :=
  ⟨sig.params.map (Expr.renamed f), sig.defaults.map (Expr.renamed f)⟩

theorem carries_signature (hg : g.ContinuesAll x g') :
    Carries x (Signature.renamed x.names) (parseSignature g) (parseSignature g') := by
  have hparameter (sig : Signature) : Carries x id (parseParameter g sig) (parseParameter g' sig) := by
    refine carries_targetName.bind fun _ => (carries_skipIf _).bind fun _ => .ite ?_ ?_
    · exact (carries_expression hg.toContinues _ _).bind fun _ => .pure
    · exact .ite .pure carries_fail
  have hparameters : Carries x id (parseParameters g) (parseParameters g') := by
    refine .loop (fun _ => ?_) _
    refine (carries_atSymbol _).bind fun _ => .ite .pure <| (carries_separator _).bind fun _ => ?_
    exact (hparameter _).bind fun _ => .pure
  have hsame : Carries x id (parseSignature g) (parseSignature g') :=
    (carries_expect _).bind fun _ => hparameters.bind fun _ => (carries_expect _).bind fun _ => .pure
  refine hsame.value fun s sig t h => ?_
  obtain ⟨-, hfit⟩ := before_signature hg.forming (List.suffix_refl _) h
  obtain ⟨hparams, hdefaults⟩ := List.forall_mem_append.1 hfit
  have hkept {es : List Expr} (hes : ∀ e ∈ es, e.Fit s.stream.tokens none) :
      es.map (Expr.renamed x.names) = es :=
    Expr.map_renamed_eq_self fun e he => (hes e he).plain.renamed _
  show sig = ⟨_, _⟩
  rw [hkept hparams, hkept hdefaults]

theorem carries_block (hg : g.ContinuesAll x g') :
    Carries x (Stmt.renamed x.names) (parseBlock g) (parseBlock g') := by
  have hhyphen : Carries x id refuseHyphen refuseHyphen :=
    (carries_atSymbol _).bind fun _ => .ite carries_fail .pure
  refine carries_advance.bind fun _ => (carries_expect _).bind fun _ =>
    (carries_skipIf _).bind fun _ => ?_
  refine hhyphen.bind fun _ => (hg.body _ _).bind_value fun _ => (carries_skipIf _).bind fun _ => ?_
  exact .pure_value (by simp [Stmt.renamed])

theorem carries_macroBlock (hg : g.ContinuesAll x g') :
    Carries x (Stmt.renamed x.names) (parseMacro g) (parseMacro g') :=
  carries_advance.bind fun _ => carries_targetName.bind fun _ =>
    (carries_signature hg).bind_value fun _ => (hg.body _ _).bind_value fun _ =>
      .pure_value (by simp [Stmt.renamed, Signature.renamed])

theorem carries_callBlock (hg : g.ContinuesAll x g') :
    Carries x (Stmt.renamed x.names) (parseCallBlock g) (parseCallBlock g') := by
  have hsignature : Carries x (Signature.renamed x.names) (parseOptionalSignature g)
      (parseOptionalSignature g') :=
    (carries_atSymbol _).bind fun _ => .ite (carries_signature hg) (.pure_value rfl)
  have hcall (e : Expr) : isCall (e.renamed x.names) = isCall e := by
    cases e <;> rfl
  refine carries_advance.bind fun _ => hsignature.bind_value fun sig => ?_
  refine (hg.expr _ _).bind_value fun e => ?_
  rw [hcall]
  refine .ite ((hg.body _ _).bind_value fun _ => .pure_value ?_) carries_failAt
  simp [Stmt.renamed, Signature.renamed]

theorem carries_filterBlock (hg : g.ContinuesAll x g') :
    Carries x (Stmt.renamed x.names) (parseFilterBlock g) (parseFilterBlock g') := by
  have hfilter : Carries x (Expr.renamed x.names) (parseFilters g none true)
      (parseFilters g' none true) := by
    refine (carries_filters hg.toContinues none true).plain fun s e t h => ?_
    have htook := took_filters (s := s) hg.forming (by simp) (fun _ => rfl)
      ⟨fun _ => rfl, fun _ => rfl⟩ h
    exact .of_took htook List.mem_cons_self
  exact carries_advance.bind fun _ => hfilter.bind_value fun _ => (hg.body _ _).bind_value fun _ =>
    .pure_value (by simp [Stmt.renamed])

/-! ### All tags -/

/-- **The tags of every environment.** -/
theorem carries_builtin (hg : g.ContinuesAll x g') (tag : String) :
    Option.Rel (Carries x (Stmt.renamed x.names)) (builtin? g tag) (builtin? g' tag) := by
  have hexit {make : Nat → Stmt} (hmake : ∀ line, (make line).renamed x.names = make line) :
      Carries x (Stmt.renamed x.names) (do return make (← advance).line)
        (do return make (← advance).line) :=
    carries_advance.bind fun _ => .pure_value (hmake _)
  unfold builtin?
  split
  case h_1 => exact .some (carries_for hg)
  case h_2 => exact .some (carries_if hg)
  case h_3 => exact .some (carries_unless hg)
  case h_4 => exact .some (hexit fun _ => rfl)
  case h_5 => exact .some (hexit fun _ => rfl)
  case h_6 => exact .some (carries_block hg)
  case h_7 => exact .some (carries_extends hg)
  case h_8 => exact .some (carries_print hg)
  case h_9 => exact .some (carries_macroBlock hg)
  case h_10 => exact .some (carries_inclusion hg fun _ _ _ _ => rfl)
  case h_11 => exact .some (carries_inclusion hg fun _ _ _ _ => rfl)
  case h_12 => exact .some (carries_from hg)
  case h_13 => exact .some (carries_import hg)
  case h_14 => exact .some (carries_set hg _)
  case h_15 => exact .some (carries_set hg _)
  case h_16 => exact .some (carries_set hg _)
  case h_17 => exact .some (carries_with hg)
  case h_18 => exact .some (carries_autoescape hg)
  case h_19 => exact .some (carries_callBlock hg)
  case h_20 => exact .some (carries_filterBlock hg)
  case h_21 => exact .none

theorem carries_do (hg : g.ContinuesAll x g') :
    Carries x (Expansion.renamed x.names) (parseDo g) (parseDo g') :=
  carries_advance.bind fun _ => (hg.tuple _ _).bind_value fun _ => .pure_value rfl

theorem carries_shout (hg : g.ContinuesAll x g') :
    Carries x (Expansion.renamed x.names) (parseShout g) (parseShout g') :=
  carries_advance.bind fun _ => (hg.expr _ _).bind_value fun _ => .pure_value rfl

/-- **Case distinctions.** -/
theorem carries_case (hg : g.ContinuesAll x g') :
    Carries x (Expansion.renamed x.names) (parseCase g) (parseCase g') := by
  have hsame : Carries x id (parseWhenValues g) (parseWhenValues g') := by
    refine .loop (fun _ => ?_) _
    exact (carries_expression hg.toContinues _ _).bind fun _ => (carries_skipIf _).bind fun _ =>
      .ite .pure .pure
  have hvalues : Carries x (List.map (Expr.renamed x.names)) (parseWhenValues g)
      (parseWhenValues g') := by
    refine hsame.value fun s values t h => (Expr.map_renamed_eq_self fun e he => ?_).symm
    obtain ⟨es, hread, rfl⟩ := whenValues_of_ok h
    obtain ⟨-, -, hes⟩ := fit_whenValues hg.forming (List.suffix_refl _) hread
    obtain ⟨d, hd, he⟩ := List.mem_flatMap.1 he
    exact ((hes d hd).alternatives e he).plain.renamed _
  have hbranch (line : Nat) :
      Carries x (CaseBranch.renamed x.names) (parseCaseBranch g line) (parseCaseBranch g' line) :=
    hvalues.bind_value fun _ => (hg.body _ _).bind_value fun _ => .pure_value rfl
  let renamed : List CaseBranch × List Stmt → List CaseBranch × List Stmt :=
    Prod.map (List.map (CaseBranch.renamed x.names)) (List.map (Stmt.renamed x.names))
  have hbranches : Carries x renamed (parseCaseBranches g) (parseCaseBranches g') := by
    refine .loop_value (r := renamed) (fun y => ?_) ([], [])
    refine carries_advance.bind fun _ => .ite ?_ (.ite ?_ ?_)
    · exact (hbranch _).bind_value fun b => .pure_value (by simp [renamed])
    · exact (hg.body _ _).bind_value fun _ => .pure_value rfl
    · exact .pure_value rfl
  refine carries_advance.bind fun _ => (hg.expr _ _).bind_value fun _ => ?_
  refine carries_freshName _ fun name => (hg.body _ _).bind_value fun _ => ?_
  refine hbranches.bind_value fun y => .pure_value ?_
  show Expansion.multiple (_ :: (caseChain name y.1 y.2).map (Stmt.renamed x.names)) = _
  rw [Stmt.renamed_caseChain]
  rfl

/-- **The tags of known extensions.** -/
theorem carries_known (hg : g.ContinuesAll x g') {y : Extension} (hy : y.Known) :
    Carries x (Expansion.renamed x.names) (y.parse g) (y.parse g') := by
  cases hy with
  | doExpr => exact carries_do hg
  | case => exact carries_case hg
  | shout _ => exact carries_shout hg

/-- **Local extensions**, to which nothing counts but the tokens that they read: before another sequel,
and with more names made up before, they read the same as long as the statements and the expressions
of the grammar are read the same, but for the numbers of the names that are made up. -/
def Environment.Local (env : Environment) : Prop :=
  ∀ y ∈ env.extensions, ∀ (x : Sequel) (g g' : Grammar), g.ContinuesAll x g' →
    Carries x (Expansion.renamed x.names) (y.parse g) (y.parse g')

/-- **Known extensions** are local. -/
theorem Environment.Local.of_known (henv : ∀ y ∈ env.extensions, y.Known) : env.Local :=
  fun y hy _ _ _ hg => carries_known hg (henv y hy)

theorem carries_tag (henv : env.Local) (hg : g.ContinuesAll x g') (tag : String) :
    Option.Rel (Carries x (Expansion.renamed x.names)) (tag? env g tag) (tag? env g' tag) := by
  have hbuiltin := carries_builtin hg tag
  unfold tag?
  generalize builtin? g tag = o at hbuiltin
  generalize builtin? g' tag = o' at hbuiltin
  cases hbuiltin with
  | some h => exact .some (h.map fun _ => rfl)
  | none =>
    cases hextension : env.extension? tag with
    | none => exact .none
    | some y => exact .some (henv y (Environment.extension?_mem hextension).1 x g g' hg)

/-- **Any statement.** -/
theorem carries_statement (henv : env.Local) (hg : g.ContinuesAll x g') :
    Carries x (Expansion.renamed x.names) (parseStatement env g) (parseStatement env g') := by
  refine carries_current.bind fun t => ?_
  cases t.name? with
  | none => exact carries_failAt
  | some tag =>
    have htag := carries_tag henv hg tag
    dsimp only
    generalize tag? env g tag = o at htag
    generalize tag? env g' tag = o' at htag
    cases htag with
    | some h => exact h.inTag tag
    | none => exact fun _ _ _ h => nomatch h

/-! ### Grammars -/

section Grammars

variable {m n : Nat}

/-- **The bounded grammars**, since their references are to those of smaller bounds. -/
theorem continuesAll_below (henv : env.Local) (hroom : m + x.extra ≤ n) :
    (below env m).ContinuesAll x (below env n) := by
  induction m using Nat.strongRecOn generalizing n with
  | _ m ih =>
    have hcontinues := continues_below env hroom
    have hstatement : Carries x (Expansion.renamed x.names) (below env m).statement
        (below env n).statement := by
      rw [below_statement, below_statement]
      exact carries_guarded hroom fun i j hi hj => carries_statement henv (ih i hi hj)
    refine { hcontinues with forming := forming_below env m, statement := hstatement, branch := ?_,
                             body := ?_ }
    · intro line tag
      rw [below_branch, below_branch]
      exact carries_guarded hroom fun i j hi hj => carries_branch (ih i hi hj) line tag false
    · exact carries_statements hcontinues (forming_below env m) hstatement

/-- **The statements of the grammar of an environment.** -/
theorem carries_grammarStatement (henv : env.Local) (x : Sequel) :
    Carries x (Expansion.renamed x.names) env.grammar.statement env.grammar.statement :=
  carries_weighed fun _ _ hj => carries_statement henv (continuesAll_below henv hj)

end Grammars

end LiquidTemplate
