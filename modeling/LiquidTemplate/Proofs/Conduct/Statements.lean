import LiquidTemplate.Proofs.Conduct.Expressions
import LiquidTemplate.Proofs.Texts.Grammars

/-!
# Conduct of statements

Every tag obeys the rules of conduct that the expressions and the bodies of statements obey. The bounded
grammars obey them if range literals and bodies do: their references are to those of smaller bounds. So
does the grammar of an environment.

* `Grammar.Orderly`: a grammar whose expressions, statements and bodies obey the rules.
* `obeys_builtin`: the tags of every environment.
* `obeys_known`: the tags of the known extensions.
* `Conduct.ObeyedByExtensions`: extensions that obey the rules where the grammar does.
* `obeys_statement`: any tag.
* `obeys_guarded`: a reference to a smaller bound.
* `minds_below`, `minds_grammar`: expressions, from range literals.
* `orderly_below`, `orderly_grammar`: statements, from bodies.
-/

namespace LiquidTemplate

open LiquidTemplate.Parser LiquidTemplate.Grammar

variable {c : Conduct} {g : Grammar} {env : Environment} {tag : String}

/-- **Statements that obey the rules**: all those of a grammar, and their bodies. -/
structure Grammar.Orderly (c : Conduct) (g : Grammar) : Prop extends Minds c g where
  statement : Obeys c g.statement
  branch : ∀ line tag, Obeys c (g.branch line tag)
  body : ∀ ends consume, Obeys c (parseStatements g ends consume)

/-! ### Conditions and loops -/

theorem obeys_branch (hg : g.Orderly c) (line : Nat) (tag : String) (negate : Bool) :
    Obeys c (parseBranch g line tag negate) := by
  have halternatives : Obeys c (parseAlternatives g tag) := by
    refine obeys_advance.bind fun _ => .ite ?_ (.ite (hg.body _ _) .pure)
    exact obeys_current.bind fun _ => (hg.branch _ _).bind fun _ => .pure
  exact (obeys_tuple hg.toMinds _ _ _).bind fun _ => (hg.body _ _).bind fun _ =>
    halternatives.bind fun _ => .pure

theorem obeys_if (hg : g.Orderly c) : Obeys c (parseIf g) :=
  (obeys_expect _).bind fun _ => obeys_branch hg _ _ _

theorem obeys_unless (hg : g.Orderly c) : Obeys c (parseUnless g) :=
  (obeys_expect _).bind fun _ => obeys_branch hg _ _ _

theorem obeys_iterable (hg : g.Minds c) : Obeys c (parseIterable g) := by
  have hvalue : Obeys c (parseModifierValue g) :=
    (obeys_expect _).bind fun _ => hg.expression true true
  have hmodifiers : Obeys c (parseModifiers g) := by
    refine .loop (fun _ => ?_) _
    refine (obeys_skipIf _).bind fun _ => .ite .pure <| (obeys_skipIf _).bind fun _ => ?_
    refine .ite (hvalue.bind fun _ => .pure) <| (obeys_skipIf _).bind fun _ => ?_
    exact .ite (hvalue.bind fun _ => .pure) .pure
  exact (obeys_tuple hg _ _ _).bind fun _ => hmodifiers.bind fun _ => .pure

theorem obeys_loopTest (hg : g.Minds c) : Obeys c (parseLoopTest? g) :=
  (obeys_skipIf _).bind fun _ => .ite ((obeys_expression hg _ _).bind fun _ => .pure) .pure

theorem obeys_for (hg : g.Orderly c) : Obeys c (parseFor g) := by
  have helse : Obeys c (parseLoopElse g) := obeys_advance.bind fun _ => .ite .pure (hg.body _ _)
  refine (obeys_expect _).bind fun _ => (obeys_target hg.toMinds _ _).bind fun _ => ?_
  refine (obeys_expect _).bind fun _ => (obeys_iterable hg.toMinds).bind fun _ => ?_
  refine (obeys_loopTest hg.toMinds).bind fun _ => (obeys_skipIf _).bind fun _ => ?_
  refine (hg.body _ _).bind fun _ => ?_
  exact helse.bind fun _ => .pure

/-! ### Output and assignments -/

theorem obeys_print (hg : g.Minds c) : Obeys c (parsePrint g) := by
  have hprinted : Obeys c (parsePrinted g) := by
    refine .loop (fun _ => ?_) _
    refine (obeys_atMark _).bind fun _ => .ite .pure <| (obeys_separator _).bind fun _ => ?_
    exact (obeys_expression hg _ _).bind fun _ => .pure
  exact obeys_advance.bind fun _ => hprinted.bind fun _ => .pure

theorem obeys_set (hg : g.Orderly c) (tag : String) : Obeys c (parseSet g tag) := by
  refine obeys_advance.bind fun _ => (obeys_target hg.toMinds _ _).bind fun _ => ?_
  refine (obeys_skipIf _).bind fun _ => .ite ?_ ?_
  · exact (obeys_anyTuple hg.toMinds).bind fun _ => .pure
  · exact (hg.body _ _).bind fun _ => .pure

theorem obeys_bindings (hg : g.Minds c) : Obeys c (parseBindings g) := by
  refine .loop (fun _ => ?_) _
  refine (obeys_atMark _).bind fun _ => .ite .pure <| (obeys_separator _).bind fun _ => ?_
  refine (obeys_target hg _ _).bind fun _ => (obeys_expect _).bind fun _ => ?_
  exact (obeys_expression hg _ _).bind fun _ => .pure

theorem obeys_with (hg : g.Orderly c) : Obeys c (parseWith g) :=
  obeys_advance.bind fun _ => (obeys_bindings hg.toMinds).bind fun _ =>
    (hg.body _ _).bind fun _ => .pure

theorem obeys_autoescape (hg : g.Orderly c) : Obeys c (parseAutoescape g) :=
  obeys_advance.bind fun _ => (obeys_expression hg.toMinds _ _).bind fun _ =>
    (hg.body _ _).bind fun _ => .pure

/-! ### Other templates -/

theorem obeys_context : Obeys c parseContext? :=
  obeys_current.bind fun _ => obeys_look.bind fun _ => .ite (obeys_skip_two.bind fun _ => .pure) .pure

theorem obeys_extends (hg : g.Minds c) : Obeys c (parseExtends g) :=
  obeys_advance.bind fun _ => (obeys_expression hg _ _).bind fun _ => .pure

theorem obeys_inclusion (hg : g.Minds c) (make : Expr → Bool → Bool → Nat → Stmt) :
    Obeys c (parseInclusion g make) := by
  have hmissing : Obeys c parseIgnoreMissing := obeys_current.bind fun _ =>
    obeys_look.bind fun _ => .ite (obeys_skip_two.bind fun _ => .pure) .pure
  exact obeys_advance.bind fun _ => (obeys_expression hg _ _).bind fun _ => hmissing.bind fun _ =>
    obeys_context.bind fun _ => .pure

theorem obeys_import (hg : g.Minds c) : Obeys c (parseImport g) :=
  obeys_advance.bind fun _ => (obeys_expression hg _ _).bind fun _ => (obeys_expect _).bind fun _ =>
    obeys_targetName.bind fun _ => obeys_context.bind fun _ => .pure

theorem obeys_importName : Obeys c parseImportName := by
  have halias : Obeys c parseAlias? := (obeys_skipIf _).bind fun _ =>
    .ite (obeys_targetName.bind fun _ => .pure) .pure
  exact obeys_targetName.bind fun _ => .ite (obeys_failAt _ nofun) (halias.bind fun _ => .pure)

theorem obeys_nextImport (names : List ImportName) : Obeys c (parseNextImport names) := by
  have hend (names : List ImportName) : Obeys c (parseImportEnd names) := by
    refine obeys_context.bind fun context => ?_
    cases context with
    | some _ => exact .pure
    | none => exact (obeys_atSymbol _).bind fun _ => .ite .pure .pure
  refine (obeys_separator _).bind fun _ => obeys_current.bind fun _ => .ite .pure ?_
  refine obeys_context.bind fun context => ?_
  cases context with
  | some _ => exact .pure
  | none => exact obeys_importName.bind fun _ => hend _

theorem obeys_from (hg : g.Minds c) : Obeys c (parseFrom g) := by
  have hnames : Obeys c parseImportNames := .loop obeys_nextImport _
  refine obeys_advance.bind fun _ => (obeys_expression hg _ _).bind fun _ => ?_
  refine (obeys_expect _).bind fun _ => hnames.bind fun x => ?_
  obtain ⟨names, context⟩ := x
  cases context with
  | some _ => exact .pure
  | none => exact (obeys_skipIf _).bind fun _ => .pure

/-! ### Definitions and calls -/

theorem obeys_parameter (hg : g.Minds c) (sig : Signature) : Obeys c (parseParameter g sig) := by
  refine obeys_targetName.bind fun _ => (obeys_skipIf _).bind fun _ => .ite ?_ ?_
  · exact (obeys_expression hg _ _).bind fun _ => .pure
  · exact .ite .pure (obeys_fail nofun)

theorem obeys_signature (hg : g.Minds c) : Obeys c (parseSignature g) := by
  have hparameters : Obeys c (parseParameters g) := by
    refine .loop (fun _ => ?_) _
    refine (obeys_atSymbol _).bind fun _ => .ite .pure <| (obeys_separator _).bind fun _ => ?_
    exact (obeys_parameter hg _).bind fun _ => .pure
  exact (obeys_expect _).bind fun _ => hparameters.bind fun _ => (obeys_expect _).bind fun _ => .pure

theorem obeys_hyphen : Obeys c refuseHyphen :=
  (obeys_atSymbol _).bind fun _ => .ite (obeys_fail nofun) .pure

theorem obeys_block (hg : g.Orderly c) : Obeys c (parseBlock g) := by
  refine obeys_advance.bind fun _ => (obeys_expect _).bind fun _ => (obeys_skipIf _).bind fun _ => ?_
  exact obeys_hyphen.bind fun _ => (hg.body _ _).bind fun _ => (obeys_skipIf _).bind fun _ => .pure

theorem obeys_macro (hg : g.Orderly c) : Obeys c (parseMacro g) :=
  obeys_advance.bind fun _ => obeys_targetName.bind fun _ => (obeys_signature hg.toMinds).bind fun _ =>
    (hg.body _ _).bind fun _ => .pure

theorem obeys_optionalSignature (hg : g.Minds c) : Obeys c (parseOptionalSignature g) :=
  (obeys_atSymbol _).bind fun _ => .ite (obeys_signature hg) .pure

theorem obeys_callBlock (hg : g.Orderly c) : Obeys c (parseCallBlock g) := by
  refine obeys_advance.bind fun _ => (obeys_optionalSignature hg.toMinds).bind fun _ => ?_
  refine (obeys_expression hg.toMinds _ _).bind fun _ => .ite ?_ (obeys_failAt _ nofun)
  exact (hg.body _ _).bind fun _ => .pure

theorem obeys_filterBlock (hg : g.Orderly c) : Obeys c (parseFilterBlock g) :=
  obeys_advance.bind fun _ => (obeys_filters hg.toMinds none true).bind fun _ =>
    (hg.body _ _).bind fun _ => .pure

/-! ### All tags -/

/-- **The tags of every environment** obey. -/
theorem obeys_builtin (hg : g.Orderly c) {p : Parser Stmt} (h : builtin? g tag = some p) :
    Obeys c p := by
  unfold builtin? at h
  split at h
  case h_1 => exact Option.some.inj h ▸ obeys_for hg
  case h_2 => exact Option.some.inj h ▸ obeys_if hg
  case h_3 => exact Option.some.inj h ▸ obeys_unless hg
  case h_4 => exact Option.some.inj h ▸ obeys_advance.bind fun _ => .pure
  case h_5 => exact Option.some.inj h ▸ obeys_advance.bind fun _ => .pure
  case h_6 => exact Option.some.inj h ▸ obeys_block hg
  case h_7 => exact Option.some.inj h ▸ obeys_extends hg.toMinds
  case h_8 => exact Option.some.inj h ▸ obeys_print hg.toMinds
  case h_9 => exact Option.some.inj h ▸ obeys_macro hg
  case h_10 => exact Option.some.inj h ▸ obeys_inclusion hg.toMinds _
  case h_11 => exact Option.some.inj h ▸ obeys_inclusion hg.toMinds _
  case h_12 => exact Option.some.inj h ▸ obeys_from hg.toMinds
  case h_13 => exact Option.some.inj h ▸ obeys_import hg.toMinds
  case h_14 => exact Option.some.inj h ▸ obeys_set hg _
  case h_15 => exact Option.some.inj h ▸ obeys_set hg _
  case h_16 => exact Option.some.inj h ▸ obeys_set hg _
  case h_17 => exact Option.some.inj h ▸ obeys_with hg
  case h_18 => exact Option.some.inj h ▸ obeys_autoescape hg
  case h_19 => exact Option.some.inj h ▸ obeys_callBlock hg
  case h_20 => exact Option.some.inj h ▸ obeys_filterBlock hg
  case h_21 => nomatch h

theorem obeys_do (hg : g.Minds c) : Obeys c (parseDo g) :=
  obeys_advance.bind fun _ => (obeys_anyTuple hg).bind fun _ => .pure

theorem obeys_shout (hg : g.Minds c) : Obeys c (parseShout g) :=
  obeys_advance.bind fun _ => (obeys_expression hg _ _).bind fun _ => .pure

theorem obeys_whenValues (hg : g.Minds c) : Obeys c (parseWhenValues g) := by
  refine .loop (fun _ => ?_) _
  exact (obeys_expression hg _ _).bind fun _ => (obeys_skipIf _).bind fun _ => .ite .pure .pure

/-- **Case distinctions** obey, where the rules allow to make up a name. -/
theorem obeys_case (hg : g.Orderly c) (hfresh : c.AllowsFresh) : Obeys c (parseCase g) := by
  have hbranch (line : Nat) : Obeys c (parseCaseBranch g line) :=
    (obeys_whenValues hg.toMinds).bind fun _ => (hg.body _ _).bind fun _ => .pure
  have hbranches : Obeys c (parseCaseBranches g) := by
    refine .loop (fun _ => obeys_advance.bind fun _ => .ite ?_ (.ite ?_ .pure)) _
    · exact (hbranch _).bind fun _ => .pure
    · exact (hg.body _ _).bind fun _ => .pure
  refine obeys_advance.bind fun _ => (obeys_expression hg.toMinds _ _).bind fun _ => ?_
  refine (obeys_freshName hfresh _).bind fun _ => (hg.body _ _).bind fun _ => ?_
  exact hbranches.bind fun _ => .pure

/-- **The tags of known extensions** obey. -/
theorem obeys_known (hg : g.Orderly c) {x : Extension} (hx : x.Known)
    (hfresh : x = .case → c.AllowsFresh) : Obeys c (x.parse g) := by
  cases hx with
  | doExpr => exact obeys_do hg.toMinds
  | case => exact obeys_case hg (hfresh rfl)
  | shout _ => exact obeys_shout hg.toMinds

/-- **Extensions** that obey the rules, if the grammar that they use does. -/
def Conduct.ObeyedByExtensions (c : Conduct) (env : Environment) : Prop :=
  ∀ x ∈ env.extensions, ∀ g : Grammar, g.Orderly c → Obeys c (x.parse g)

theorem obeyedByExtensions_known (henv : ∀ x ∈ env.extensions, x.Known)
    (hfresh : .case ∈ env.extensions → c.AllowsFresh) : c.ObeyedByExtensions env :=
  fun x hx _ hg => obeys_known hg (henv x hx) fun hcase => hfresh (hcase ▸ hx)

/-- **Any statement** obeys. -/
theorem obeys_statement (hext : c.ObeyedByExtensions env) (hg : g.Orderly c) :
    Obeys c (parseStatement env g) := by
  refine obeys_current.bind fun t => ?_
  split
  · exact obeys_failAt _ nofun
  · next tag _ =>
    split
    · next p hp =>
      refine Obeys.inTag ?_ tag
      unfold tag? at hp
      split at hp
      · next q hq => exact Option.some.inj hp ▸ (obeys_builtin hg hq).map
      · obtain ⟨x, hx, rfl⟩ := Option.map_eq_some_iff.1 hp
        exact hext x (Environment.extension?_mem hx).1 g hg
    · exact obeys_failUnknownTag _ _

/-! ### Bounded grammars -/

theorem obeys_guarded {α : Type} {n : Nat} {p : Nat → Parser α} (h : ∀ j, j < n → Obeys c (p j)) :
    Obeys c (guarded n fun s _ => p s.weight s) := by
  intro s
  unfold guarded
  split
  · next hlt => exact h s.weight hlt s
  · have hfail : Obeys c (fail .nestedTooDeep : Parser α) := obeys_fail nofun
    exact hfail s

/-! ### Expressions of an environment -/

/-- **Range literals** that obey the rules, if the expressions of the grammar do. -/
def Conduct.ObeyedByRanges (c : Conduct) : Prop :=
  ∀ g : Grammar, (∀ conditional filters, Obeys c (g.expression conditional filters)) →
    ∀ t start stop, Obeys c (parseRange g t start stop)

/-- **Expressions** of the bounded grammars. -/
theorem minds_below (env : Environment) (hrange : c.ObeyedByRanges) (n : Nat) :
    (below env n).Minds c := by
  induction n using Nat.strongRecOn with
  | _ n ih =>
    have hexpression (conditional filters : Bool) :
        Obeys c ((below env n).expression conditional filters) := by
      rw [below_expression]
      exact obeys_guarded fun j hj => obeys_expression (ih j hj) conditional filters
    refine { expression := hexpression, negation := ?_, signed := ?_, group := ?_,
             range := hrange _ hexpression }
    · intro filters
      rw [below_negation]
      exact obeys_guarded fun j hj => obeys_negation (ih j hj) filters
    · rw [below_signed]
      exact obeys_guarded fun j hj => obeys_signed (ih j hj) false
    · rw [below_group]
      exact obeys_guarded fun j hj => obeys_tuple (ih j hj) _ _ _

/-- The expressions of the grammar of an environment. -/
theorem minds_grammar (env : Environment) (hrange : c.ObeyedByRanges) : env.grammar.Minds c := by
  have hbelow (n : Nat) := minds_below env hrange n
  have hexpression (conditional filters : Bool) :
      Obeys c (env.grammar.expression conditional filters) :=
    fun s => obeys_expression (hbelow s.weight) conditional filters s
  refine { expression := hexpression, negation := ?_, signed := ?_, group := ?_,
           range := hrange _ hexpression }
  · exact fun filters s => obeys_negation (hbelow s.weight) filters s
  · exact fun s => obeys_signed (hbelow s.weight) false s
  · exact fun s => obeys_tuple (hbelow s.weight) _ _ _ s

/-! ### Statements of an environment -/

/-- **Bodies** that obey the rules, if the expressions and the statements of the grammar do. -/
def Conduct.ObeyedByBodies (c : Conduct) : Prop :=
  ∀ g : Grammar, g.Minds c → Obeys c g.statement →
    ∀ ends consume, Obeys c (parseStatements g ends consume)

section Orderly

variable (hext : c.ObeyedByExtensions env) (hbody : c.ObeyedByBodies)
include hext hbody

/-- **Statements** of the bounded grammars. -/
theorem orderly_below (hminds : ∀ n, (below env n).Minds c) (n : Nat) :
    (below env n).Orderly c := by
  induction n using Nat.strongRecOn with
  | _ n ih =>
    have hstatement : Obeys c (below env n).statement := by
      rw [below_statement]
      exact obeys_guarded fun j hj => obeys_statement hext (ih j hj)
    refine { hminds n with statement := hstatement, branch := ?_,
                           body := hbody _ (hminds n) hstatement }
    intro line tag
    rw [below_branch]
    exact obeys_guarded fun j hj => obeys_branch (ih j hj) line tag false

/-- The statements of the grammar of an environment. -/
theorem orderly_grammar (hminds : ∀ n, (below env n).Minds c) (hgrammar : env.grammar.Minds c) :
    env.grammar.Orderly c := by
  have hbelow (n : Nat) := orderly_below hext hbody hminds n
  have hstatement : Obeys c env.grammar.statement :=
    fun s => obeys_statement hext (hbelow s.weight) s
  refine { hgrammar with statement := hstatement, branch := ?_,
                         body := hbody _ hgrammar hstatement }
  exact fun line tag s => obeys_branch (hbelow s.weight) line tag false s

end Orderly

end LiquidTemplate
