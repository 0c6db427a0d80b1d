import LiquidTemplate.Proofs.Conduct.InsideTags
import LiquidTemplate.Proofs.Progress.OpenTags

/-!
# Counting made-up names

The number of names that a parser has made up never falls, whether it succeeds or fails. If there are
no case distinctions, it stays the same.

* `Conduct.counts`: the rule that there is a given relation between the numbers before and after.
* `Conduct.counting`, `Conduct.still`: the rules that the number does not fall, and that it stays the
  same.
* `counts_grammar`: the grammar of an environment keeps to such a rule.
* `Environment.Operation.madeUp_le`: no operation lowers the number.
-/

namespace LiquidTemplate

open LiquidTemplate.Parser LiquidTemplate.Grammar

variable {α : Type} {g : Grammar} {env : Environment} {r : Nat → Nat → Prop}
  {hrefl : ∀ n, r n n} {htrans : ∀ {i j k}, r i j → r j k → r i k}

/-- **The counts of made-up names** before and after are related. -/
def Conduct.counts (r : Nat → Nat → Prop) (hrefl : ∀ n, r n n)
    (htrans : ∀ {i j k}, r i j → r j k → r i k) : Conduct where
  moves s t := r s.madeUp t.madeUp
  fails s _ t := r s.madeUp t.madeUp
  refl _ := hrefl _
  trans := htrans
  carry := htrans
  step _ := hrefl _
  mismatch _ _ := hrefl _
  error _ _ _ _ := hrefl _
  inTag h := h
  inTag_fails h := h

/-- **The count** does not fall. -/
def Conduct.counting : Conduct :=
  .counts (· ≤ ·) Nat.le_refl Nat.le_trans

/-- **The count** stays the same. -/
def Conduct.still : Conduct :=
  .counts (fun m n => n = m) (fun _ => rfl) fun h h' => h'.trans h

namespace Grammar

/-! ### Expressions -/

/-- A range literal is read from streams of its own, and the state stays as it is. -/
theorem counts_range (t : Token) (start stop : String) :
    Obeys (.counts r hrefl htrans) (parseRange g t start stop) := by
  have hbound (text : String) : Obeys (.counts r hrefl htrans) (parseBound g text t) := by
    refine Obeys.state fun s => ?_
    cases Token.ofExpression text t.line t.span.lo with
    | error e => exact hrefl _
    | ok tokens =>
      have hempty : SyntaxError.Cause.emptyRangeBound.Inside := nofun
      have hinvalid : (SyntaxError.Cause.invalidRangeBound text).Inside := nofun
      exact (Obeys.ite (obeys_failAt _ hempty) (.ite .pure (obeys_failAt _ hinvalid))) s
  refine (hbound start).bind fun first => (hbound stop).bind fun last => .state fun s => ?_
  cases runOn (.ofTokens (rangeTokens t first last) s.stream.name s.stream.filename)
      (g.expression true true) with
  | error e => exact hrefl _
  | ok x => exact (Obeys.ite .pure (obeys_failAt _ (by exact nofun))) s

/-! ### Bodies -/

section Bodies

variable (hg : g.Minds (.counts r hrefl htrans))
  (hstatement : Obeys (.counts r hrefl htrans) g.statement)
include hg hstatement

theorem counts_bodyPart (ends : List TokenRule) (b : PartialBody) :
    Obeys (.counts r hrefl htrans) (parseBodyPart g ends b) := by
  have houtput : Obeys (.counts r hrefl htrans) (parseOutput g) :=
    (obeys_anyTuple hg).bind fun _ => (obeys_expect _).bind fun _ => .pure
  have hclosed : Obeys (.counts r hrefl htrans) (parseClosedStatement g) :=
    hstatement.bind fun _ => (obeys_expect _).bind fun _ => .pure
  refine obeys_current.bind fun t => ?_
  split
  · exact .pure
  · exact obeys_step.bind fun _ => .pure
  · exact obeys_step.bind fun _ => houtput.bind fun _ => .pure
  · exact obeys_step.bind fun _ => obeys_current.bind fun _ =>
      .ite .pure (hclosed.bind fun _ => .pure)
  · exact fun s => hrefl s.madeUp

theorem counts_body (ends : Option (List TokenRule)) :
    Obeys (.counts r hrefl htrans) (parseBody g ends) := by
  have hparts (rules : List TokenRule) :
      Obeys (.counts r hrefl htrans) (repeatFrom (parseBodyPart g rules) {}) :=
    .loop (counts_bodyPart hg hstatement rules) _
  cases ends with
  | none => exact hparts []
  | some rules =>
    intro s
    have hrun := hparts rules { s with expectedEnds := rules :: s.expectedEnds }
    show (Conduct.counts r hrefl htrans).Outcome s
      (awaiting rules (repeatFrom (parseBodyPart g rules) {}) s)
    unfold awaiting afterwards
    split
    · next x t h =>
      rw [h] at hrun
      exact hrun
    · next e t h =>
      rw [h] at hrun
      exact hrun

theorem counts_statements (ends : List TokenRule) (consume : Bool) :
    Obeys (.counts r hrefl htrans) (parseStatements g ends consume) := by
  refine (obeys_skipIf _).bind fun _ => (obeys_expect _).bind fun _ => ?_
  refine (counts_body hg hstatement _).bind fun _ => obeys_current.bind fun _ => ?_
  exact .ite (obeys_failUnclosed _ _) (.ite (obeys_step.bind fun _ => .pure) .pure)

end Bodies

/-! ### Grammars -/

theorem obeyedByRanges_counts : (Conduct.counts r hrefl htrans).ObeyedByRanges :=
  fun _ _ => counts_range

/-- **The grammar of an environment**, if its extensions keep to the rule. -/
theorem counts_grammar (hext : (Conduct.counts r hrefl htrans).ObeyedByExtensions env) :
    env.grammar.Orderly (.counts r hrefl htrans) :=
  orderly_grammar hext (fun _ => counts_statements) (minds_below env obeyedByRanges_counts)
    (minds_grammar env obeyedByRanges_counts)

end Grammar

/-! ### Operations -/

theorem Parser.Obeys.madeUp_le {p : Parser α} (h : Obeys .counting p) (s : ParserState) :
    s.madeUp ≤ (p.final s).madeUp := by
  have houtcome := h s
  unfold Parser.final
  cases hp : p s with
  | ok x t =>
    rw [hp] at houtcome
    exact houtcome
  | error e t =>
    rw [hp] at houtcome
    exact houtcome

theorem Environment.Production.counting (henv : ∀ x ∈ env.extensions, x.Known) {p : Parser α}
    (h : env.Production p) : Obeys .counting p := by
  have hext : Conduct.counting.ObeyedByExtensions env :=
    obeyedByExtensions_known henv fun _ s => Nat.le_succ s.madeUp
  have hg : env.grammar.Orderly .counting := counts_grammar hext
  cases h with
  | consuming h =>
    cases h with
    | expression conditional filters => exact obeys_expression hg.toMinds conditional filters
    | primary => exact obeys_primary hg.toMinds
    | target withTuple ends => exact obeys_target hg.toMinds withTuple ends
    | targetName => exact obeys_targetName
    | arguments => exact obeys_arguments hg.toMinds
    | statement => exact obeys_statement hext hg
    | statements ends consume => exact hg.body ends consume
  | tuple item ends parentheses => exact obeys_tuple hg.toMinds item ends parentheses
  | filters node bare => exact obeys_filters hg.toMinds node bare
  | body ends => exact counts_body hg.toMinds hg.statement ends

/-- **No operation** lowers the count, whether it succeeds or fails. -/
theorem Environment.Operation.madeUp_le (henv : ∀ x ∈ env.extensions, x.Known) {p : Parser α}
    (h : env.Operation p) (s : ParserState) : s.madeUp ≤ (p.final s).madeUp := by
  cases h with
  | production h => exact (h.counting henv).madeUp_le s
  | freshName line => exact Nat.le_succ _
  | failure | unknownTag | unclosed => exact Nat.le_refl _

end LiquidTemplate
