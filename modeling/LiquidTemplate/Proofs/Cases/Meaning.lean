import LiquidTemplate.Proofs.Cases.Names

/-!
# The meaning of case distinctions

A case distinction does what its first branch does that has a value equal to the subject. If there is
none it does what stands behind `else`.

* `Machine`, `Stmt.run`, `runAll`: what statements do, apart from conditions, is left open.
* `Expr.Operands`: the operands of a disjunction.
* `WhenBranch.comparisons`: the comparisons of a branch with a made-up name.
* `Conditions`: conditions one in the other, each with a body of its own.
* `Conditions.run`: they run the first body whose test holds.
* `parseCase_eq_ok`: the parser accepts what is written as a case distinction, and nothing else.
* `case_distinctions`: what it gives does what the case distinction says.
-/

namespace LiquidTemplate

open LiquidTemplate.Parser LiquidTemplate.Grammar

variable {σ : Type} {g : Grammar} {s t : ParserState} {env : Environment} {name : String}
  {b : WhenBranch} {bs : List WhenBranch} {o : Option (List Stmt)} {fallback chain : List Stmt}

/-! ### Running statements -/

/-- **A machine** that runs statements: which expressions are true in a state, and what other statements
than conditions do. -/
structure Machine (σ : Type) where
  truth : σ → Expr → Bool
  perform : Stmt → σ → σ

/-- **Whether a test holds**, if `truth` says it of what is not a disjunction. A disjunction holds if one
of its sides does. -/
def Expr.holds (truth : Expr → Bool) : Expr → Bool
  | or left right _ => left.holds truth || right.holds truth
  | e => truth e

mutual

/-- **Running a statement.** A condition runs its body if its test holds and its `else` otherwise. -/
def Stmt.run (m : Machine σ) : Stmt → σ → σ
  | .ifThen test body otherwise _, x =>
    if test.holds (m.truth x) then runAll m body x else runAll m otherwise x
  | stmt, x => m.perform stmt x

/-- **Running statements** one after the other. -/
def runAll (m : Machine σ) : List Stmt → σ → σ
  | [], x => x
  | stmt :: rest, x => runAll m rest (stmt.run m x)

end

theorem runAll_singleton (m : Machine σ) (stmt : Stmt) (x : σ) : runAll m [stmt] x = stmt.run m x := by
  rw [runAll, runAll]

/-! ### Disjunctions -/

/-- **Operands of a disjunction**, from left to right. None of them is a disjunction itself. -/
inductive Expr.Operands : Expr → List Expr → Prop where
  | one {e : Expr} (h : ∀ left right line, e ≠ .or left right line) : Operands e [e]
  | either {left right : Expr} {es fs : List Expr} {line : Nat} (hleft : Operands left es)
      (hright : Operands right fs) : Operands (.or left right line) (es ++ fs)

namespace Expr

variable {e : Expr} {es : List Expr}

theorem operands_alternatives (e : Expr) : e.Operands e.alternatives := by
  induction e using Expr.alternatives.induct with
  | case1 left right line ihl ihr =>
    rw [alternatives]
    exact .either ihl ihr
  | case2 e hor =>
    rw [alternatives]
    · exact .one hor
    · exact hor

theorem Operands.eq_alternatives (h : e.Operands es) : es = e.alternatives := by
  induction h with
  | one hor =>
    rw [alternatives]
    exact hor
  | either _ _ ihl ihr => rw [alternatives, ihl, ihr]

/-- **A test holds** if one of its operands does. -/
theorem Operands.holds (h : e.Operands es) (truth : Expr → Bool) : e.holds truth = es.any truth := by
  induction h with
  | one hor =>
    rw [Expr.holds, List.any_cons, List.any_nil, Bool.or_false]
    exact hor
  | either _ _ ihl ihr => rw [Expr.holds, List.any_append, ihl, ihr]

/-- A disjunction that is made from left to right. -/
theorem Operands.foldl {values : List Expr} {test : Expr → Expr} {line : Nat} (h : e.Operands es)
    (htest : ∀ value, (test value).Operands [test value]) :
    (values.foldl (fun e value => .or e (test value) line) e).Operands (es ++ values.map test) := by
  induction values generalizing e es with
  | nil => exact (List.append_nil es).symm ▸ h
  | cons value values ih =>
    rw [List.foldl_cons, List.map_cons, List.append_cons]
    exact ih (.either h (htest value))

end Expr

/-! ### Conditions -/

namespace WhenBranch

/-- The comparison of a value with a name. -/
def comparison (name : String) (b : WhenBranch) (value : Expr) : Expr :=
  .compare (.internalName name b.line) [⟨.eq, value⟩] b.line

/-- **The comparisons of a branch.** A value `a or b` stands for both. -/
def comparisons (name : String) (b : WhenBranch) : List Expr :=
  (b.values.flatMap Expr.alternatives).map (b.comparison name)

theorem comparisons_eq {groups : List (List Expr)} (h : List.Forall₂ Expr.Operands b.values groups) :
    b.comparisons name = groups.flatten.map (b.comparison name) := by
  rw [comparisons]
  congr 1
  generalize b.values = values at h ⊢
  induction h with
  | nil => rfl
  | cons hoperands _ ih => rw [List.flatMap_cons, List.flatten_cons, ih, hoperands.eq_alternatives]

end WhenBranch

/-- **Conditions for branches**, each in the `else` of the one before, and the fallback in that of the
last. Every body stands in just one place. A test compares the operands of the values of its branch, in
their order. -/
inductive Conditions (name : String) (fallback : List Stmt) : List WhenBranch → List Stmt → Prop where
  | fallback : Conditions name fallback [] fallback
  | branch {b : WhenBranch} {bs : List WhenBranch} {groups : List (List Expr)} {test : Expr}
      {chain : List Stmt} (hvalues : List.Forall₂ Expr.Operands b.values groups)
      (htest : test.Operands (groups.flatten.map (b.comparison name)))
      (rest : Conditions name fallback bs chain) :
      Conditions name fallback (b :: bs) [.ifThen test b.body chain b.line]

/-- **The body that is chosen**: that of the first branch with a comparison that is true. -/
def chosenBody (truth : Expr → Bool) (name : String) (bs : List WhenBranch) (fallback : List Stmt) :
    List Stmt :=
  ((bs.find? fun b => (b.comparisons name).any truth).map WhenBranch.body).getD fallback

/-- **Conditions run** the body that is chosen. -/
theorem Conditions.run (h : Conditions name fallback bs chain) (m : Machine σ) (x : σ) :
    runAll m chain x = runAll m (chosenBody (m.truth x) name bs fallback) x := by
  induction h with
  | fallback => rfl
  | @branch b bs groups test chain hvalues htest _ ih =>
    rw [runAll_singleton, Stmt.run, htest.holds, ← WhenBranch.comparisons_eq hvalues, chosenBody,
      List.find?_cons]
    cases (b.comparisons name).any (m.truth x) with
    | true => rfl
    | false => exact ih

/-- **The chain of conditions** for branches with values. -/
theorem conditions_caseChain (hne : ∀ b ∈ bs, b.toCase.values ≠ []) :
    Conditions name fallback bs (caseChain name (bs.map WhenBranch.toCase) fallback) := by
  induction bs with
  | nil => exact .fallback
  | cons b bs ih =>
    obtain ⟨hb, hrest⟩ := List.forall_mem_cons.1 hne
    obtain ⟨value, values, hvalues⟩ := List.exists_cons_of_ne_nil hb
    have hcomparison (value : Expr) : (b.comparison name value).Operands [b.comparison name value] :=
      .one nofun
    have htest : b.toCase.test? name = some (values.foldl
        (fun e value => Expr.or e (b.comparison name value) b.line) (b.comparison name value)) := by
      rw [CaseBranch.test?, hvalues]
      rfl
    have hgroups : List.Forall₂ Expr.Operands b.values (b.values.map Expr.alternatives) :=
      List.forall₂_map_right_iff.2 (List.forall₂_same.2 fun e _ => e.operands_alternatives)
    have hflatten : (b.values.map Expr.alternatives).flatten = value :: values :=
      List.flatMap_def.symm.trans hvalues
    rw [List.map_cons, caseChain, List.foldr_cons, htest]
    refine .branch hgroups ?_ (ih hrest)
    rw [hflatten]
    exact (hcomparison value).foldl hcomparison

/-! ### Reading what is written -/

/-- **The grammars of an environment**: its own, and the bounded ones that it refers to. -/
inductive Environment.Reads (env : Environment) : Grammar → Prop where
  | whole : Reads env env.grammar
  | bounded (n : Nat) : Reads env (below env n)

theorem Environment.Reads.lowering (henv : ∀ x ∈ env.extensions, x.Known) (h : env.Reads g)
    (tokens : List Token) : g.Lowering tokens := by
  cases h with
  | whole => exact lowering_grammar henv tokens
  | bounded n => exact lowering_below henv tokens n

/-- What begins behind a token that is not the end has fewer tokens left. -/
theorem ParserState.Before.remaining_lt (h : s.stepped.Before t)
    (hend : s.stream.current.isEnd = false) : t.remaining < s.remaining :=
  Nat.lt_of_le_of_lt h.tokens.length_le (s.remaining_stepped hend)

/-- **Values** that are written are read. -/
theorem Grammar.WhenValues.parse (hg : g.Forming) {es : List Expr} (h : WhenValues g s es t) :
    parseWhenValues g s = .ok (es.flatMap Expr.alternatives) t := by
  have hall (done : List Expr) :
      repeatFrom (parseNextWhenValue g) done s =
        .ok (done ++ es.flatMap Expr.alternatives) t := by
    induction h generalizing done with
    | @last s t e he hend =>
      refine repeatFrom_eq_ok.2 (.inl (bind_eq_ok.2 ⟨e, t, he, bind_eq_ok.2 ⟨false, t, ?_, ?_⟩⟩))
      · exact skipIf_eq_false.2 ⟨rfl, hend⟩
      · rw [List.flatMap_singleton]
        rfl
    | @more s t u e es he hcomma _ ih =>
      have hst := (before_expression hg (List.suffix_refl _) he).1
      have hlt := t.remaining_stepped (Token.isEnd_of_isSymbol hcomma)
      refine repeatFrom_eq_ok.2 (.inr ⟨done ++ e.alternatives, t.stepped, ?_, ?_, ?_⟩)
      · refine bind_eq_ok.2 ⟨e, t, he, bind_eq_ok.2 ⟨true, t.stepped, ?_, rfl⟩⟩
        exact skipIf_eq_true.2 ⟨hcomma, rfl⟩
      · exact Nat.lt_of_lt_of_le hlt hst.tokens.length_le
      · rw [List.flatMap_cons, ← List.append_assoc]
        exact ih _
  exact hall []

/-- **Branches** that are written are read. -/
theorem Grammar.WhenBranches.parse {tokens : List Token} (hg : g.Lowering tokens)
    (hs : s.stream.tokens <:+ tokens) (h : WhenBranches g s bs o t) :
    parseCaseBranches g s = .ok (bs.map WhenBranch.toCase, o.getD []) t := by
  have hfinish (done : List CaseBranch) (fallback : List Stmt) (s : ParserState)
      (hend : s.stream.current.kind = .name "endcase") :
      repeatFrom (fun read => parseNextBranch g read.1 read.2) (done, fallback) s =
        .ok (done, fallback) s.stepped := by
    refine repeatFrom_eq_ok.2 (.inl (bind_eq_ok.2 ⟨_, _, rfl, ?_⟩))
    rw [isName_of_kind hend "when", isName_of_kind hend "else"]
    rfl
  have hall (done : List CaseBranch) :
      repeatFrom (fun read => parseNextBranch g read.1 read.2) (done, []) s =
        .ok (done ++ bs.map WhenBranch.toCase, o.getD []) t := by
    induction h generalizing done with
    | finish hend =>
      rw [List.map_nil, List.append_nil]
      exact hfinish done [] _ hend
    | @otherwise s t body helse hbody =>
      have hends : ∃ tag ∈ ["endcase"], t.stream.current.kind = .name tag := ends_of_statements hbody
      obtain ⟨tag, htag, hend⟩ := hends
      obtain rfl := List.mem_singleton.1 htag
      have hst := (lowers_statements hg (s.stepped_suffix.trans hs) hbody).before
      refine repeatFrom_eq_ok.2 (.inr ⟨(done, body), t, bind_eq_ok.2 ⟨_, _, rfl, ?_⟩, ?_, ?_⟩)
      · rw [isName_of_kind helse "when", isName_of_kind helse "else"]
        exact bind_eq_ok.2 ⟨body, t, hbody, rfl⟩
      · exact hst.remaining_lt (Token.isEnd_of_kind helse (by rintro ⟨⟩))
      · rw [List.map_nil, List.append_nil]
        exact hfinish done body t hend
    | @branch s t u v es body bs o hwhen hvalues hbody _ ih =>
      obtain ⟨hst, -⟩ := fit_whenValues hg.toForming (s.stepped_suffix.trans hs) hvalues
      have hsu :=
        hst.trans (lowers_statements hg (hst.tokens.trans (s.stepped_suffix.trans hs)) hbody).before
      refine repeatFrom_eq_ok.2
        (.inr ⟨(done ++ [(WhenBranch.mk es body s.stream.current.line).toCase], []),
          u, bind_eq_ok.2 ⟨_, _, rfl, ?_⟩, ?_, ?_⟩)
      · rw [isName_of_kind hwhen "when"]
        refine bind_eq_ok.2 ⟨_, u, bind_eq_ok.2 ⟨_, t, hvalues.parse hg.toForming, ?_⟩, rfl⟩
        exact bind_eq_ok.2 ⟨body, u, hbody, rfl⟩
      · exact hsu.remaining_lt (Token.isEnd_of_kind hwhen (by rintro ⟨⟩))
      · rw [List.map_cons, List.append_cons done _ (bs.map WhenBranch.toCase)]
        exact ih (hsu.tokens.trans (s.stepped_suffix.trans hs)) _
  exact hall []

/-- **The parser of case distinctions** accepts what is written as one, and nothing else. -/
theorem parseCase_eq_ok (henv : ∀ x ∈ env.extensions, x.Known) (hg : env.Reads g) {x : Expansion} :
    parseCase g s = .ok x t ↔ ∃ subject number bs o, CaseBlock g s subject number bs o t ∧
      x = .multiple (.assign (.internalName (internalName number) s.stream.current.line) subject
          s.stream.current.line ::
        caseChain (internalName number) (bs.map WhenBranch.toCase) (o.getD [])) := by
  constructor
  · exact caseBlock_of_ok
  · rintro ⟨subject, number, bs, o, hblock, rfl⟩
    obtain ⟨u, dropped, v, hu, rfl, hdropped, hbs⟩ := hblock.read
    have hbranches := hbs.parse (hg.lowering henv v.stream.tokens) (List.suffix_refl _)
    refine bind_eq_ok.2 ⟨_, _, rfl, bind_eq_ok.2 ⟨subject, u, hu, bind_eq_ok.2 ⟨_, _, rfl, ?_⟩⟩⟩
    exact bind_eq_ok.2 ⟨dropped, v, hdropped, bind_eq_ok.2 ⟨_, t, hbranches, rfl⟩⟩

/-! ### Case distinctions -/

/-- **A name that is not used** in what is written. -/
structure Unused (name : String) (subject : Expr) (bs : List WhenBranch) (o : Option (List Stmt)) :
    Prop where
  subject : ∀ line, .internalName name line ∉ subject.walk
  values : ∀ b ∈ bs, ∀ e ∈ b.values, ∀ line, .internalName name line ∉ e.walk
  bodies : ∀ b ∈ bs, ∀ line, .expr (.internalName name line) ∉ walkAll b.body
  fallback : ∀ line, .expr (.internalName name line) ∉ walkAll (o.getD [])

/-- Statements with higher numbers do not use the name. -/
theorem Lowered.unused {tokens : List Token} {number n : Nat} {ss : List Stmt}
    (h : Lowered tokens number n ss) (line : Nat) :
    .expr (.internalName (internalName number) line) ∉ walkAll ss := by
  intro hmem
  obtain ⟨names, hcased, numbers, rfl, -, hbounds⟩ := h.cased
  obtain ⟨i, hi, heq⟩ := List.mem_map.1 (hcased.mem hmem)
  obtain rfl := internalName_inj heq
  exact Nat.lt_irrefl i (hbounds i hi).1

theorem Grammar.CaseBlock.Fit.unused {tokens : List Token} {subject : Expr} {number : Nat}
    (h : CaseBlock.Fit tokens s subject number bs o t) :
    Unused (internalName number) subject bs o := by
  have hbodies (line : Nat) := h.bodies.unused line
  have hwalk : walkAll (bs.flatMap WhenBranch.body ++ o.getD []) =
      (bs.flatMap fun b => walkAll b.body) ++ walkAll (o.getD []) := by
    rw [walkAll_append, walkAll, List.flatMap_assoc]
    rfl
  rw [hwalk] at hbodies
  refine ⟨h.subject.plain _, fun b hb e he => ((h.branches b hb).values e he).plain _, ?_, ?_⟩
  · exact fun b hb line hmem =>
      hbodies line (List.mem_append_left _ (List.mem_flatMap.2 ⟨b, hb, hmem⟩))
  · exact fun line hmem => hbodies line (List.mem_append_right _ hmem)

/-- **Case distinctions.** What is written as one is read, and becomes an assignment of the subject to a
name that is used nowhere else and a chain of conditions. Each branch has one of them with its body,
and its test compares the values of the branch; the body behind `else` is in the last. Whatever other
statements do and whichever comparisons are true, the chain runs the first body with a true comparison,
or else the one behind `else`. -/
theorem case_distinctions (henv : ∀ x ∈ env.extensions, x.Known) (hg : env.Reads g)
    (s : ParserState) :
    (∀ x t, parseCase g s = .ok x t ↔ ∃ subject number bs o, CaseBlock g s subject number bs o t ∧
      x = .multiple (.assign (.internalName (internalName number) s.stream.current.line) subject
          s.stream.current.line ::
        caseChain (internalName number) (bs.map WhenBranch.toCase) (o.getD []))) ∧
    ∀ subject number bs o t, CaseBlock g s subject number bs o t →
      (∀ b ∈ bs, b.values ≠ []) ∧ s.madeUp < number ∧ number ≤ t.madeUp ∧
      Unused (internalName number) subject bs o ∧
      Conditions (internalName number) (o.getD []) bs
        (caseChain (internalName number) (bs.map WhenBranch.toCase) (o.getD [])) ∧
      ∀ (σ : Type) (m : Machine σ) (x : σ),
        runAll m (caseChain (internalName number) (bs.map WhenBranch.toCase) (o.getD [])) x =
          runAll m (chosenBody (m.truth x) (internalName number) bs (o.getD [])) x := by
  refine ⟨fun x t => parseCase_eq_ok henv hg, fun subject number bs o t hblock => ?_⟩
  have hfit := fit_caseBlock (hg.lowering henv s.stream.tokens) (List.suffix_refl _) hblock
  have hconditions : Conditions (internalName number) (o.getD []) bs
      (caseChain (internalName number) (bs.map WhenBranch.toCase) (o.getD [])) :=
    conditions_caseChain fun b hb => (hfit.branches b hb).toCase.1
  exact ⟨fun b hb => (hfit.branches b hb).nonempty, hfit.fresh, hfit.bodies.le, hfit.unused,
    hconditions, fun σ m x => hconditions.run m x⟩

/-- A case distinction with the values `a or b, c` and a body behind `else`. -/
theorem case_distinctions_else :
    let env : Environment := { extensions := [.case] }
    let place (kind : Token.Kind) : Token := ⟨kind, 1, ⟨0, 0⟩⟩
    let text (data : String) : Stmt := .output [.templateData data 1] 1
    let test (value : String) : Expr :=
      .compare (.internalName "$fi1" 1) [⟨.eq, .name value .load 1⟩] 1
    let kinds : List Token.Kind := [.name "case", .name "x", .mark .blockEnd, .mark .blockBegin,
      .name "when", .name "a", .name "or", .name "b", .symbol .comma, .name "c", .mark .blockEnd,
      .data "yes", .mark .blockBegin, .name "else", .mark .blockEnd, .data "no", .mark .blockBegin,
      .name "endcase", .mark .blockEnd]
    let s : ParserState := { stream := .ofTokens (kinds.map place) none none }
    let chain := [.ifThen (.or (.or (test "a") (test "b") 1) (test "c") 1) [text "yes"] [text "no"] 1]
    (∀ x ∈ env.extensions, x.Known) ∧ env.Reads env.grammar ∧
      ∃ t, parseCase env.grammar s = .ok (.multiple
          (.assign (.internalName "$fi1" 1) (.name "x" .load 1) 1 :: chain)) t ∧
        ∃ subject number bs o, CaseBlock env.grammar s subject number bs o t ∧
          Conditions (internalName number) (o.getD []) bs chain ∧
          ∀ (σ : Type) (m : Machine σ) (x : σ), runAll m chain x =
            runAll m (chosenBody (m.truth x) (internalName number) bs (o.getD [])) x := by
  intro env place text test kinds s chain
  have hext : ∀ x ∈ env.extensions, x.Known := List.forall_mem_singleton.2 .case
  have hparse : ∃ t, parseCase env.grammar s = .ok (.multiple
      (.assign (.internalName "$fi1" 1) (.name "x" .load 1) 1 :: chain)) t := ⟨_, by cbv⟩
  obtain ⟨t, hparse⟩ := hparse
  obtain ⟨hread, hmeaning⟩ := case_distinctions hext .whole s
  obtain ⟨subject, number, bs, o, hblock, heq⟩ := (hread _ t).1 hparse
  obtain ⟨-, -, -, -, hconditions, hrun⟩ := hmeaning subject number bs o t hblock
  have hchain : chain = caseChain (internalName number) (bs.map WhenBranch.toCase) (o.getD []) :=
    (List.cons.inj (Expansion.multiple.inj heq)).2
  rw [← hchain] at hconditions hrun
  exact ⟨hext, .whole, t, hparse, subject, number, bs, o, hblock, hconditions, hrun⟩

end LiquidTemplate
