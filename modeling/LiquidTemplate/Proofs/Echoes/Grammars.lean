import LiquidTemplate.Proofs.Concatenation.Templates
import LiquidTemplate.Proofs.Echoes.Statements

/-!
# Bodies and templates at other places

A body whose tokens stand at other places has the same statements up to lines, and a template whose
tokens stand on the same lines has just the same tree, wherever they stand on these lines.

* `echoes_known`: the tags of the known extensions.
* `echoes_statement`, `echoes_body`: any statement, and bodies.
* `echoedAll_below`: the bounded grammars, by induction on the bound.
* `body_parallel`: a body at another place.
* `Environment.parseStream_congr`: a template at other places of the same lines.
-/

namespace LiquidTemplate

open LiquidTemplate.Parser LiquidTemplate.Grammar

variable {lines : Bool} {n : Nat} {s s' t : ParserState} {g : Grammar} {env : Environment}

/-! ### Case distinctions -/

namespace Expr

theorem seen_internalName (n : String) (line : Nat) :
    (internalName n line).seen lines = internalName n (seenLine lines line) := by
  cases lines <;> rfl

theorem seen_templateData (data : String) (line : Nat) :
    (templateData data line).seen lines = templateData data (seenLine lines line) := by
  cases lines <;> rfl

theorem map_seen_alternatives (e : Expr) :
    e.alternatives.map (seen lines) = (e.seen lines).alternatives := by
  fun_induction alternatives e
  case case1 left right line ihleft ihright =>
    rw [List.map_append, ihleft, ihright, seen_or, alternatives]
  case case2 e hor =>
    cases e with
    | or left right line => exact absurd rfl (hor left right line)
    | _ => cases lines <;> rfl

end Expr

namespace CaseBranch

/-- **What is seen of a branch.** -/
def seen (lines : Bool) (b : CaseBranch) : CaseBranch :=
  ⟨b.values.map (Expr.seen lines), b.body.map (Stmt.seen lines), seenLine lines b.line⟩

variable (b : CaseBranch) (subject : String)

theorem seen_comparison (value : Expr) : (b.comparison subject value).seen lines =
    (b.seen lines).comparison subject (value.seen lines) := by
  rw [comparison, comparison, Expr.seen_compare, Expr.seen_internalName, List.map_singleton]
  rfl

theorem seen_test? : (b.test? subject).map (Expr.seen lines) = (b.seen lines).test? subject := by
  have hrest (values : List Expr) (first : Expr) :
      (values.foldl (fun e value => Expr.or e (b.comparison subject value) b.line) first).seen lines =
        (values.map (Expr.seen lines)).foldl
          (fun e value => .or e ((b.seen lines).comparison subject value) (seenLine lines b.line))
          (first.seen lines) := by
    induction values generalizing first with
    | nil => rfl
    | cons value values ih =>
      rw [List.map_cons, List.foldl_cons, List.foldl_cons, ih, Expr.seen_or, seen_comparison]
  have hvalues : (b.seen lines).values = b.values.map (Expr.seen lines) := rfl
  unfold test?
  rw [hvalues]
  cases b.values with
  | nil => rfl
  | cons value values =>
    show some (Expr.seen lines _) = some (List.foldl _ _ (values.map (Expr.seen lines)))
    rw [hrest, seen_comparison]
    rfl

end CaseBranch

/-- **Chains of conditions** show nothing but their branches. -/
theorem Stmt.map_seen_caseChain (subject : String) (branches : List CaseBranch) (fallback : List Stmt) :
    (caseChain subject branches fallback).map (seen lines) =
      caseChain subject (branches.map (CaseBranch.seen lines)) (fallback.map (seen lines)) := by
  induction branches with
  | nil => rfl
  | cons b branches ih =>
    unfold caseChain at ih ⊢
    rw [List.map_cons, List.foldr_cons, List.foldr_cons, ← ih, ← b.seen_test?]
    cases b.test? subject with
    | none => rfl
    | some test =>
      rw [Option.map_some, List.map_singleton, seen_ifThen]
      rfl

section Tags

variable (hg : g.EchoedAll lines n)
include hg

theorem echoes_case : Echoes lines n (Expansion.seen lines) (parseCase g) (parseCase g) := by
  have hvalues :
      Echoes lines n (List.map (Expr.seen lines)) (parseWhenValues g) (parseWhenValues g) := by
    refine .loop (d := List.map (Expr.seen lines)) (fun values values' h => ?_) rfl
    refine (hg.expression _ _).bind_value fun e e' he => (echoes_skipIf _).bind fun _ => ?_
    have hmore : (values ++ e.alternatives).map (Expr.seen lines) =
        (values' ++ e'.alternatives).map (Expr.seen lines) := by
      rw [List.map_append, List.map_append, h, e.map_seen_alternatives, e'.map_seen_alternatives, he]
    exact .ite Iff.rfl (.pure_value (congrArg Sum.inl hmore)) (.pure_value (congrArg Sum.inr hmore))
  have hbranch {line line' : Nat} (hline : seenLine lines line = seenLine lines line') :
      Echoes lines n (CaseBranch.seen lines) (parseCaseBranch g line) (parseCaseBranch g line') := by
    refine hvalues.bind_value fun values values' h => (hg.body _ _).bind_value fun body body' hbody => ?_
    exact .pure_value (by rw [CaseBranch.seen, CaseBranch.seen, h, hbody, hline])
  let look (y : List CaseBranch × List Stmt) : List CaseBranch × List Stmt :=
    (y.1.map (CaseBranch.seen lines), y.2.map (Stmt.seen lines))
  have hbranches : Echoes lines n look (parseCaseBranches g) (parseCaseBranches g) := by
    refine .loop (d := look) (fun y y' h => ?_) rfl
    obtain ⟨hbranches, hfallback⟩ := Prod.mk.inj h
    refine echoes_advance.bind_value fun t t' ht => .ite (by rw [Token.isName_of_seen ht]) ?_
      (.ite (by rw [Token.isName_of_seen ht]) ?_ (.pure_value (congrArg Sum.inr h)))
    · refine (hbranch (Token.line_of_seen ht)).bind_value fun b b' hb => .pure_value ?_
      refine congrArg Sum.inl (Prod.ext ?_ hfallback)
      simp only [look, List.map_append, List.map_singleton, hbranches, hb]
    · refine (hg.body _ _).bind_value fun body body' hbody => .pure_value ?_
      exact congrArg Sum.inl (Prod.ext hbranches hbody)
  refine echoes_advance.bind_value fun t t' ht => (hg.expression _ _).bind_value fun e e' he => ?_
  refine (echoes_freshName (Token.line_of_seen ht)).bind_value fun target target' htarget => ?_
  refine (hg.body _ _).bind_value fun _ _ _ => hbranches.bind_value fun y y' h => .pure_value ?_
  obtain ⟨hbranches, hfallback⟩ := Prod.mk.inj h
  refine congrArg Expansion.multiple ?_
  rw [List.map_cons, List.map_cons, Stmt.map_seen_caseChain, Stmt.map_seen_caseChain, Stmt.seen_assign,
    Stmt.seen_assign, htarget, he, Expr.nameText_of_seen htarget, hbranches, hfallback,
    Token.line_of_seen ht]

theorem echoes_do : Echoes lines n (Expansion.seen lines) (parseDo g) (parseDo g) := by
  refine echoes_advance.bind_value fun t t' ht => ?_
  refine (echoes_tuple hg.toEchoed _ _).bind_value fun e e' he => .pure_value ?_
  exact congrArg Expansion.single (by rw [Stmt.seen_expr, Stmt.seen_expr, he, Token.line_of_seen ht])

theorem echoes_shout : Echoes lines n (Expansion.seen lines) (parseShout g) (parseShout g) := by
  refine echoes_advance.bind_value fun t t' ht => (hg.expression _ _).bind_value fun e e' he => ?_
  refine .pure_value (congrArg Expansion.single ?_)
  rw [Stmt.seen_output, Stmt.seen_output, List.map_singleton, List.map_singleton, Expr.seen_filter,
    Expr.seen_filter, Option.map_some, Option.map_some, he, Token.line_of_seen ht]

/-- **The tags of known extensions.** -/
theorem echoes_known {y : Extension} (hy : y.Known) :
    Echoes lines n (Expansion.seen lines) (y.parse g) (y.parse g) := by
  cases hy with
  | doExpr => exact echoes_do hg
  | case => exact echoes_case hg
  | shout _ => exact echoes_shout hg

/-- **Any statement.** -/
theorem echoes_statement (henv : ∀ y ∈ env.extensions, y.Known) :
    Echoes lines n (Expansion.seen lines) (parseStatement env g) (parseStatement env g) := by
  refine echoes_current.bind_value fun t t' ht => ?_
  rw [← Token.name?_of_seen ht]
  cases t.name? with
  | none => exact echoes_failAt
  | some tag =>
    dsimp only
    cases htag : tag? env g tag with
    | none => exact fun _ _ _ _ _ h => nomatch h
    | some p =>
      refine Echoes.inTag ?_ tag
      unfold tag? at htag
      cases hbuiltin : builtin? g tag with
      | some q =>
        rw [hbuiltin] at htag
        obtain rfl := Option.some.inj htag
        exact (echoes_builtin hg hbuiltin).map fun _ _ h => congrArg Expansion.single h
      | none =>
        rw [hbuiltin] at htag
        obtain ⟨y, hy, rfl⟩ := Option.map_eq_some_iff.1 htag
        exact echoes_known hg (henv y (Environment.extension?_mem hy).1)

end Tags

/-! ### Bodies -/

namespace PartialBody

/-- **What is seen of a body** as far as it has been read. -/
def seen (lines : Bool) (b : PartialBody) : PartialBody :=
  ⟨b.stmts.map (Stmt.seen lines), b.pending.map (Expr.seen lines)⟩

variable (b : PartialBody)

theorem seen_flush : b.flush.seen lines = (b.seen lines).flush := by
  obtain ⟨stmts, pending⟩ := b
  cases pending with
  | nil => rfl
  | cons e es => simp [seen, flush, Stmt.seen_output, Expr.line_seen]

theorem seen_addOutput (e : Expr) :
    (b.addOutput e).seen lines = (b.seen lines).addOutput (e.seen lines) := by
  simp [seen, addOutput]

theorem seen_addText (data : String) (line : Nat) :
    (b.addText data line).seen lines = (b.seen lines).addText data (seenLine lines line) := by
  unfold addText
  split
  · rfl
  · rw [seen_addOutput, Expr.seen_templateData]

theorem seen_addStatements (stmts : List Stmt) : (b.addStatements stmts).seen lines =
    (b.seen lines).addStatements (stmts.map (Stmt.seen lines)) := by
  simp [seen, addStatements]

end PartialBody

section Bodies

variable (hg : g.Echoed lines n)
  (hstatement : Echoes lines n (Expansion.seen lines) g.statement g.statement)
include hg hstatement

/-- **Parts of a body.** -/
theorem echoes_bodyPart (ends : List TokenRule) {b b' : PartialBody} (h : b.seen lines = b'.seen lines) :
    Echoes lines n (Sum.map (PartialBody.seen lines) (List.map (Stmt.seen lines)))
      (parseBodyPart g ends b) (parseBodyPart g ends b') := by
  have houtput : Echoes lines n (Expr.seen lines) (parseOutput g) (parseOutput g) :=
    (echoes_tuple hg _ _).bind_value fun _ _ he => (echoes_expect _).bind_value fun _ _ _ =>
      .pure_value he
  have hclosed : Echoes lines n (List.map (Stmt.seen lines)) (parseClosedStatement g)
      (parseClosedStatement g) := by
    refine hstatement.bind_value fun y y' hy => (echoes_expect _).bind_value fun _ _ _ => .pure_value ?_
    have hlist (z : Expansion) : z.toList.map (Stmt.seen lines) = (z.seen lines).toList := by
      cases z <;> rfl
    rw [hlist, hlist, hy]
  have hflush : b.flush.seen lines = b'.flush.seen lines := by
    rw [b.seen_flush, b'.seen_flush, h]
  have hend : Echoes lines n (Sum.map (PartialBody.seen lines) (List.map (Stmt.seen lines)))
      (return .inr b.flush.stmts) (return .inr b'.flush.stmts) :=
    .pure_value (congrArg Sum.inr (PartialBody.mk.inj hflush).1)
  refine echoes_current.bind_value fun t t' ht => ?_
  obtain ⟨kind, line, span⟩ := t
  obtain ⟨kind', line', span'⟩ := t'
  obtain rfl : kind = kind' := Token.kind_of_seen ht
  have hline : seenLine lines line = seenLine lines line' := Token.line_of_seen ht
  dsimp only
  split
  · exact hend
  · refine echoes_step.bind fun _ => .pure_value (congrArg Sum.inl ?_)
    rw [PartialBody.seen_addText, PartialBody.seen_addText, h, hline]
  · refine echoes_step.bind fun _ => houtput.bind_value fun e e' he => .pure_value (congrArg Sum.inl ?_)
    rw [PartialBody.seen_addOutput, PartialBody.seen_addOutput, h, he]
  · refine echoes_step.bind fun _ => echoes_current.bind_value fun u u' hu => ?_
    refine .ite (by rw [Token.fitsAny_of_seen hu]) hend ?_
    refine hclosed.bind_value fun ss ss' hss => .pure_value (congrArg Sum.inl ?_)
    rw [PartialBody.seen_addStatements, PartialBody.seen_addStatements, hflush, hss]
  · exact echoes_failAt

/-- **Bodies.** -/
theorem echoes_body (ends : Option (List TokenRule)) :
    Echoes lines n (List.map (Stmt.seen lines)) (parseBody g ends) (parseBody g ends) := by
  have hparts (rules : List TokenRule) : Echoes lines n (List.map (Stmt.seen lines))
      (repeatFrom (parseBodyPart g rules) {}) (repeatFrom (parseBodyPart g rules) {}) :=
    .loop (fun _ _ h => echoes_bodyPart hg hstatement rules h) rfl
  cases ends with
  | none => exact hparts []
  | some rules => exact (hparts rules).awaiting rules

/-- **The body of a statement.** -/
theorem echoes_statements (ends : List TokenRule) (consume : Bool) :
    Echoes lines n (List.map (Stmt.seen lines)) (parseStatements g ends consume)
      (parseStatements g ends consume) := by
  refine (echoes_skipIf _).bind fun _ => (echoes_expect _).bind_value fun _ _ _ => ?_
  refine (echoes_body hg hstatement _).bind_value fun body body' h => ?_
  refine echoes_current.bind_value fun t t' ht => .ite ?_ (fun _ _ _ _ _ h => nomatch h)
    (.ite Iff.rfl (echoes_step.bind fun _ => .pure_value h) (.pure_value h))
  rw [Token.isEnd, Token.isEnd, Token.isMark, Token.isMark, Token.type_of_seen ht]

end Bodies

/-! ### Grammars -/

/-- What is read below a bound. -/
theorem echoes_guarded {α γ : Type} {d : α → γ} {p p' : Nat → Parser α}
    (h : ∀ j, j < n → Echoes lines j d (p j) (p' j)) :
    Echoes lines n d (guarded n fun s _ => p s.weight s) (guarded n fun s _ => p' s.weight s) := by
  intro s s' y t hs hy
  obtain ⟨hlt, hy⟩ := guarded_eq_ok hy
  obtain ⟨y', t', hy', hsee, ht⟩ := h s.weight hlt s s' y t hs.own hy
  refine ⟨y', t', ?_, hsee, ht.mono hs.weight_le⟩
  rw [guarded_of_lt (hs.weight ▸ hlt), ← hs.weight]
  exact hy'

/-- **The bounded grammars**, since their references are to those of smaller bounds. -/
theorem echoedAll_below (henv : ∀ y ∈ env.extensions, y.Known) (lines : Bool) (n : Nat) :
    (below env n).EchoedAll lines n := by
  induction n using Nat.strongRecOn with
  | _ n ih =>
    have hechoed := echoed_below env lines n
    have hstatement : Echoes lines n (Expansion.seen lines) (below env n).statement
        (below env n).statement := by
      rw [below_statement]
      exact echoes_guarded fun j hj => echoes_statement (ih j hj) henv
    refine { hechoed with statement := hstatement, branch := fun tag hline => ?_, body := ?_ }
    · rw [below_branch, below_branch]
      exact echoes_guarded fun j hj => echoes_branch (ih j hj) hline tag false
    · exact echoes_statements hechoed hstatement

/-- What is read with the grammar for what is left. -/
theorem echoes_weighed {α γ : Type} {d : α → γ} {p : Nat → Parser α}
    (h : ∀ j, Echoes lines j d (p j) (p j)) :
    Echoes lines n d (fun s => p s.weight s) (fun s => p s.weight s) := by
  intro s s' y t hs hy
  obtain ⟨y', t', hy', hsee, ht⟩ := h s.weight s s' y t hs.own hy
  rw [hs.weight] at hy'
  exact ⟨y', t', hy', hsee, ht.mono hs.weight_le⟩

/-- **A body at another place**: its statements look the same. -/
theorem body_parallel (henv : ∀ y ∈ env.extensions, y.Known) {ends : Option (List TokenRule)}
    {body : List Stmt} (hs : s.Parallel lines n s') (h : env.grammar.parseBody ends s = .ok body t) :
    ∃ body' t', env.grammar.parseBody ends s' = .ok body' t' ∧
      body.map (Stmt.seen lines) = body'.map (Stmt.seen lines) ∧ t.Parallel lines n t' := by
  have hstatement : Echoes lines n (Expansion.seen lines) env.grammar.statement env.grammar.statement :=
    echoes_weighed (p := fun j => parseStatement env (below env j)) fun j =>
      echoes_statement (echoedAll_below henv lines j) henv
  exact echoes_body (echoed_grammar env lines n) hstatement ends s s' body t hs h

/-- **A template at other places** of the same lines has the same tree, if it has any. -/
theorem Environment.parseStream_congr (henv : ∀ y ∈ env.extensions, y.Known) {a b : TokenStream}
    (h : a.tokens.map (Token.seen true) = b.tokens.map (Token.seen true)) :
    (env.parseStream a).toOption = (env.parseStream b).toOption := by
  have hgo {a b : TokenStream} (h : a.tokens.map (Token.seen true) = b.tokens.map (Token.seen true))
      {body : List Stmt} (hbody : env.parseStream a = .ok body) : env.parseStream b = .ok body := by
    obtain ⟨t, ht⟩ := parseStream_eq_ok.1 hbody
    have hparallel : ParserState.Parallel true _ { stream := a } { stream := b } :=
      ⟨h, rfl, Nat.le_refl _⟩
    obtain ⟨body', t', ht', hsame, -⟩ := body_parallel henv hparallel ht
    rw [Stmt.seen_true, List.map_id, List.map_id] at hsame
    exact parseStream_eq_ok.2 ⟨t', hsame ▸ ht'⟩
  cases ha : env.parseStream a with
  | ok body => rw [hgo h ha]
  | error e =>
    cases hb : env.parseStream b with
    | ok body => exact nomatch (hgo h.symm hb).symm.trans ha
    | error e' => rfl

end LiquidTemplate
