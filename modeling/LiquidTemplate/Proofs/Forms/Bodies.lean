import LiquidTemplate.Proofs.Cases.Blocks
import LiquidTemplate.Proofs.Forms.Expressions

/-!
# Statements made of tokens

The expressions of statements are read of the tokens of the template, or made of such expressions by
a tag. The names that are made up for case distinctions are numbered in the order of the statements.

* `Expr.Consumes`, `Expr.Fit`: the tokens behind the nodes of an expression.
* `Stmt.Fit`: the expressions and the names of a statement.
* `Lowered`: statements with the numbers of their case distinctions.
* `Lowers`: a run of a parser over such statements.
* `lowers_body`, `lowers_statements`: bodies.
-/

namespace LiquidTemplate

open LiquidTemplate.Parser LiquidTemplate.Grammar LiquidTemplate.ParserState

variable {tokens ts us : List Token} {own : Option String} {e d : Expr} {ps : List Piece}
  {s t u v : ParserState} {g : Grammar} {k m n : Nat} {stmt : Stmt} {ss rest : List Stmt}

/-! ### Nodes of expressions -/

/-- **Nodes that the modifiers of a loop** put around its iterable. -/
inductive LoopModifiers.Builds (iter : Expr) : Expr → Prop where
  | part (arg : Expr) : Builds iter (.item iter arg iter.line)
  | slice (start stop : Option Expr) : Builds iter (.slice start stop none iter.line)
  | first : Builds iter (.const (.int 0) iter.line)
  | last : Builds iter (.const .none iter.line)
  | stop (start limit : Expr) : Builds iter (.binary .add start limit iter.line)
  | reverse (part : Expr) : Builds iter (.filter (some part) "reverse" {} iter.line)

/-- **The tokens consumed for a node** are those of `ts` before `us`. The node is read of them or is a
text, or a tag makes it of what is read of them. The name `own` is the one that is made up for the
case distinction to which the node belongs, if there is one. -/
inductive Expr.Consumes (own : Option String) : List Token → List Token → Expr → Prop where
  | read {ts us : List Token} {e : Expr} (h : e.Reads ts us) : Consumes own ts us e
  | text {t : Token} {us : List Token} {data : String} (hk : t.kind = .data data) :
      Consumes own (t :: us) us (.templateData data t.line)
  | negation {ts us : List Token} {e : Expr} (h : Forms ts us [.expr e]) :
      Consumes own ts us (.not e e.line)
  | modifier {t : Token} {ts vs us : List Token} {iter e : Expr}
      (h : Forms ts (t :: vs) [.expr iter]) (hus : us <:+ vs) (he : LoopModifiers.Builds iter e) :
      Consumes own ts us e
  | capitals {t : Token} {ts us : List Token} {e : Expr} (h : Forms ts us [.expr e]) :
      Consumes own (t :: ts) us (.filter (some e) "upcase" {} t.line)
  | subject {t : Token} {ts us : List Token} {name : String} (hown : own = some name) (h : us <:+ ts) :
      Consumes own (t :: ts) us (.internalName name t.line)
  | comparison {t : Token} {ts us : List Token} {name : String} (hown : own = some name)
      (h : us <:+ ts) (value : Expr) :
      Consumes own (t :: ts) us (.compare (.internalName name t.line) [⟨.eq, value⟩] t.line)
  | either {t : Token} {ts us : List Token} {name : String} (hown : own = some name) (h : us <:+ ts)
      (left right : Expr) : Consumes own (t :: ts) us (.or left right t.line)

/-- **A node of a template** for which some of its tokens are consumed. -/
def Expr.ConsumedIn (tokens : List Token) (own : Option String) (e : Expr) : Prop :=
  ∃ source ts us, Token.Source tokens source ∧ ts <:+ source ∧ us <:+ ts ∧ e.Consumes own ts us

/-- **Expressions of a template**: tokens are consumed for all of their nodes. -/
def Expr.Fit (tokens : List Token) (own : Option String) (e : Expr) : Prop :=
  ∀ d ∈ e.walk, d.ConsumedIn tokens own

namespace Expr

theorem Fit.mk (he : e.ConsumedIn tokens own) (hc : ∀ c ∈ e.children, c.Fit tokens own) :
    e.Fit tokens own := by
  intro d hd
  rw [walk_eq] at hd
  rcases List.mem_cons.1 hd with rfl | hd
  · exact he
  · obtain ⟨c, hmem, hd⟩ := List.mem_flatMap.1 hd
    exact hc c hmem d hd

theorem Fit.child (h : e.Fit tokens own) (hd : d ∈ e.children) : d.Fit tokens own := by
  intro c hc
  refine h c ?_
  rw [walk_eq]
  exact List.mem_cons_of_mem _ (List.mem_flatMap.2 ⟨d, hd, hc⟩)

/-- What belongs to no case distinction is fit for any. -/
theorem Fit.widen (h : e.Fit tokens none) (own : Option String) : e.Fit tokens own := by
  intro d hd
  obtain ⟨source, ts, us, hsource, hts, hus, hc⟩ := h d hd
  refine ⟨source, ts, us, hsource, hts, hus, ?_⟩
  cases hc with
  | read h => exact .read h
  | text hk => exact .text hk
  | negation h => exact .negation h
  | modifier h hus he => exact .modifier h hus he
  | capitals h => exact .capitals h
  | subject hown => nomatch hown
  | comparison hown => nomatch hown
  | either hown => nomatch hown

/-- **Expressions that are taken** are fit. -/
theorem fit_of_took (hs : s.stream.tokens <:+ tokens) (h : s.Took t ps) (he : .expr e ∈ ps)
    (own : Option String) : e.Fit tokens own := by
  intro d hd
  obtain ⟨source, ts, us, hsource, hts, hus, hread⟩ := h.forms.walk .template hs he d hd
  exact ⟨source, ts, us, hsource, hts, hus, .read hread⟩

theorem fit_of_expr (hs : s.stream.tokens <:+ tokens) (h : s.Took t [.expr e]) : e.Fit tokens none :=
  fit_of_took hs h List.mem_cons_self none

/-- A node for which tokens of the template itself are consumed. -/
theorem Consumes.consumedIn (h : e.Consumes own ts us) (hts : ts <:+ tokens) (hus : us <:+ ts) :
    e.ConsumedIn tokens own :=
  ⟨tokens, ts, us, .template, hts, hus, h⟩

end Expr

/-! ### Names -/

/-- **Texts of names** among the tokens of a template. -/
def Token.Spelled (tokens : List Token) (text : String) : Prop :=
  ∃ source, Token.Source tokens source ∧ ∃ t ∈ source, t.kind = .name text

/-- **The names in a statement** that are no expressions: those of imports, macros, blocks and
options. -/
def Stmt.names : Stmt → List String
  | importTemplate _ target _ _ => [target]
  | importNames _ names _ _ => names.flatMap fun x => x.name :: x.localName.toList
  | macroBlock name .. | block name .. => [name]
  | optionBlock options .. => options.map Keyword.key
  | _ => []

/-- **Statements of a template**, without their inner ones. -/
structure Stmt.Fit (tokens : List Token) (stmt : Stmt) : Prop where
  exprs : ∀ e ∈ stmt.exprs, e.Fit tokens none
  names : ∀ text ∈ stmt.names, Token.Spelled tokens text

/-- A name that is the current token. -/
theorem Token.spelled_current (hs : s.stream.tokens <:+ tokens) {text : String}
    (hk : s.stream.current.kind = .name text) : Token.Spelled tokens text :=
  ⟨tokens, .template, s.stream.current, hs.subset List.mem_cons_self, hk⟩

/-! ### Case distinctions -/

/-- **A case distinction of a template**: the expressions that are read, and those made of them. -/
structure FitCase (tokens : List Token) (name : String) (line : Nat) (subject : Expr)
    (branches : List CaseBranch) : Prop where
  subject : subject.Fit tokens none
  target : (Expr.internalName name line).Fit tokens (some name)
  values : ∀ b ∈ branches, b.values ≠ [] ∧ ∀ e ∈ b.values, e.Fit tokens none
  tests : ∀ b ∈ branches, ∀ test, b.test? name = some test → test.Fit tokens (some name)

/-- **Statements of a template** whose case distinctions have made-up names with numbers above `m` and
up to `n`, in the order of the statements: that of a case distinction comes before those in its
bodies. -/
inductive Lowered (tokens : List Token) : Nat → Nat → List Stmt → Prop where
  | nil {m n : Nat} (h : m ≤ n) : Lowered tokens m n []
  | plain {m k n : Nat} {stmt : Stmt} {rest : List Stmt} (hfit : stmt.Fit tokens)
      (hbody : Lowered tokens m k stmt.body) (hrest : Lowered tokens k n rest) :
      Lowered tokens m n (stmt :: rest)
  | case {m i k n : Nat} {subject : Expr} {line : Nat} {branches : List CaseBranch}
      {fallback rest : List Stmt} (hm : m ≤ i)
      (hfit : FitCase tokens (internalName (i + 1)) line subject branches)
      (hbodies : Lowered tokens (i + 1) k (branches.flatMap CaseBranch.body ++ fallback))
      (hrest : Lowered tokens k n rest) :
      Lowered tokens m n (.assign (.internalName (internalName (i + 1)) line) subject line ::
        (caseChain (internalName (i + 1)) branches fallback ++ rest))

namespace Lowered

theorem le (h : Lowered tokens m n ss) : m ≤ n := by
  induction h with
  | nil h => exact h
  | plain _ _ _ ih ih' => exact Nat.le_trans ih ih'
  | case hm _ _ _ ih ih' => omega

theorem weaken (h : Lowered tokens m n ss) {m' : Nat} (hm : m' ≤ m) : Lowered tokens m' n ss := by
  induction h generalizing m' with
  | nil h => exact .nil (Nat.le_trans hm h)
  | plain hfit _ hrest ih _ => exact .plain hfit (ih hm) hrest
  | case hi hfit hbodies hrest => exact .case (Nat.le_trans hm hi) hfit hbodies hrest

/-- **Statements one after the other.** -/
theorem append (h : Lowered tokens m k ss) (h' : Lowered tokens k n rest) :
    Lowered tokens m n (ss ++ rest) := by
  induction h with
  | nil hle => exact h'.weaken hle
  | plain hfit hbody _ _ ih => exact .plain hfit hbody (ih h')
  | case hm hfit hbodies _ _ ih =>
    rw [List.cons_append, List.append_assoc]
    exact .case hm hfit hbodies (ih h')

theorem extend (h : Lowered tokens m k ss) (hn : k ≤ n) : Lowered tokens m n ss := by
  rw [← List.append_nil ss]
  exact h.append (.nil hn)

/-- A statement with its inner ones. -/
theorem one (hfit : stmt.Fit tokens) (h : Lowered tokens m n stmt.body) : Lowered tokens m n [stmt] :=
  .plain hfit h (.nil (Nat.le_refl n))

/-- A statement without inner ones. -/
theorem simple (hfit : stmt.Fit tokens) (hbody : stmt.body = []) (h : m ≤ n) :
    Lowered tokens m n [stmt] :=
  .one hfit (hbody ▸ .nil h)

end Lowered

/-! ### Runs over statements -/

/-- **From one state to a later one.** -/
structure ParserState.Before (s t : ParserState) : Prop where
  tokens : t.stream.tokens <:+ s.stream.tokens
  madeUp : s.madeUp ≤ t.madeUp

namespace ParserState

theorem Before.refl (s : ParserState) : s.Before s :=
  ⟨List.suffix_refl _, Nat.le_refl _⟩

theorem Before.trans (h : s.Before t) (h' : t.Before u) : s.Before u :=
  ⟨h'.tokens.trans h.tokens, Nat.le_trans h.madeUp h'.madeUp⟩

theorem Took.before (h : s.Took t ps) : s.Before t :=
  ⟨h.suffix, Nat.le_of_eq h.madeUp.symm⟩

theorem before_stepped (s : ParserState) : s.Before s.stepped :=
  ⟨s.stepped_suffix, Nat.le_refl _⟩

theorem before_twice (s : ParserState) : s.Before s.stepped.stepped :=
  s.before_stepped.trans s.stepped.before_stepped

end ParserState

/-- **A run over statements** of a template. -/
structure Lowers (tokens : List Token) (s t : ParserState) (ss : List Stmt) : Prop where
  before : s.Before t
  lowered : Lowered tokens s.madeUp t.madeUp ss

namespace Lowers

/-- A statement with its inner ones, which are read on the way. -/
theorem one (hsu : s.Before u) (hbody : Lowers tokens u v stmt.body) (hvt : v.Before t)
    (hfit : stmt.Fit tokens) : Lowers tokens s t [stmt] :=
  ⟨hsu.trans (hbody.before.trans hvt),
    .one hfit ((hbody.lowered.weaken hsu.madeUp).extend hvt.madeUp)⟩

/-- A statement without inner ones. -/
theorem simple (hst : s.Before t) (hbody : stmt.body = []) (hfit : stmt.Fit tokens) :
    Lowers tokens s t [stmt] :=
  ⟨hst, .simple hfit hbody hst.madeUp⟩

theorem append (h : Lowers tokens s t ss) (h' : Lowers tokens t u rest) :
    Lowers tokens s u (ss ++ rest) :=
  ⟨h.before.trans h'.before, h.lowered.append h'.lowered⟩

theorem between (h : Lowers tokens t u ss) (hst : s.Before t) (huv : u.Before v) :
    Lowers tokens s v ss :=
  ⟨hst.trans (h.before.trans huv), (h.lowered.weaken hst.madeUp).extend huv.madeUp⟩

theorem nothing (h : s.Before t) : Lowers tokens s t [] :=
  ⟨h, .nil h.madeUp⟩

end Lowers

/-- **Grammars whose statements are made of tokens.** -/
structure Grammar.Lowering (tokens : List Token) (g : Grammar) : Prop extends g.Forming where
  statement : ∀ s x t, s.stream.tokens <:+ tokens → g.statement s = .ok x t →
    Lowers tokens s t x.toList
  branch : ∀ line tag s stmt t, s.stream.tokens <:+ tokens → g.branch line tag s = .ok stmt t →
    Lowers tokens s t [stmt]

/-! ### Bodies -/

/-- **A bracket of the state** keeps what it does not open. -/
theorem of_afterwards {α : Type} {p : Parser α} {f : ParserState → ParserState} {x : α}
    (h : afterwards p f s = .ok x t) : ∃ v, p s = .ok x v ∧ f v = t := by
  unfold afterwards at h
  split at h
  · next y v hv =>
    obtain ⟨rfl, rfl⟩ := EStateM.Result.ok.inj h
    exact ⟨v, hv, rfl⟩
  · nomatch h

/-- What is open has nothing to do with statements. -/
theorem Lowers.of_eq {s' t' : ParserState} (h : Lowers tokens s' t' ss) (hs : s'.stream = s.stream)
    (hs' : s'.madeUp = s.madeUp) (ht : t'.stream = t.stream) (ht' : t'.madeUp = t.madeUp) :
    Lowers tokens s t ss := by
  obtain ⟨⟨hsuf, hle⟩, hlowered⟩ := h
  rw [hs, ht] at hsuf
  rw [hs', ht'] at hle hlowered
  exact ⟨⟨hsuf, hle⟩, hlowered⟩

/-- **A body as far as it has been read.** -/
structure PartialBody.Lowers (tokens : List Token) (s u : ParserState) (b : PartialBody) : Prop where
  stmts : LiquidTemplate.Lowers tokens s u b.stmts
  pending : ∀ e ∈ b.pending, e.Fit tokens none

theorem PartialBody.Lowers.flush {b : PartialBody} (h : b.Lowers tokens s u) :
    LiquidTemplate.Lowers tokens s u b.flush.stmts := by
  obtain ⟨stmts, pending⟩ := b
  cases pending with
  | nil => exact h.stmts
  | cons e es =>
    exact h.stmts.append (.simple (.refl u) rfl ⟨h.pending, nofun⟩)

theorem lowers_output (hg : g.Lowering tokens) (hs : s.stream.tokens <:+ tokens)
    (h : parseOutput g s = .ok e t) : s.Before t ∧ e.Fit tokens none := by
  obtain ⟨e', u, hu, h⟩ := bind_eq_ok.1 h
  obtain ⟨-, h⟩ := of_expect h
  obtain ⟨rfl, rfl⟩ := of_pure h
  have htook := took_anyTuple hg.toForming hu
  exact ⟨htook.before.trans u.before_stepped, Expr.fit_of_expr hs htook⟩

theorem lowers_closedStatement (hg : g.Lowering tokens) (hs : s.stream.tokens <:+ tokens)
    (h : parseClosedStatement g s = .ok ss t) : Lowers tokens s t ss := by
  obtain ⟨x, u, hu, h⟩ := bind_eq_ok.1 h
  obtain ⟨-, h⟩ := of_expect h
  obtain ⟨rfl, rfl⟩ := of_pure h
  exact (hg.statement _ _ _ hs hu).between (.refl s) u.before_stepped

/-- **A body** up to the end of the template or to an end tag. -/
theorem lowers_parts (hg : g.Lowering tokens) (hs : s.stream.tokens <:+ tokens)
    {ends : List TokenRule} (h : repeatFrom (parseBodyPart g ends) {} s = .ok ss t) :
    Lowers tokens s t ss := by
  refine repeatFrom_rule (fun b u => b.Lowers tokens s u) (fun ss t => Lowers tokens s t ss) ?_
    ⟨.nothing (.refl s), nofun⟩ h
  intro b u z v hb hz
  have hu := hb.stmts.before.tokens.trans hs
  have hbehind (hsuf : u.Before v) : Lowers tokens s v b.stmts :=
    hb.stmts.between (.refl s) hsuf
  cases bodyStep_of_ok hz with
  | @text data hk =>
    refine ⟨?_, ?_⟩
    · unfold PartialBody.addText
      split
      · exact hbehind u.before_stepped
      · exact hbehind u.before_stepped
    · unfold PartialBody.addText
      split
      · exact hb.pending
      · refine List.forall_mem_append.2 ⟨hb.pending, List.forall_mem_singleton.2 (.mk ?_ nofun)⟩
        exact Expr.Consumes.consumedIn (.text hk) hu (List.suffix_cons _ u.stream.later)
  | output hk hread =>
    obtain ⟨hbefore, he⟩ := lowers_output hg (u.stepped_suffix.trans hu) hread
    refine ⟨hbehind (u.before_stepped.trans hbefore), ?_⟩
    exact List.forall_mem_append.2 ⟨hb.pending, List.forall_mem_singleton.2 he⟩
  | statement hk hread =>
    have hstmts := lowers_closedStatement hg (u.stepped_suffix.trans hu) hread
    refine ⟨hb.flush.append (hstmts.between u.before_stepped (.refl v)), ?_⟩
    show ∀ e ∈ b.flush.pending, e.Fit tokens none
    rw [b.pending_flush]
    exact nofun
  | endTag hk hfits => exact hb.flush.between (.refl s) u.before_stepped
  | endOfTemplate hk => exact hb.flush

/-- **A body**, before end tags or not. -/
theorem lowers_body (hg : g.Lowering tokens) (hs : s.stream.tokens <:+ tokens)
    {ends : Option (List TokenRule)} (h : parseBody g ends s = .ok ss t) : Lowers tokens s t ss := by
  cases ends with
  | none => exact lowers_parts hg hs h
  | some ends =>
    obtain ⟨v, hv, rfl⟩ := of_afterwards h
    have hparts := lowers_parts (s := { s with expectedEnds := ends :: s.expectedEnds }) hg hs hv
    exact hparts.of_eq rfl rfl rfl rfl

/-- **Bodies of statements.** -/
theorem lowers_statements (hg : g.Lowering tokens) (hs : s.stream.tokens <:+ tokens)
    {ends : List TokenRule} {consume : Bool} (h : parseStatements g ends consume s = .ok ss t) :
    Lowers tokens s t ss := by
  obtain ⟨found, u, hu, h⟩ := bind_eq_ok.1 h
  have hsu : s.Before u := by
    cases found with
    | true =>
      obtain ⟨-, rfl⟩ := skipIf_eq_true.1 hu
      exact s.before_stepped
    | false =>
      obtain ⟨rfl, -⟩ := skipIf_eq_false.1 hu
      exact .refl u
  obtain ⟨-, h⟩ := of_expect h
  obtain ⟨body, v, hbody, h⟩ := bind_eq_ok.1 h
  have hbody := lowers_body hg (u.stepped_suffix.trans (hsu.tokens.trans hs)) hbody
  have hbody := hbody.between (hsu.trans u.before_stepped) (.refl v)
  have h := of_current h
  split at h
  · nomatch h
  · cases consume with
    | true =>
      have h := of_step h
      obtain ⟨rfl, rfl⟩ := of_pure h
      exact hbody.between (.refl s) v.before_stepped
    | false =>
      obtain ⟨rfl, rfl⟩ := of_pure h
      exact hbody

end LiquidTemplate
