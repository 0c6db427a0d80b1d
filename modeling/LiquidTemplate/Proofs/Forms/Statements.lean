import LiquidTemplate.Proofs.Forms.Tags
import LiquidTemplate.Proofs.Trees.Templates

/-!
# Templates made of tokens

A case distinction, and then every tag, makes statements of the tokens behind its name. So do the
grammars of all environments whose extensions are known, and so they do for whole templates.

* `WhenBranch.Fit`, `Grammar.CaseBlock.Fit`, `lowers_case`: case distinctions.
* `lowers_builtin`, `lowers_known`, `lowers_statement`: the tags.
* `lowering_below`, `lowering_grammar`: the bounded grammars, and that of an environment.
* `lowered_of_template`: the statements of a template.
-/

namespace LiquidTemplate

open LiquidTemplate.Parser LiquidTemplate.Grammar LiquidTemplate.ParserState

variable {tokens : List Token} {own : Option String} {e : Expr} {s t u v : ParserState} {g : Grammar}
  {stmt : Stmt} {tag : String} {env : Environment}

/-! ### Case distinctions -/

/-- The alternatives of an expression are parts of it. -/
theorem Expr.Fit.alternatives (h : e.Fit tokens own) : ∀ x ∈ e.alternatives, x.Fit tokens own := by
  induction e using Expr.alternatives.induct with
  | case1 left right line ihl ihr =>
    rw [Expr.alternatives]
    refine List.forall_mem_append.2 ⟨ihl (h.child List.mem_cons_self), ihr (h.child ?_)⟩
    exact List.mem_cons_of_mem _ List.mem_cons_self
  | case2 e hor =>
    rw [Expr.alternatives]
    · exact List.forall_mem_singleton.2 h
    · exact hor

theorem Expr.alternatives_ne_nil (e : Expr) : e.alternatives ≠ [] := by
  induction e using Expr.alternatives.induct with
  | case1 left right line ihl _ =>
    rw [Expr.alternatives]
    exact List.append_ne_nil_of_left_ne_nil ihl _
  | case2 e hor =>
    rw [Expr.alternatives]
    · exact List.cons_ne_nil _ _
    · exact hor

/-- **Values of a branch**, at least one. -/
theorem fit_whenValues (hg : g.Forming) (hs : s.stream.tokens <:+ tokens) {es : List Expr}
    (h : WhenValues g s es t) : s.Before t ∧ es ≠ [] ∧ ∀ e ∈ es, e.Fit tokens none := by
  induction h with
  | last he _ =>
    obtain ⟨hbefore, he⟩ := before_expression hg hs he
    exact ⟨hbefore, List.cons_ne_nil _ _, List.forall_mem_singleton.2 he⟩
  | @more s t u e es he _ _ ih =>
    obtain ⟨hst, he⟩ := before_expression hg hs he
    have hst := hst.trans t.before_stepped
    obtain ⟨htu, -, hes⟩ := ih (hst.tokens.trans hs)
    exact ⟨hst.trans htu, List.cons_ne_nil _ _, List.forall_mem_cons.2 ⟨he, hes⟩⟩

/-- **A branch of a template.** -/
structure WhenBranch.Fit (tokens : List Token) (b : WhenBranch) : Prop where
  nonempty : b.values ≠ []
  values : ∀ e ∈ b.values, e.Fit tokens none
  line : ∃ tok ts us, tok :: ts <:+ tokens ∧ us <:+ ts ∧ tok.line = b.line

namespace WhenBranch.Fit

variable {b : WhenBranch}

/-- The values that are compared. -/
theorem toCase (h : b.Fit tokens) :
    b.toCase.values ≠ [] ∧ ∀ e ∈ b.toCase.values, e.Fit tokens none := by
  constructor
  · obtain ⟨e, es, hvalues⟩ := List.exists_cons_of_ne_nil h.nonempty
    show b.values.flatMap Expr.alternatives ≠ []
    rw [hvalues, List.flatMap_cons]
    exact List.append_ne_nil_of_left_ne_nil e.alternatives_ne_nil _
  · intro x hx
    obtain ⟨e, he, hx⟩ := List.mem_flatMap.1 hx
    exact (h.values e he).alternatives x hx

/-- **The test of a branch** stands on the line of its tag. -/
theorem test (h : b.Fit tokens) {name : String} {test : Expr} (htest : b.toCase.test? name = some test) :
    test.Fit tokens (some name) := by
  obtain ⟨tok, ts, us, hts, hus, hline⟩ := h.line
  have hsuf : us <:+ tok :: ts := hus.trans (List.suffix_cons _ _)
  have hnode {d : Expr} (hd : d.Consumes (some name) (tok :: ts) us) :
      d.ConsumedIn tokens (some name) := hd.consumedIn hts hsuf
  have hcomparison (value : Expr) (hvalue : value.Fit tokens none) :
      (b.toCase.comparison name value).Fit tokens (some name) := by
    have hname : (Expr.internalName name b.line).Fit tokens (some name) :=
      .mk (hline ▸ hnode (.subject rfl hus)) nofun
    refine .mk ?_ ?_
    · show Expr.ConsumedIn tokens (some name) (.compare (.internalName name b.line) _ b.line)
      exact hline ▸ hnode (.comparison rfl hus value)
    · exact List.forall_mem_cons.2 ⟨hname, List.forall_mem_singleton.2 (hvalue.widen _)⟩
  have hrest (values : List Expr) (hvalues : ∀ e ∈ values, e.Fit tokens none) (first : Expr)
      (hfirst : first.Fit tokens (some name)) :
      (values.foldl (fun e value => Expr.or e (b.toCase.comparison name value) b.line) first).Fit tokens
        (some name) := by
    induction values generalizing first with
    | nil => exact hfirst
    | cons value values ih =>
      have hvalue := hcomparison value (hvalues value List.mem_cons_self)
      refine ih (fun e he => hvalues e (List.mem_cons_of_mem _ he)) _ ?_
      refine .mk (hline ▸ hnode (.either rfl hus first _)) ?_
      exact List.forall_mem_cons.2 ⟨hfirst, List.forall_mem_singleton.2 hvalue⟩
  obtain ⟨hne, hvalues⟩ := h.toCase
  obtain ⟨value, values, heq⟩ := List.exists_cons_of_ne_nil hne
  rw [heq] at hvalues
  unfold CaseBranch.test? at htest
  rw [heq] at htest
  obtain rfl := Option.some.inj htest
  refine hrest values (fun e he => hvalues e (List.mem_cons_of_mem _ he)) _ ?_
  exact hcomparison value (hvalues value List.mem_cons_self)

end WhenBranch.Fit

/-- **Branches** with their bodies, in order. -/
theorem lowers_whenBranches (hg : g.Lowering tokens) (hs : s.stream.tokens <:+ tokens)
    {bs : List WhenBranch} {o : Option (List Stmt)} (h : WhenBranches g s bs o t) :
    Lowers tokens s t (bs.flatMap WhenBranch.body ++ o.getD []) ∧ ∀ b ∈ bs, b.Fit tokens := by
  induction h with
  | @finish s _ => exact ⟨.nothing s.before_stepped, nofun⟩
  | @otherwise s t body _ hbody =>
    have hbody := lowers_statements hg (s.stepped_suffix.trans hs) hbody
    exact ⟨hbody.between s.before_stepped t.before_stepped, nofun⟩
  | @branch s t u v es body bs o hwhen hvalues hbody _ ih =>
    obtain ⟨hst, hne, hes⟩ := fit_whenValues hg.toForming (s.stepped_suffix.trans hs) hvalues
    have hlater : s.stepped.stream.tokens = s.stream.later :=
      stepped_tokens (Token.isEnd_of_kind hwhen nofun)
    have hline : ∃ tok ts us, tok :: ts <:+ tokens ∧ us <:+ ts ∧ tok.line = s.stream.current.line :=
      ⟨s.stream.current, s.stream.later, t.stream.tokens, hs, hlater ▸ hst.tokens, rfl⟩
    have hst := s.before_stepped.trans hst
    have hbody := lowers_statements hg (hst.tokens.trans hs) hbody
    obtain ⟨hrest, hbs⟩ := ih ((hst.trans hbody.before).tokens.trans hs)
    refine ⟨?_, List.forall_mem_cons.2 ⟨⟨hne, hes, hline⟩, hbs⟩⟩
    rw [List.flatMap_cons, List.append_assoc]
    exact (hbody.append hrest).between hst (.refl v)

/-- **What a case distinction is made of.** -/
structure Grammar.CaseBlock.Fit (tokens : List Token) (s : ParserState) (subject : Expr) (number : Nat)
    (bs : List WhenBranch) (o : Option (List Stmt)) (t : ParserState) : Prop where
  before : s.Before t
  subject : subject.Fit tokens none
  branches : ∀ b ∈ bs, b.Fit tokens
  /-- The number of its name is new, and those in its bodies are higher. -/
  fresh : s.madeUp < number
  bodies : Lowered tokens number t.madeUp (bs.flatMap WhenBranch.body ++ o.getD [])

theorem fit_caseBlock (hg : g.Lowering tokens) (hs : s.stream.tokens <:+ tokens) {subject : Expr}
    {number : Nat} {bs : List WhenBranch} {o : Option (List Stmt)}
    (h : CaseBlock g s subject number bs o t) : CaseBlock.Fit tokens s subject number bs o t := by
  obtain ⟨u, dropped, v, hu, rfl, hdropped, hbs⟩ := h.read
  have hstep := s.before_stepped
  obtain ⟨hsu, hsubject⟩ := before_expression hg.toForming (hstep.tokens.trans hs) hu
  have hsu := hstep.trans hsu
  have hdropped := (lowers_statements (s := { u with madeUp := u.madeUp + 1 }) hg
    (hsu.tokens.trans hs) hdropped).before
  have hsv : v.stream.tokens <:+ s.stream.tokens := hdropped.tokens.trans hsu.tokens
  obtain ⟨hbodies, hfit⟩ := lowers_whenBranches hg (hsv.trans hs) hbs
  have hnumber : s.madeUp ≤ u.madeUp := hsu.madeUp
  have hmadeUp : u.madeUp + 1 ≤ v.madeUp := hdropped.madeUp
  have hbefore : s.madeUp ≤ t.madeUp :=
    Nat.le_trans hnumber (Nat.le_trans (Nat.le_of_succ_le hmadeUp) hbodies.before.madeUp)
  exact ⟨⟨hbodies.before.tokens.trans hsv, hbefore⟩, hsubject, hfit, Nat.lt_succ_of_le hnumber,
    hbodies.lowered.weaken hmadeUp⟩

/-- **Case distinctions.** -/
theorem lowers_case (hg : g.Lowering tokens) (hs : s.stream.tokens <:+ tokens) {x : Expansion}
    (h : parseCase g s = .ok x t) : Lowers tokens s t x.toList := by
  obtain ⟨subject, number, bs, o, hblock, rfl⟩ := caseBlock_of_ok h
  obtain ⟨hbefore, hsubject, hfit, hnumber, hbodies⟩ := fit_caseBlock hg hs hblock
  obtain ⟨i, rfl⟩ : ∃ i, number = i + 1 := Nat.exists_eq_add_one.2 (Nat.zero_lt_of_lt hnumber)
  have htarget : (Expr.internalName (internalName (i + 1)) s.stream.current.line).Fit tokens
      (some (internalName (i + 1))) := by
    refine .mk ((Expr.Consumes.subject rfl (List.suffix_refl _)).consumedIn hs ?_) nofun
    exact List.suffix_cons _ _
  have hcase : FitCase tokens (internalName (i + 1)) s.stream.current.line subject
      (bs.map WhenBranch.toCase) := by
    refine ⟨hsubject, htarget, List.forall_mem_map.2 fun b hb => (hfit b hb).toCase,
      List.forall_mem_map.2 fun b hb test htest => (hfit b hb).test htest⟩
  rw [← List.append_nil (caseChain _ _ _)]
  refine ⟨hbefore, .case (Nat.le_of_lt_succ hnumber) hcase ?_ (.nil (Nat.le_refl _))⟩
  rw [List.flatMap_map]
  exact hbodies

/-! ### All tags -/

/-- **The tags of every environment.** -/
theorem lowers_builtin (hg : g.Lowering tokens) (hs : s.stream.tokens <:+ tokens)
    (hname : s.stream.current.kind = .name tag) {p : Parser Stmt} (hp : builtin? g tag = some p)
    (h : p s = .ok stmt t) : Lowers tokens s t [stmt] := by
  have hcondition {word tag : String} {negate : Bool} (h : (do
      let line := (← expectName word).line
      parseBranch g line tag negate) s = .ok stmt t) : Lowers tokens s t [stmt] := by
    obtain ⟨-, h⟩ := of_expect h
    exact (lowers_branch hg (s.stepped_suffix.trans hs) h).between s.before_stepped (.refl t)
  unfold builtin? at hp
  split at hp
  case h_1 => exact lowers_for hg hs (Option.some.inj hp ▸ h)
  case h_2 => exact hcondition (Option.some.inj hp ▸ h)
  case h_3 => exact hcondition (Option.some.inj hp ▸ h)
  case h_4 =>
    obtain rfl := Option.some.inj hp
    have h := of_advance h
    obtain ⟨rfl, rfl⟩ := of_pure h
    exact .simple s.before_stepped rfl ⟨nofun, nofun⟩
  case h_5 =>
    obtain rfl := Option.some.inj hp
    have h := of_advance h
    obtain ⟨rfl, rfl⟩ := of_pure h
    exact .simple s.before_stepped rfl ⟨nofun, nofun⟩
  case h_6 => exact lowers_block hg hs (Option.some.inj hp ▸ h)
  case h_7 => exact lowers_extends hg hs (Option.some.inj hp ▸ h)
  case h_8 => exact lowers_print hg hs (Option.some.inj hp ▸ h)
  case h_9 => exact lowers_macro hg hs (Option.some.inj hp ▸ h)
  case h_10 => exact lowers_inclusion hg hs (fun _ _ _ _ => ⟨rfl, rfl, rfl⟩) (Option.some.inj hp ▸ h)
  case h_11 => exact lowers_inclusion hg hs (fun _ _ _ _ => ⟨rfl, rfl, rfl⟩) (Option.some.inj hp ▸ h)
  case h_12 => exact lowers_from hg hs (Option.some.inj hp ▸ h)
  case h_13 => exact lowers_import hg hs (Option.some.inj hp ▸ h)
  case h_14 => exact lowers_set hg hs (Option.some.inj hp ▸ h)
  case h_15 => exact lowers_set hg hs (Option.some.inj hp ▸ h)
  case h_16 => exact lowers_set hg hs (Option.some.inj hp ▸ h)
  case h_17 => exact lowers_with hg hs (Option.some.inj hp ▸ h)
  case h_18 => exact lowers_autoescape hg hs hname (Option.some.inj hp ▸ h)
  case h_19 => exact lowers_callBlock hg hs (Option.some.inj hp ▸ h)
  case h_20 => exact lowers_filterBlock hg hs (Option.some.inj hp ▸ h)
  case h_21 => nomatch hp

/-- **The tags of known extensions.** -/
theorem lowers_known (hg : g.Lowering tokens) (hs : s.stream.tokens <:+ tokens)
    (hend : s.stream.current.isEnd = false) {x : Extension} (hx : x.Known) {y : Expansion}
    (h : x.parse g s = .ok y t) : Lowers tokens s t y.toList := by
  cases hx with
  | doExpr =>
    have h := of_advance h
    obtain ⟨e, u, hu, h⟩ := bind_eq_ok.1 h
    obtain ⟨rfl, rfl⟩ := of_pure h
    have htook := took_anyTuple hg.toForming hu
    have he := Expr.fit_of_expr (s.stepped_suffix.trans hs) htook
    exact .simple (s.before_stepped.trans htook.before) rfl ⟨List.forall_mem_singleton.2 he, nofun⟩
  | case => exact lowers_case hg hs h
  | shout _ =>
    have h := of_advance h
    obtain ⟨e, u, hu, h⟩ := bind_eq_ok.1 h
    obtain ⟨rfl, rfl⟩ := of_pure h
    have htook := took_expression hg.toForming _ _ hu
    have he := Expr.fit_of_expr (s.stepped_suffix.trans hs) htook
    have hforms := htook.forms
    rw [stepped_tokens hend] at hforms
    have hfilter : (Expr.filter (some e) "upcase" {} s.stream.current.line).Fit tokens none := by
      refine .mk ((Expr.Consumes.capitals hforms).consumedIn hs ?_) (List.forall_mem_singleton.2 he)
      exact hforms.suffix.trans (List.suffix_cons _ _)
    exact .simple (s.before_stepped.trans htook.before) rfl
      ⟨List.forall_mem_singleton.2 hfilter, nofun⟩

/-- **Any statement.** -/
theorem lowers_statement (henv : ∀ x ∈ env.extensions, x.Known) (hg : g.Lowering tokens)
    (hs : s.stream.tokens <:+ tokens) {x : Expansion} (h : parseStatement env g s = .ok x t) :
    Lowers tokens s t x.toList := by
  have h : Gives _ s x t := of_current h
  split at h
  · exact absurd h (failAt_ne_ok _ _)
  · next tag htag =>
    have hname := Token.name?_eq_some_iff.1 htag
    split at h
    · next p hp =>
      obtain ⟨v, hv, rfl⟩ := of_afterwards h
      have hlowers : Lowers tokens { s with openTags := tag :: s.openTags } v x.toList := by
        unfold tag? at hp
        split at hp
        · next q hq =>
          obtain rfl := Option.some.inj hp
          obtain ⟨stmt, hstmt, rfl⟩ := map_eq_ok.1 hv
          exact lowers_builtin hg hs hname hq hstmt
        · obtain ⟨y, hy, rfl⟩ := Option.map_eq_some_iff.1 hp
          have hend := Token.isEnd_of_kind hname nofun
          exact lowers_known (s := { s with openTags := tag :: s.openTags }) hg hs hend
            (henv y (Environment.extension?_mem hy).1) hv
      exact hlowers.of_eq rfl rfl rfl rfl
    · nomatch h

/-! ### Grammars -/

/-- **The bounded grammars**, since their references are to those of smaller bounds. -/
theorem lowering_below (henv : ∀ x ∈ env.extensions, x.Known) (tokens : List Token) (n : Nat) :
    (below env n).Lowering tokens := by
  induction n using Nat.strongRecOn with
  | _ n ih =>
    refine { toForming := forming_below env n, statement := ?_, branch := ?_ }
    · intro s x t hs h
      rw [below_statement] at h
      obtain ⟨hlt, h⟩ := guarded_eq_ok (p := fun j => parseStatement env (below env j)) h
      exact lowers_statement henv (ih _ hlt) hs h
    · intro line tag s stmt t hs h
      rw [below_branch] at h
      obtain ⟨hlt, h⟩ := guarded_eq_ok (p := fun j => parseBranch (below env j) line tag false) h
      exact lowers_branch (ih _ hlt) hs h

/-- **The grammar of an environment.** -/
theorem lowering_grammar (henv : ∀ x ∈ env.extensions, x.Known) (tokens : List Token) :
    env.grammar.Lowering tokens := by
  have hlowering (n : Nat) := lowering_below henv tokens n
  refine { toForming := forming_grammar env, statement := ?_, branch := ?_ }
  · exact fun s x t hs h => lowers_statement henv (hlowering _) hs h
  · exact fun line tag s stmt t hs h => lowers_branch (hlowering _) hs h

/-- **The statements of a stream** are made of its tokens. -/
theorem lowered_of_stream (henv : ∀ x ∈ env.extensions, x.Known) {stream : TokenStream}
    {body : List Stmt} (h : env.parseStream stream = .ok body) :
    ∃ n, Lowered stream.tokens 0 n body := by
  obtain ⟨t, hbody⟩ := parseStream_eq_ok.1 h
  have hparts : repeatFrom (parseBodyPart env.grammar []) {} { stream } = .ok body t := hbody
  have hlowers := lowers_parts (lowering_grammar henv stream.tokens) (List.suffix_refl _) hparts
  exact ⟨t.madeUp, hlowers.lowered⟩

/-- **The statements of a template** are made of its tokens. -/
theorem lowered_of_template (henv : ∀ x ∈ env.extensions, x.Known) {source : String}
    {name filename : Option String} {body : List Stmt}
    (h : env.parseTemplate source name filename = .ok body) :
    ∃ tokens n, Token.ofTemplate env.delimiters source = .ok tokens ∧ Lowered tokens 0 n body := by
  obtain ⟨tokens, htokens, h⟩ := parseTemplate_eq_ok.1 h
  obtain ⟨n, hlowered⟩ := lowered_of_stream henv h
  rw [TokenStream.tokens_ofTokens, TokenStream.close_ofTemplate htokens] at hlowered
  exact ⟨tokens, n, htokens, hlowered⟩

end LiquidTemplate
