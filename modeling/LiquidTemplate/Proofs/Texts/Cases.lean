import LiquidTemplate.Extension.Case
import LiquidTemplate.Proofs.Texts.Tags

/-!
# Texts of case distinctions

A case distinction keeps the texts of its branches, though their bodies come to stand inside of each
other. The text before the first branch is not in the tree.

* `caseTexts`, `textsOf_caseChain`: the chain of conditions has the texts of the branches.
* `ToldBranches`: what has been told of the branches between two of them.
* `nextBranch_cases`: what the tag behind a branch begins.
* `told_branch`, `told_branches`: one branch, and all of them.
* `tells_case`: the tag.
-/

namespace LiquidTemplate

open LiquidTemplate.Parser LiquidTemplate.Grammar

variable {drops : List Bool} {g : Grammar} {s t : ParserState} {subject : String}
  {branches : List CaseBranch} {fallback : List Stmt}

/-! ### Chains of conditions -/

/-- The alternatives of an expression without text. -/
theorem textless_alternatives {e : Expr} (he : e.Textless) :
    e.alternatives ≠ [] ∧ ∀ x ∈ e.alternatives, x.Textless := by
  induction e using Expr.alternatives.induct with
  | case1 left right line ihl ihr =>
      have hl := ihl (he.children List.mem_cons_self)
      have hr := ihr (he.children (List.mem_cons_of_mem _ List.mem_cons_self))
      rw [Expr.alternatives]
      exact ⟨fun h => hl.1 (List.append_eq_nil_iff.1 h).1, textless_append hl.2 hr.2⟩
  | case2 e hor =>
      have hone : e.alternatives = [e] := by
        rw [Expr.alternatives]
        exact hor
      rw [hone]
      exact ⟨nofun, textless_one he⟩

/-- **A branch that is sound**: it has a condition, and there is no text in it. -/
def CaseBranch.Sound (b : CaseBranch) : Prop :=
  b.values ≠ [] ∧ ∀ e ∈ b.values, e.Textless

theorem CaseBranch.textless_comparison (b : CaseBranch) (subject : String) {value : Expr}
    (hv : value.Textless) : (b.comparison subject value).Textless := by
  have hsubject : (Expr.internalName subject b.line).Textless := .of_children rfl nofun
  exact .of_children rfl (textless_cons hsubject (textless_one hv))

/-- Further comparisons bring no text into a condition. -/
theorem CaseBranch.textless_tests (b : CaseBranch) {values : List Expr}
    (hvalues : ∀ e ∈ values, e.Textless) {test : Expr} (ht : test.Textless) :
    (values.foldl (fun e value => .or e (b.comparison subject value) b.line) test).Textless := by
  induction values generalizing test with
  | nil => exact ht
  | cons value values ih =>
      have hvalue := b.textless_comparison subject (hvalues value List.mem_cons_self)
      exact ih (fun e he => hvalues e (List.mem_cons_of_mem _ he))
        (.of_children rfl (textless_cons ht (textless_one hvalue)))

theorem CaseBranch.Sound.test {b : CaseBranch} (hb : b.Sound) (subject : String) :
    ∃ test, b.test? subject = some test ∧ test.Textless := by
  obtain ⟨values, body, line⟩ := b
  obtain ⟨hne, hvalues⟩ := hb
  cases values with
  | nil => exact absurd rfl hne
  | cons value values =>
      have hvalue := CaseBranch.textless_comparison ⟨value :: values, body, line⟩ subject
        (hvalues value List.mem_cons_self)
      exact ⟨_, rfl, CaseBranch.textless_tests _
        (fun e he => hvalues e (List.mem_cons_of_mem _ he)) hvalue⟩

/-- **Texts of branches** and of what is done if none of them fits. -/
def caseTexts (branches : List CaseBranch) (fallback : List Stmt) : Texts :=
  branches.flatMap (fun b => textsOf b.body) ++ textsOf fallback

theorem caseTexts_branch (branches : List CaseBranch) (b : CaseBranch) :
    caseTexts (branches ++ [b]) [] = caseTexts branches [] ++ textsOf b.body := by
  have hnil : textsOf [] = [] := rfl
  simp [caseTexts, hnil]

theorem caseTexts_fallback (branches : List CaseBranch) (fallback : List Stmt) :
    caseTexts branches fallback = caseTexts branches [] ++ textsOf fallback := by
  have hnil : textsOf [] = [] := rfl
  rw [caseTexts, caseTexts, hnil, List.append_nil]

/-- **The chain of conditions** has the texts of the branches. -/
theorem textsOf_caseChain (hb : ∀ b ∈ branches, b.Sound) :
    textsOf (caseChain subject branches fallback) = caseTexts branches fallback := by
  induction branches with
  | nil => rfl
  | cons b branches ih =>
      have hrest := ih fun b' hb' => hb b' (List.mem_cons_of_mem _ hb')
      obtain ⟨test, htest, htextless⟩ := (hb b List.mem_cons_self).test subject
      have hchain : caseChain subject (b :: branches) fallback =
          [.ifThen test b.body (caseChain subject branches fallback) b.line] := by
        rw [caseChain, List.foldr_cons, htest]
        rfl
      have hexprs : ∀ e ∈ (Stmt.ifThen test b.body (caseChain subject branches fallback)
          b.line).exprs, e.Textless := textless_one htextless
      rw [hchain, textsOf_singleton, Stmt.texts_eq_body hexprs]
      show textsOf (b.body ++ caseChain subject branches fallback) = _
      rw [textsOf_append, hrest, caseTexts, caseTexts, List.flatMap_cons, List.append_assoc]

/-! ### Branches -/

/-- **Values of a branch**: at least one, and no text in them. -/
theorem quiet_whenValues (hg : g.Hushed) :
    Quiet (parseWhenValues g) s (fun es => es ≠ [] ∧ ∀ e ∈ es, e.Textless) := by
  refine Quiet.loop (fun es => ∀ e ∈ es, e.Textless) nofun fun es hes s => ?_
  refine (quiet_expression hg false true s).bind fun e he t => ?_
  obtain ⟨hne, halternatives⟩ := textless_alternatives he
  refine Quiet.skips trivial ?_ ?_
  · exact Quiet.pure (textless_append hes halternatives)
  · refine Quiet.pure ⟨fun h => hne (List.append_eq_nil_iff.1 h).2, ?_⟩
    exact textless_append hes halternatives

/-- The tags behind the body of a branch. -/
def branchTags : List String :=
  ["when", "else", "endcase"]

/-- **One branch**, from behind its `when` up to the name of the next tag. -/
theorem told_branch (drops : List Bool) (hg : g.Faithful true) {line : Nat} {b : CaseBranch}
    (hw : s.Worded) (h : parseCaseBranch g line s = .ok b t) :
    b.Sound ∧ (∃ tag ∈ branchTags, t.stream.current.kind = .name tag) ∧
      t.stream.tokens <:+ s.stream.tokens ∧
      keptFrom true ⟨false, drops⟩ s.stream.tokens = Place.kept ⟨false, drops⟩ (textsOf b.body) ++
        keptFrom true ⟨true, drops⟩ t.stream.tokens := by
  obtain ⟨values, u, hu, h⟩ := bind_eq_ok.1 h
  obtain ⟨hpass, hvalues⟩ := quiet_whenValues hg.toHushed _ _ hu
  obtain ⟨body, v, hv, h⟩ := bind_eq_ok.1 h
  obtain ⟨rfl, rfl⟩ := EStateM.Result.ok.inj h
  have hbody : parseStatements g (branchTags.map .name) false u = .ok body v := hv
  obtain ⟨hname, hsuf, hkept⟩ := told_statements drops hg (hw.mono hpass.suffix) hbody
  exact ⟨hvalues, hname, hsuf.trans hpass.suffix, (keptFrom_passes hpass).trans hkept⟩

/-- **Told of the branches** that have been read from the state `s` on, before the name of the next
tag in the state `t`. Behind what is done if no branch fits stands the end tag. -/
structure ToldBranches (drops : List Bool) (s : ParserState) (branches : List CaseBranch)
    (fallback : List Stmt) (t : ParserState) : Prop where
  sound : ∀ b ∈ branches, b.Sound
  name : ∃ tag ∈ branchTags, t.stream.current.kind = .name tag
  last : fallback = [] ∨ t.stream.current.kind = .name "endcase"
  suffix : t.stream.tokens <:+ s.stream.tokens
  kept : ∃ dropped, keptFrom true ⟨true, true :: drops⟩ s.stream.tokens =
    Place.kept ⟨false, drops⟩ (caseTexts branches fallback) ++
      keptFrom true ⟨true, dropped :: drops⟩ t.stream.tokens

theorem ne_endcase {tok : Token} {tag : String} (hk : tok.kind = .name tag)
    (htag : tag ≠ "endcase") : tok.kind ≠ .name "endcase" := by
  intro h
  rw [hk] at h
  exact htag (Token.Kind.name.inj h)

/-- Behind `when` and `else` the text of a case distinction is kept. -/
theorem kept_false (atTag : Bool) (texts : Texts) :
    Place.kept ⟨atTag, false :: drops⟩ texts = Place.kept ⟨false, drops⟩ texts :=
  rfl

/-- **What the tag behind a branch begins**, and what it is read to. -/
theorem nextBranch_cases {r : (List CaseBranch × List Stmt) ⊕ (List CaseBranch × List Stmt)}
    (hs : ∃ tag ∈ branchTags, s.stream.current.kind = .name tag)
    (h : parseNextBranch g branches fallback s = .ok r t) :
    (s.stream.current.kind = .name "when" ∧ ∃ b,
        parseCaseBranch g s.stream.current.line s.stepped = .ok b t ∧
          r = .inl (branches ++ [b], fallback)) ∨
      (s.stream.current.kind = .name "else" ∧ ∃ body,
        parseStatements g (["endcase"].map .name) false s.stepped = .ok body t ∧
          r = .inl (branches, body)) ∨
      (s.stream.current.kind = .name "endcase" ∧ t = s.stepped ∧ r = .inr (branches, fallback)) := by
  obtain ⟨tag, htag, hk⟩ := hs
  have hwhen := isName_of_kind hk "when"
  have helse := isName_of_kind hk "else"
  obtain ⟨tok, v, hv, h⟩ := bind_eq_ok.1 h
  obtain ⟨rfl, rfl⟩ := advance_eq_ok.1 hv
  rw [hwhen, helse] at h
  rcases List.mem_cons.1 htag with rfl | htag
  · obtain ⟨b, w, hb, h⟩ := bind_eq_ok.1 h
    obtain ⟨hr, rfl⟩ := EStateM.Result.ok.inj h
    exact .inl ⟨hk, b, hb, hr.symm⟩
  rcases List.mem_cons.1 htag with rfl | htag
  · obtain ⟨body, w, hbody, h⟩ := bind_eq_ok.1 h
    obtain ⟨hr, rfl⟩ := EStateM.Result.ok.inj h
    exact .inr (.inl ⟨hk, body, hbody, hr.symm⟩)
  · obtain rfl := List.mem_singleton.1 htag
    obtain ⟨hr, rfl⟩ := EStateM.Result.ok.inj h
    exact .inr (.inr ⟨hk, rfl, hr.symm⟩)

/-- **One more branch**, or what is done if none fits, adds its texts. -/
theorem told_nextBranch (hg : g.Faithful true) (hw : s.Worded) {x : List CaseBranch × List Stmt}
    {u : ParserState} (hx : ToldBranches drops s branches fallback t)
    (h : parseNextBranch g branches fallback t = .ok (.inl x) u) :
    ToldBranches drops s x.1 x.2 u := by
  obtain ⟨hsound, hname, hlast, hsuf, dropped, hkept⟩ := hx
  have hw' : t.stepped.Worded := (hw.mono hsuf).mono t.stepped_suffix
  rcases nextBranch_cases hname h with ⟨hk, b, hb, hx⟩ | ⟨hk, body, hbody, hx⟩ | ⟨_, _, hx⟩
  · obtain rfl := Sum.inl.inj hx
    obtain rfl := hlast.resolve_right (ne_endcase hk (by decide))
    obtain ⟨hb, hname, hsuf', hkept'⟩ := told_branch (false :: drops) hg hw' hb
    have hbehind : Place.dropsBehind true "when" (dropped :: drops) = false :: drops := rfl
    rw [keptFrom_tag hk, hbehind, hkept', kept_false] at hkept
    have hsound := List.forall_mem_append.2 ⟨hsound, List.forall_mem_singleton.2 hb⟩
    refine ⟨hsound, hname, .inl rfl, (hsuf'.trans t.stepped_suffix).trans hsuf, false, ?_⟩
    rw [hkept, caseTexts_branch, Place.kept_append, List.append_assoc]
  · obtain rfl := Sum.inl.inj hx
    obtain rfl := hlast.resolve_right (ne_endcase hk (by decide))
    obtain ⟨⟨name, hname, hk'⟩, hsuf', hkept'⟩ := told_statements (false :: drops) hg hw' hbody
    obtain rfl := List.mem_singleton.1 hname
    have hbehind : Place.dropsBehind true "else" (dropped :: drops) = false :: drops := rfl
    rw [keptFrom_tag hk, hbehind, hkept', kept_false] at hkept
    have hname : ∃ tag ∈ branchTags, u.stream.current.kind = .name tag :=
      ⟨"endcase", List.mem_of_getLast? rfl, hk'⟩
    refine ⟨hsound, hname, .inr hk', (hsuf'.trans t.stepped_suffix).trans hsuf, false, ?_⟩
    rw [hkept, caseTexts_fallback branches body, Place.kept_append, List.append_assoc]
  · nomatch hx

/-- **All branches**, up to behind the end tag. -/
theorem told_branches (drops : List Bool) (hg : g.Faithful true) (hw : s.Worded)
    (hs : ∃ tag ∈ branchTags, s.stream.current.kind = .name tag)
    (h : parseCaseBranches g s = .ok (branches, fallback) t) :
    (∀ b ∈ branches, b.Sound) ∧ t.stream.tokens <:+ s.stream.tokens ∧
      keptFrom true ⟨true, true :: drops⟩ s.stream.tokens =
        Place.kept ⟨false, drops⟩ (caseTexts branches fallback) ++
          keptFrom true ⟨false, drops⟩ t.stream.tokens := by
  have hfirst : ToldBranches drops s [] [] s :=
    ⟨nofun, hs, .inl rfl, List.suffix_refl _, true, congrArg (· ++ _) (Place.kept_nil _).symm⟩
  have hround (x : List CaseBranch × List Stmt) (u x' v)
      (hx : ToldBranches drops s x.1 x.2 u)
      (hnext : parseNextBranch g x.1 x.2 u = .ok (.inl x') v) (_ : v.remaining < u.remaining) :
      ToldBranches drops s x'.1 x'.2 v :=
    told_nextBranch hg hw hx hnext
  obtain ⟨x, u, ⟨hsound, hname, -, hsuf, dropped, hkept⟩, hlast⟩ :=
    repeatFrom_induction _ hround hfirst h
  rcases nextBranch_cases hname hlast with ⟨_, _, _, hx⟩ | ⟨_, _, _, hx⟩ | ⟨hk, rfl, hx⟩
  · nomatch hx
  · nomatch hx
  · obtain ⟨rfl, rfl⟩ := Prod.mk.inj (Sum.inr.inj hx)
    rw [keptFrom_tag hk] at hkept
    exact ⟨hsound, u.stepped_suffix.trans hsuf, hkept⟩

/-! ### The tag -/

theorem quiet_freshName {line : Nat} : Quiet (freshName line) s Expr.Textless := by
  intro e t h
  obtain ⟨rfl, rfl⟩ := EStateM.Result.ok.inj h
  exact ⟨.refl s, .of_children rfl nofun⟩

/-- **A case distinction** keeps the texts of its branches, and drops the text before them. -/
theorem tells_case (hg : g.Faithful true) (hk : s.stream.current.kind = .name "case") :
    Tells true (parseCase g) s ⟨true, drops⟩ ⟨false, drops⟩ Expansion.Says := by
  intro hw x t h
  obtain ⟨tok, u, hu, h⟩ := bind_eq_ok.1 h
  obtain ⟨rfl, rfl⟩ := advance_eq_ok.1 hu
  obtain ⟨e, u, hu, h⟩ := bind_eq_ok.1 h
  obtain ⟨hpass, he⟩ := quiet_expression hg.toHushed true true _ _ _ hu
  obtain ⟨target, v, hv, h⟩ := bind_eq_ok.1 h
  obtain ⟨hpass', ht⟩ := quiet_freshName _ _ hv
  have hpass := hpass.trans hpass'
  obtain ⟨body, w, hbody, h⟩ := bind_eq_ok.1 h
  have hbody : parseStatements g (branchTags.map .name) false v = .ok body w := hbody
  obtain ⟨hname, hsuf, hkept⟩ := told_statements (true :: drops) hg
    ((hw.mono s.stepped_suffix).mono hpass.suffix) hbody
  have hsuf := hsuf.trans (hpass.suffix.trans s.stepped_suffix)
  obtain ⟨⟨branches, fallback⟩, z, hz, h⟩ := bind_eq_ok.1 h
  obtain ⟨rfl, rfl⟩ := EStateM.Result.ok.inj h
  obtain ⟨hsound, hsuf', hkept'⟩ := told_branches drops hg (hw.mono hsuf) hname hz
  refine ⟨hsuf'.trans hsuf, caseTexts branches fallback, ?_, ?_⟩
  · have hbehind : Place.dropsBehind true "case" drops = true :: drops := rfl
    have hdropped : Place.kept ⟨false, true :: drops⟩ (textsOf body) = [] := rfl
    rw [keptFrom_tag hk, hbehind, keptFrom_passes hpass, hkept, hdropped, List.nil_append, hkept']
    rfl
  · have hassign : (Stmt.assign target e s.stream.current.line).texts = [] :=
      Stmt.texts_eq_body (textless_cons ht (textless_one he))
    show textsOf ([.assign target e s.stream.current.line] ++ caseChain _ branches fallback) = _
    rw [textsOf_append, textsOf_singleton, hassign, textsOf_caseChain hsound, List.nil_append]

end LiquidTemplate
