import LiquidTemplate.Proofs.Nesting.Bodies
import LiquidTemplate.Proofs.Nesting.Targets
import LiquidTemplate.Proofs.Texts.Tags

/-!
# Nesting of tags

The statement of each tag is a nested tag with just the bodies and the end that belong to it.

* `QuietTag`, `NestsTag`: tags that stand alone, and all tags.
* `nests_enclosing`: a body with its end tag.
* `nests_set`: assignments, with or without an assignment sign.
* `nests_alternatives`: a body and the alternative behind it.
* `nests_builtin`: all tags that every environment has.
-/

namespace LiquidTemplate

open LiquidTemplate.Parser LiquidTemplate.Grammar

variable {α β : Type} {g : Grammar} {s t : ParserState} {tag : String} {e : TagHead}
  {hs : List TagHead}

/-- **Quiet tags**: no other tag stands in their statement. -/
def QuietTag (p : Parser α) : Prop :=
  ∀ s, s.stream.current.kind.Plain → Quiet p s (fun _ => True)

/-- **Nesting a tag**, from its name on. -/
def NestsTag (tag : String) (p : Parser α) : Prop :=
  ∀ s assigns, tagHead? s.stream.tokens = some ⟨tag, assigns⟩ →
    Nests p s (fun hs => NestedTag (⟨tag, assigns⟩ :: hs))

theorem plain_of_tagHead? (he : tagHead? s.stream.tokens = some e) :
    s.stream.current.kind.Plain := by
  rw [(tagHead?_eq_some_iff.1 he).1]
  trivial

/-! ### Tags that stand alone -/

theorem QuietTag.nests {p : Parser α} (hp : QuietTag p) (htag : tag ∈ TagHead.simpleTags) :
    NestsTag tag p := by
  intro s assigns he
  exact Nests.of_quiet (hp s (plain_of_tagHead? he)) (.simple (.inl htag))

theorem quietTag_break : QuietTag parseBreak := fun _ hk =>
  Quiet.take hk (Quiet.pure trivial)

theorem quietTag_continue : QuietTag parseContinue := fun _ hk =>
  Quiet.take hk (Quiet.pure trivial)

theorem quietTag_extends (hg : g.Hushed) : QuietTag (parseExtends g) := by
  intro s hk
  apply Quiet.take hk
  exact (quiet_expression hg true true _).bind fun _ _ _ => Quiet.pure trivial

theorem quietTag_print (hg : g.Hushed) : QuietTag (parsePrint g) := by
  intro s hk
  apply Quiet.take hk
  exact (quiet_printed hg).bind fun _ _ _ => Quiet.pure trivial

theorem quietTag_inclusion (hg : g.Hushed) (make : Expr → Bool → Bool → Nat → Stmt) :
    QuietTag (parseInclusion g make) := by
  intro s hk
  apply Quiet.take hk
  refine (quiet_expression hg true true _).bind fun _ _ t => ?_
  refine quiet_ignoreMissing.bind fun _ _ u => ?_
  exact quiet_context.bind fun _ _ _ => Quiet.pure trivial

theorem quietTag_import (hg : g.Hushed) : QuietTag (parseImport g) := by
  intro s hk
  apply Quiet.take hk
  refine (quiet_expression hg true true _).bind fun _ _ t => Quiet.demand trivial ?_
  refine (quiet_targetName _).bind fun _ _ u => ?_
  exact quiet_context.bind fun _ _ _ => Quiet.pure trivial

theorem quietTag_from (hg : g.Hushed) : QuietTag (parseFrom g) := by
  intro s hk
  apply Quiet.take hk
  refine (quiet_expression hg true true _).bind fun _ _ t => Quiet.demand trivial ?_
  refine quiet_importNames.bind fun x _ u => ?_
  obtain ⟨names, found⟩ := x
  cases found with
  | some withContext => exact Quiet.pure trivial
  | none => exact Quiet.skips trivial (Quiet.pure trivial) (Quiet.pure trivial)

/-! ### Tags with one body -/

theorem ClosedBody.enclosed (h : ClosedBody e.name hs) (he : e.Encloses) : NestedTag (e :: hs) := by
  obtain ⟨body, e', rfl, hbody, hend⟩ := h
  exact .enclosing he hbody hend

/-- **A body with its end tag**, and what is quiet behind it. -/
theorem nests_enclosing (hg : g.Nesting) {assigns : Bool}
    (htag : tag ∈ TagHead.enclosingTags ∨ tag ∈ TagHead.assigningTags ∧ assigns = false)
    {f : List Stmt → Parser β} (hf : ∀ body t, Quiet (f body) t (fun _ => True)) :
    Nests (parseStatements g [endTag tag] true >>= f) s
      (fun hs => NestedTag (⟨tag, assigns⟩ :: hs)) := by
  have hclosed : Nests (parseStatements g [endTag tag] true) s
      (fun hs => NestedTag (⟨tag, assigns⟩ :: hs)) :=
    (nests_closed hg tag).mono fun hs hbody => hbody.enclosed htag
  exact hclosed.finish hf

theorem nests_with (hg : g.Nesting) : NestsTag "with" (parseWith g) := by
  intro s assigns he
  apply Nests.take he
  refine Nests.quiet (quiet_bindings hg.toHushed) fun _ t _ => ?_
  exact nests_enclosing hg (.inl (by decide)) fun _ _ => Quiet.pure trivial

theorem nests_autoescape (hg : g.Nesting) : NestsTag "autoescape" (parseAutoescape g) := by
  intro s assigns he
  apply Nests.take he
  refine Nests.quiet (quiet_expression hg.toHushed true true _) fun _ t _ => ?_
  exact nests_enclosing hg (.inl (by decide)) fun _ _ => Quiet.pure trivial

theorem nests_block (hg : g.Nesting) : NestsTag "block" (parseBlock g) := by
  intro s assigns he
  apply Nests.take he
  refine Nests.quiet (quiet_expect (.type .name) trivial) fun name t _ => ?_
  refine Nests.quiet (quiet_skipIf (.name "scoped") trivial) fun _ u _ => ?_
  refine Nests.quiet quiet_hyphen fun _ v _ => ?_
  refine nests_enclosing hg (.inl (by decide)) fun _ _ => ?_
  exact Quiet.skips trivial (Quiet.pure trivial) (Quiet.pure trivial)

theorem nests_macro (hg : g.Nesting) : NestsTag "macro" (parseMacro g) := by
  intro s assigns he
  apply Nests.take he
  refine Nests.quiet (quiet_targetName _) fun _ t _ => ?_
  refine Nests.quiet (quiet_signature hg.toHushed) fun _ u _ => ?_
  exact nests_enclosing hg (.inl (by decide)) fun _ _ => Quiet.pure trivial

theorem nests_call (hg : g.Nesting) : NestsTag "call" (parseCallBlock g) := by
  intro s assigns he
  apply Nests.take he
  refine Nests.quiet (quiet_optionalSignature hg.toHushed) fun _ t _ => ?_
  refine Nests.quiet (quiet_expression hg.toHushed true true _) fun call u _ => ?_
  split
  · exact nests_enclosing hg (.inl (by decide)) fun _ _ => Quiet.pure trivial
  · exact Nests.failAt

theorem nests_filter (hg : g.Nesting) : NestsTag "filter" (parseFilterBlock g) := by
  intro s assigns he
  apply Nests.take he
  have hnone : ∀ e ∈ (none : Option Expr), e.Textless := nofun
  refine Nests.quiet (quiet_filters hg.toHushed hnone true) fun _ t _ => ?_
  exact nests_enclosing hg (.inl (by decide)) fun _ _ => Quiet.pure trivial

/-! ### Assignments -/

/-- No assignment sign stands before the body of a statement. -/
theorem assignsAhead_statements {ends : List TokenRule} {consume : Bool} {body : List Stmt}
    (h : parseStatements g ends consume s = .ok body t) :
    assignsAhead s.stream.tokens = false := by
  obtain ⟨found, u, hu, hrest⟩ := bind_eq_ok.1 h
  obtain ⟨tok, v, hv, _⟩ := bind_eq_ok.1 hrest
  obtain ⟨hend, -, -⟩ := expect_eq_ok.1 hv
  have hu' : assignsAhead u.stream.tokens = false := assignsAhead_end (Token.isMark_iff.1 hend)
  cases found with
  | true =>
      obtain ⟨hcolon, rfl⟩ := skipIf_eq_true.1 hu
      rw [assignsAhead_stepped (Token.isSymbol_iff.1 hcolon) nofun nofun]
      exact hu'
  | false =>
      obtain ⟨rfl, -⟩ := skipIf_eq_false.1 hu
      exact hu'

/-- **Assignments** stand alone just if an assignment sign stands behind the target. -/
theorem nests_set (hg : g.Nesting) (htag : tag ∈ TagHead.assigningTags) :
    NestsTag tag (parseSet g tag) := by
  intro s assigns he
  apply Nests.take he
  refine Nests.quiet (quiet_target hg.toHushed [] _) fun target t ht => ?_
  have hahead : assigns = assignsAhead t.stream.tokens :=
    (tagHead?_eq_some_iff.1 he).2.trans (assignsAhead_target hg.spares ht)
  refine Nests.quiet (quiet_skipIf (.type (.symbol .assign)) trivial) fun found u hu => ?_
  cases found with
  | true =>
      obtain ⟨hassign, rfl⟩ := skipIf_eq_true.1 hu
      rw [assignsAhead_assign (Token.isSymbol_iff.1 hassign)] at hahead
      have hvalue : Quiet (do let value ← parseAnyTuple g
                              return Stmt.assign target value s.stream.current.line) t.stepped
          (fun _ => True) :=
        (quiet_anyTuple hg.toHushed _).bind fun _ _ _ => Quiet.pure trivial
      exact Nests.of_quiet hvalue (.simple (.inr ⟨htag, hahead⟩))
  | false =>
      obtain ⟨rfl, -⟩ := skipIf_eq_false.1 hu
      intro x v h
      obtain ⟨body, w, hbody, -⟩ := bind_eq_ok.1 h
      rw [assignsAhead_statements hbody] at hahead
      exact nests_enclosing hg (.inr ⟨htag, hahead⟩) (fun _ _ => Quiet.pure trivial) x v h

/-! ### Branching tags -/

theorem ClosedBody.otherwise (h : ClosedBody tag hs) (he : e.name = "else") :
    NestedTail tag (e :: hs) := by
  obtain ⟨body, e', rfl, hbody, hend⟩ := h
  exact .otherwise he hbody hend

theorem BranchedBody.further (h : BranchedBody tag hs) (he : e.name ∈ TagHead.furtherTag? tag) :
    NestedTail tag (e :: hs) := by
  obtain ⟨body, tail, rfl, hbody, htail⟩ := h
  exact .further he hbody htail

theorem BranchedBody.branching (h : BranchedBody tag hs) (htag : tag ∈ TagHead.branchingTags)
    (assigns : Bool) : NestedTag (⟨tag, assigns⟩ :: hs) := by
  obtain ⟨body, tail, rfl, hbody, htail⟩ := h
  exact .branching htag hbody htail

/-- **A body and its alternative**, where `p` reads the alternative from the name of its tag on. -/
theorem nests_alternatives (hg : g.Nesting) (tags : List String) {p : Parser (List Stmt)}
    {make : List Stmt → List Stmt → Stmt}
    (hp : ∀ s e, e.name ∈ tags → tagHead? s.stream.tokens = some e →
      Nests p s (fun hs => NestedTail tag (e :: hs))) :
    Nests (do
        let body ← parseStatements g (tags.map .name) false
        let otherwise ← p
        return make body otherwise) s (BranchedBody tag) := by
  intro x v h
  obtain ⟨body, t, hbody, hrest⟩ := bind_eq_ok.1 h
  obtain ⟨hs, e, hheads, hnested, hname, he⟩ := nested_statements hg hbody
  obtain ⟨otherwise, u, hotherwise, hpure⟩ := bind_eq_ok.1 hrest
  obtain ⟨-, rfl⟩ := EStateM.Result.ok.inj hpure
  obtain ⟨more, hmore, htail⟩ := hp t e hname he otherwise u hotherwise
  refine ⟨hs ++ e :: more, ?_, hs, e :: more, rfl, hnested, htail⟩
  rw [hheads, hmore, List.append_assoc]
  rfl

/-- The alternative of a loop. -/
theorem nests_loopElse (hg : g.Nesting) (hname : e.name ∈ ["endfor", "else"])
    (he : tagHead? s.stream.tokens = some e) :
    Nests (parseLoopElse g) s (fun hs => NestedTail "for" (e :: hs)) := by
  have hk := (tagHead?_eq_some_iff.1 he).1
  apply Nests.take he
  rw [isName_of_kind hk "endfor"]
  rcases List.mem_cons.1 hname with hend | hname
  · rw [hend]
    exact Nests.pure (.close hend)
  · have helse : e.name = "else" := List.mem_singleton.1 hname
    rw [helse]
    exact (nests_closed hg "for").mono fun hs hbody => hbody.otherwise helse

theorem nests_for (hg : g.Nesting) : NestsTag "for" (parseFor g) := by
  intro s assigns he
  apply Nests.demand he
  refine Nests.quiet (quiet_target hg.toHushed _ _) fun _ t _ => ?_
  refine Nests.quiet (quiet_expect (.name "in") trivial) fun _ u _ => ?_
  refine Nests.quiet (quiet_iterable hg.toHushed) fun _ v _ => ?_
  refine Nests.quiet (quiet_loopTest hg.toHushed) fun _ w _ => ?_
  refine Nests.quiet (quiet_skipIf (.name "recursive") trivial) fun _ _ _ => ?_
  refine Nests.mono ?_ fun hs hbody => BranchedBody.branching hbody (by decide) assigns
  exact nests_alternatives hg ["endfor", "else"] fun s e hname he => nests_loopElse hg hname he

/-- The alternatives of a condition. -/
theorem nests_conditionElse (hg : g.Nesting) (htag : tag = "if" ∨ tag = "unless")
    (hname : e.name ∈ ["elif", "else", "end" ++ tag]) (he : tagHead? s.stream.tokens = some e) :
    Nests (parseAlternatives g tag) s (fun hs => NestedTail tag (e :: hs)) := by
  have hk := (tagHead?_eq_some_iff.1 he).1
  apply Nests.take he
  rw [isName_of_kind hk "elif", isName_of_kind hk "else"]
  rcases List.mem_cons.1 hname with helif | hname
  · have hfurther : e.name ∈ TagHead.furtherTag? tag := by
      rw [helif]
      rcases htag with rfl | rfl
      · rfl
      · rfl
    rw [helif]
    have hbranch (line : Nat) (t : ParserState) :
        Nests (g.branch line tag) t (fun hs => NestedTail tag (e :: hs)) :=
      (hg.branch line tag t htag).mono fun hs hbody => hbody.further hfurther
    exact (hbranch _ _).finish fun _ _ => Quiet.pure trivial
  rcases List.mem_cons.1 hname with helse | hname
  · rw [helse]
    exact (nests_closed hg tag).mono fun hs hbody => hbody.otherwise helse
  · have hend : e.name = "end" ++ tag := List.mem_singleton.1 hname
    have hnone : (e.name == "elif") = false ∧ (e.name == "else") = false := by
      rw [hend]
      rcases htag with rfl | rfl
      · exact ⟨rfl, rfl⟩
      · exact ⟨rfl, rfl⟩
    rw [hnone.1, hnone.2]
    exact Nests.pure (.close hend)

/-- **A condition** from its test on. -/
theorem nests_branch (hg : g.Nesting) (line : Nat) (negate : Bool)
    (htag : tag = "if" ∨ tag = "unless") :
    Nests (parseBranch g line tag negate) s (BranchedBody tag) := by
  refine Nests.quiet (quiet_tuple hg.toHushed _ _ _ s) fun _ t _ => ?_
  exact nests_alternatives hg ["elif", "else", "end" ++ tag]
    fun s e hname he => nests_conditionElse hg htag hname he

theorem nests_if (hg : g.Nesting) : NestsTag "if" (parseIf g) := by
  intro s assigns he
  apply Nests.demand he
  exact (nests_branch hg _ false (.inl rfl)).mono fun hs hbody =>
    hbody.branching (by decide) assigns

theorem nests_unless (hg : g.Nesting) : NestsTag "unless" (parseUnless g) := by
  intro s assigns he
  apply Nests.demand he
  exact (nests_branch hg _ true (.inr rfl)).mono fun hs hbody =>
    hbody.branching (by decide) assigns

/-! ### All tags -/

/-- **Every tag of every environment** nests. -/
theorem nests_builtin (hg : g.Nesting) {p : Parser Stmt} (h : builtin? g tag = some p) :
    NestsTag tag p := by
  have hquiet := hg.toHushed
  unfold builtin? at h
  split at h
  · exact Option.some.inj h ▸ nests_for hg
  · exact Option.some.inj h ▸ nests_if hg
  · exact Option.some.inj h ▸ nests_unless hg
  · exact Option.some.inj h ▸ quietTag_break.nests (by decide)
  · exact Option.some.inj h ▸ quietTag_continue.nests (by decide)
  · exact Option.some.inj h ▸ nests_block hg
  · exact Option.some.inj h ▸ (quietTag_extends hquiet).nests (by decide)
  · exact Option.some.inj h ▸ (quietTag_print hquiet).nests (by decide)
  · exact Option.some.inj h ▸ nests_macro hg
  · exact Option.some.inj h ▸ (quietTag_inclusion hquiet _).nests (by decide)
  · exact Option.some.inj h ▸ (quietTag_inclusion hquiet _).nests (by decide)
  · exact Option.some.inj h ▸ (quietTag_from hquiet).nests (by decide)
  · exact Option.some.inj h ▸ (quietTag_import hquiet).nests (by decide)
  · exact Option.some.inj h ▸ nests_set hg (by decide)
  · exact Option.some.inj h ▸ nests_set hg (by decide)
  · exact Option.some.inj h ▸ nests_set hg (by decide)
  · exact Option.some.inj h ▸ nests_with hg
  · exact Option.some.inj h ▸ nests_autoescape hg
  · exact Option.some.inj h ▸ nests_call hg
  · exact Option.some.inj h ▸ nests_filter hg
  · nomatch h

end LiquidTemplate
