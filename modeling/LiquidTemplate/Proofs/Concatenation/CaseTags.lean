import LiquidTemplate.Proofs.Cases.Blocks
import LiquidTemplate.Proofs.Conduct.Counting
import LiquidTemplate.Proofs.Forms.Statements
import LiquidTemplate.Proofs.Nesting.Templates

/-!
# Names for the tags of case distinctions

A parser makes up one name for each tag `case` that it consumes, also for those in what it drops. So the
names that it has made up, together with the tags `case` that it has left, stay the same number.

* `caseTags`: how many tags among some tokens are those of case distinctions.
* `ParserState.tally`: the names that are made up, and those that the rest will need.
* `Parser.Tallies`: how much of that a parser adds.
* `Grammar.Tallying`: a grammar in which the tag `case` alone adds to it, and adds one.
* `tallies_case`, `tallies_builtin`, `tallies_statement`: the tags.
* `madeUp_of_stream`: the names made up for a stream.
-/

namespace LiquidTemplate

open LiquidTemplate.Parser LiquidTemplate.Grammar

variable {α β : Type} {s t u : ParserState} {g : Grammar} {env : Environment} {tag : String}
  {e : TagHead} {k : Nat} {ts : List Token}

/-! ### Tallies -/

namespace TagHead

/-- The head of a case distinction. -/
def isCase (e : TagHead) : Bool :=
  e.name == "case"

/-- **Names** that a tag needs: one for a case distinction. -/
def needs (e : TagHead) : Nat :=
  if e.isCase then 1 else 0

theorem needs_case (h : e.name = "case") : e.needs = 1 :=
  if_pos (beq_iff_eq.2 h)

theorem needs_other (h : e.name ≠ "case") : e.needs = 0 :=
  if_neg fun heq => h (beq_iff_eq.1 heq)

end TagHead

/-- **Tags of case distinctions** among some tokens. -/
def caseTags (ts : List Token) : Nat :=
  (tagHeads ts).countP TagHead.isCase

/-- **Tally**: the names that are made up, and those that the tags ahead need. -/
def ParserState.tally (s : ParserState) : Nat :=
  s.madeUp + caseTags s.stream.tokens

theorem ParserState.tally_of_heads (hheads : tagHeads s.stream.tokens = tagHeads t.stream.tokens)
    (hmadeUp : t.madeUp = s.madeUp) : t.tally = s.tally := by
  rw [tally, tally, caseTags, caseTags, hheads, hmadeUp]

/-- A step from a plain token. -/
theorem ParserState.tally_stepped (hk : s.stream.current.kind.Plain) : s.stepped.tally = s.tally :=
  tally_of_heads (tagHeads_passes (s.passes_stepped hk)) rfl

/-- **The beginning of a tag** takes what the tag needs out of the tally. -/
theorem ParserState.tally_begin (hk : s.stream.current.kind = .mark .blockBegin)
    (he : tagHead? s.stepped.stream.tokens = some e) : s.tally = s.stepped.tally + e.needs := by
  have hheads : tagHeads s.stream.tokens = e :: tagHeads s.stepped.stream.tokens := by
    rw [tagHeads_begin hk, he]
    rfl
  rw [tally, tally, caseTags, hheads, List.countP_cons, ← Nat.add_assoc]
  rfl

namespace Parser

variable {p : Parser α} {f : α → Parser β}

/-- **Adding to the tally**: if the parser succeeds in this state, the tally grows by `k`. -/
def Tallies (p : Parser α) (s : ParserState) (k : Nat) : Prop :=
  ∀ x t, p s = .ok x t → t.tally = s.tally + k

/-- A parser that makes up no names. -/
theorem Obeys.madeUp (hp : Obeys .still p) {x : α} (h : p s = .ok x t) : t.madeUp = s.madeUp := by
  have houtcome := hp s
  rw [h] at houtcome
  exact houtcome

theorem Tallies.of_quiet {pre : α → Prop} (hp : Quiet p s pre) (hstill : Obeys .still p) :
    Tallies p s 0 :=
  fun x t hx => ParserState.tally_of_heads (tagHeads_passes (hp x t hx).1) (hstill.madeUp hx)

/-- **One part after another.** -/
theorem Tallies.bind {j : Nat} (hp : Tallies p s j)
    (hf : ∀ x t, p s = .ok x t → Tallies (f x) t k) : Tallies (p >>= f) s (j + k) := by
  intro y u h
  obtain ⟨x, t, hx, hy⟩ := bind_eq_ok.1 h
  rw [hf x t hx y u hy, hp x t hx, Nat.add_assoc]

/-- What is added behind a part that adds nothing. -/
theorem Tallies.behind (hp : Tallies p s 0) (hf : ∀ x t, p s = .ok x t → Tallies (f x) t k) :
    Tallies (p >>= f) s k :=
  Nat.zero_add k ▸ hp.bind hf

/-- What is added behind a quiet part that makes up no names. -/
theorem Tallies.quiet {pre : α → Prop} (hp : Quiet p s pre) (hstill : Obeys .still p)
    (hf : ∀ x t, p s = .ok x t → Tallies (f x) t k) : Tallies (p >>= f) s k :=
  (Tallies.of_quiet hp hstill).behind hf

theorem Tallies.pure {x : α} : Tallies (Pure.pure x) s 0 :=
  .of_quiet (Quiet.pure trivial : Quiet (Pure.pure x) s fun _ => True) .pure

theorem Tallies.failAt {cause : SyntaxError.Cause} {line : Nat} :
    Tallies (Parser.failAt cause line : Parser α) s k :=
  fun _ _ h => absurd h (failAt_ne_ok cause line)

/-- What is added before something that adds nothing. -/
theorem Tallies.finish (hp : Tallies p s k) (hf : ∀ x t, Tallies (f x) t 0) :
    Tallies (p >>= f) s k :=
  hp.bind fun x t _ => hf x t

/-- What is added behind a plain token that is taken. -/
theorem Tallies.take {f : Token → Parser β} (hk : s.stream.current.kind.Plain)
    (h : ∀ t, Tallies (f t) s.stepped k) : Tallies (advance >>= f) s k :=
  fun y u hy => (h _ y u hy).trans (congrArg (· + k) (ParserState.tally_stepped hk))

/-- What is added behind a token that is demanded. -/
theorem Tallies.demand {f : Token → Parser β} {rule : TokenRule} (hrule : rule.Plain)
    (h : ∀ x t, Tallies (f x) t k) : Tallies (expect rule >>= f) s k :=
  .quiet (quiet_expect rule hrule) (obeys_expect rule) fun x t _ => h x t

/-- What is added behind a token that fits, or before one that does not. -/
theorem Tallies.skips {f : Bool → Parser β} {rule : TokenRule} (hrule : rule.Plain)
    (h : ∀ found t, Tallies (f found) t k) : Tallies (skipIf rule >>= f) s k :=
  .quiet (quiet_skipIf rule hrule) (obeys_skipIf rule) fun found t _ => h found t

end Parser

/-! ### Bodies -/

/-- **Grammars that tally**: what a statement adds is what its tag needs. -/
structure Grammar.Tallying (g : Grammar) : Prop extends Hushed g where
  still : g.Minds .still
  statement : ∀ s x t, g.statement s = .ok x t →
    ∃ e, tagHead? s.stream.tokens = some e ∧ t.tally = s.tally + e.needs
  branch : ∀ line tag s, tag = "if" ∨ tag = "unless" → Tallies (g.branch line tag) s 0

/-- **One part of a body**: what a tag needs has been in the tally of the tags ahead. -/
theorem tally_part (hg : g.Tallying) {ends : List TokenRule} {b c : PartialBody}
    (h : parseBodyPart g ends b s = .ok (.inl c) t) : t.tally = s.tally := by
  cases bodyStep_of_ok h with
  | text hk => exact ParserState.tally_of_heads (tagHeads_stepped hk nofun) rfl
  | output hk hread =>
    have hstep : s.stepped.tally = s.tally :=
      ParserState.tally_of_heads (tagHeads_stepped hk nofun) rfl
    have hstill : Obeys .still (parseOutput g) :=
      (obeys_anyTuple hg.still).bind fun _ => (obeys_expect _).bind fun _ => .pure
    have houtput := Tallies.of_quiet (quiet_output hg.toHushed s.stepped) hstill
    exact (houtput _ _ hread).trans hstep
  | statement hk hread =>
    obtain ⟨x, u, hu, hrest⟩ := bind_eq_ok.1 hread
    obtain ⟨e, he, htally⟩ := hg.statement _ _ _ hu
    have hend : (TokenRule.type (.mark .blockEnd)).Plain := trivial
    have hclosed : t.tally = u.tally := Tallies.demand hend (fun _ _ => .pure) _ _ hrest
    rw [ParserState.tally_begin hk he, ← htally, hclosed]

/-- **The end of a body** is the tag of no case distinction. -/
theorem tally_end {tags : List String} (htags : "case" ∉ tags) {b : PartialBody} {body : List Stmt}
    (h : parseBodyPart g (tags.map .name) b s = .ok (.inr body) t) : t.tally = s.tally := by
  cases bodyStep_of_ok h with
  | endOfTemplate hk => rfl
  | endTag hk hfits =>
    obtain ⟨tag, htag, hname⟩ := fitsAny_names hfits
    have he : tagHead? s.stepped.stream.tokens =
        some ⟨tag, assignsAhead s.stepped.stepped.stream.tokens⟩ :=
      tagHead?_eq_some_iff.2 ⟨hname, rfl⟩
    have hne : tag ≠ "case" := fun heq => htags (heq ▸ htag)
    rw [ParserState.tally_begin hk he, TagHead.needs_other hne]
    rfl

/-- **The parts of a body**, up to the end of the template or to an end tag. -/
theorem tallies_parts (hg : g.Tallying) {tags : List String} (htags : "case" ∉ tags) :
    Tallies (repeatFrom (parseBodyPart g (tags.map .name)) {}) s 0 := by
  intro body t h
  refine repeatFrom_rule (fun _ u => u.tally = s.tally) (fun _ u => u.tally = s.tally) ?_ rfl h
  intro b u z v hu hz
  cases z with
  | inl c => exact (tally_part hg hz).trans hu
  | inr body => exact (tally_end htags hz).trans hu

/-- **The body of a statement**, up to the name of an end tag. -/
theorem tallies_statements (hg : g.Tallying) {tags : List String} (htags : "case" ∉ tags) :
    Tallies (parseStatements g (tags.map .name) false) s 0 := by
  refine Tallies.skips trivial fun _ t => Tallies.demand trivial fun _ u => ?_
  have hbody : Tallies (parseBody g (some (tags.map .name))) u 0 := by
    intro body v h
    obtain ⟨w, hw, rfl⟩ := of_afterwards h
    exact tallies_parts (s := { u with expectedEnds := _ :: u.expectedEnds }) hg htags body w hw
  refine Tallies.finish hbody fun body v => ?_
  intro x w h
  have h := of_current h
  split at h
  · nomatch h
  · obtain ⟨-, rfl⟩ := of_pure h
    rfl

/-- No end tag is that of a case distinction. -/
theorem endTag_ne_case (tag : String) : "case" ∉ ["end" ++ tag] := by
  intro hmem
  have htext := congrArg (fun text => text.toList.head?) (List.mem_singleton.1 hmem)
  rw [String.toList_append] at htext
  exact absurd (Option.some.inj htext) (by decide)

/-- **The body of a statement** with its end tag. -/
theorem tallies_closed (hg : g.Tallying) (tag : String) :
    Tallies (parseStatements g [endTag tag] true) s 0 := by
  intro body t h
  obtain ⟨u, hu, rfl⟩ := parseStatements_consume h
  have htags : parseStatements g (["end" ++ tag].map .name) false s = .ok body u := hu
  obtain ⟨_, _, hk⟩ := ends_of_statements htags
  have hstep : u.stepped.tally = u.tally := ParserState.tally_stepped (hk ▸ trivial)
  exact hstep.trans (tallies_statements hg (endTag_ne_case tag) _ _ htags)

/-! ### Tags -/

section Tags

variable (hg : g.Tallying) (hk : s.stream.current.kind.Plain)
include hg hk

theorem tallies_with : Tallies (parseWith g) s 0 := by
  refine Tallies.take hk fun _ => .quiet (quiet_bindings hg.toHushed) (obeys_bindings hg.still) ?_
  exact fun _ _ _ => (tallies_closed hg "with").finish fun _ _ => .pure

theorem tallies_autoescape : Tallies (parseAutoescape g) s 0 := by
  refine Tallies.take hk fun _ =>
    .quiet (quiet_expression hg.toHushed true true _) (obeys_expression hg.still true true) ?_
  exact fun _ _ _ => (tallies_closed hg "autoescape").finish fun _ _ => .pure

theorem tallies_block : Tallies (parseBlock g) s 0 := by
  refine Tallies.take hk fun _ => .demand trivial fun name _ => .skips trivial fun _ _ => ?_
  refine Tallies.quiet quiet_hyphen obeys_hyphen fun _ _ _ => ?_
  exact (tallies_closed hg "block").finish fun _ _ => .skips trivial fun _ _ => .pure

theorem tallies_macro : Tallies (parseMacro g) s 0 := by
  refine Tallies.take hk fun _ => .quiet (quiet_targetName _) obeys_targetName fun _ _ _ => ?_
  refine Tallies.quiet (quiet_signature hg.toHushed) (obeys_signature hg.still) fun _ _ _ => ?_
  exact (tallies_closed hg "macro").finish fun _ _ => .pure

theorem tallies_callBlock : Tallies (parseCallBlock g) s 0 := by
  have hhushed := hg.toHushed
  refine Tallies.take hk fun _ =>
    .quiet (quiet_optionalSignature hhushed) (obeys_optionalSignature hg.still) fun _ u _ => ?_
  refine Tallies.quiet (quiet_expression hhushed true true u) (obeys_expression hg.still true true) ?_
  intro call _ _
  split
  · exact (tallies_closed hg "call").finish fun _ _ => .pure
  · exact .failAt

theorem tallies_filterBlock : Tallies (parseFilterBlock g) s 0 := by
  have hnone : ∀ e ∈ (none : Option Expr), e.Textless := by simp
  refine Tallies.take hk fun _ =>
    .quiet (quiet_filters hg.toHushed hnone true) (obeys_filters hg.still none true) ?_
  exact fun _ _ _ => (tallies_closed hg "filter").finish fun _ _ => .pure

theorem tallies_set (tag : String) : Tallies (parseSet g tag) s 0 := by
  have hhushed := hg.toHushed
  refine Tallies.take hk fun _ =>
    .quiet (quiet_target hhushed [] _) (obeys_target hg.still true []) fun _ _ _ => ?_
  refine Tallies.skips trivial fun found v => ?_
  cases found with
  | true => exact .quiet (quiet_anyTuple hhushed v) (obeys_anyTuple hg.still) fun _ _ _ => .pure
  | false => exact (tallies_closed hg tag).finish fun _ _ => .pure

omit hk in
/-- **A body and its alternative**, which `p` reads from the name of its tag on. -/
theorem tallies_alternatives {tags : List String} (htags : "case" ∉ tags) {p : Parser (List Stmt)}
    {make : List Stmt → List Stmt → Stmt}
    (hp : ∀ t : ParserState, t.stream.current.kind.Plain → Tallies p t 0) :
    Tallies (do
        let body ← parseStatements g (tags.map .name) false
        let otherwise ← p
        return make body otherwise) s 0 := by
  refine Tallies.behind (tallies_statements hg htags) fun body t hbody => ?_
  obtain ⟨_, _, hk⟩ := ends_of_statements hbody
  exact (hp t (hk ▸ trivial)).finish fun _ _ => .pure

theorem tallies_loopElse : Tallies (parseLoopElse g) s 0 := by
  refine Tallies.take hk fun t => ?_
  split
  · exact .pure
  · exact tallies_closed hg "for"

omit hk in
theorem tallies_for : Tallies (parseFor g) s 0 := by
  have hhushed := hg.toHushed
  refine Tallies.demand trivial fun _ t => ?_
  refine Tallies.quiet (quiet_target hhushed _ t) (obeys_target hg.still true _) fun _ _ _ => ?_
  refine Tallies.demand trivial fun _ _ => ?_
  refine Tallies.quiet (quiet_iterable hhushed) (obeys_iterable hg.still) fun _ _ _ => ?_
  refine Tallies.quiet (quiet_loopTest hhushed) (obeys_loopTest hg.still) fun _ _ _ => ?_
  refine Tallies.skips trivial fun _ _ => ?_
  have hends : "case" ∉ ["endfor", "else"] := by decide
  exact tallies_alternatives hg hends fun _ => tallies_loopElse hg

end Tags

/-- **A condition** from its test on. -/
theorem tallies_branch (hg : g.Tallying) (line : Nat) (negate : Bool)
    (htag : tag = "if" ∨ tag = "unless") : Tallies (parseBranch g line tag negate) s 0 := by
  have hends : "case" ∉ ["elif", "else", "end" ++ tag] := by
    rcases htag with rfl | rfl
    · decide
    · decide
  refine Tallies.quiet (quiet_tuple hg.toHushed _ _ _ s) (obeys_tuple hg.still _ _ _) ?_
  refine fun _ _ _ => tallies_alternatives hg hends fun t hk => ?_
  refine Tallies.take hk fun _ => ?_
  split
  · exact fun x u h => (hg.branch _ tag _ htag).finish (fun _ _ => .pure) x u (of_current h)
  · split
    · exact tallies_closed hg tag
    · exact .pure

/-! ### Case distinctions -/

/-- **The values of a branch** add nothing. -/
theorem tally_whenValues (hg : g.Tallying) {es : List Expr} (h : WhenValues g s es t) :
    t.tally = s.tally := by
  have hvalue {s t : ParserState} {e : Expr} (he : parseExpression g false true s = .ok e t) :
      t.tally = s.tally :=
    Tallies.of_quiet (quiet_expression hg.toHushed false true s) (obeys_expression hg.still false true)
      e t he
  induction h with
  | last he _ => exact hvalue he
  | more he hcomma _ ih =>
    exact (ih.trans (ParserState.tally_stepped (Token.plain_of_isSymbol hcomma))).trans (hvalue he)

/-- **The body of a branch** adds nothing. -/
theorem tally_branchBody (hg : g.Tallying) {body : List Stmt}
    (h : parseStatements g branchEnds false s = .ok body t) : t.tally = s.tally := by
  have hends : "case" ∉ branchTags := by decide
  exact tallies_statements hg hends body t h

/-- **The branches** add nothing. -/
theorem tally_whenBranches (hg : g.Tallying) {bs : List WhenBranch} {o : Option (List Stmt)}
    (h : WhenBranches g s bs o t) : t.tally = s.tally := by
  have hname {s : ParserState} {name : String} (hk : s.stream.current.kind = .name name) :
      s.stepped.tally = s.tally :=
    ParserState.tally_stepped (hk ▸ trivial)
  induction h with
  | finish hend => exact hname hend
  | @otherwise s t body helse hbody =>
    have hbody : parseStatements g (["endcase"].map .name) false s.stepped = .ok body t := hbody
    obtain ⟨_, _, hk⟩ := ends_of_statements hbody
    have htally := tallies_statements hg (by decide) _ _ hbody
    exact ((hname hk).trans htally).trans (hname helse)
  | @branch s t u v es body bs o hwhen hvalues hbody _ ih =>
    have hmore := ih.trans (tally_branchBody hg hbody)
    exact (hmore.trans (tally_whenValues hg hvalues)).trans (hname hwhen)

/-- **A case distinction** makes up one name. -/
theorem tallies_case (hg : g.Tallying) (hk : s.stream.current.kind.Plain) :
    Tallies (parseCase g) s 1 := by
  intro x t h
  obtain ⟨subject, number, bs, o, hblock, -⟩ := caseBlock_of_ok h
  obtain ⟨u, dropped, v, hu, rfl, hv, hbs⟩ := hblock.read
  have hsubject : u.tally = s.stepped.tally :=
    Tallies.of_quiet (quiet_expression hg.toHushed true true _) (obeys_expression hg.still true true)
      subject u hu
  have hfresh : ParserState.tally { u with madeUp := u.madeUp + 1 } = u.tally + 1 :=
    Nat.succ_add u.madeUp _
  have hdropped : v.tally = u.tally + 1 := (tally_branchBody hg hv).trans hfresh
  rw [tally_whenBranches hg hbs, hdropped, hsubject, ParserState.tally_stepped hk]

/-! ### All tags -/

/-- Tags that are quiet and make up no names. -/
theorem QuietTag.tallies {p : Parser α} (hp : QuietTag p) (hstill : Obeys .still p)
    (hk : s.stream.current.kind.Plain) : Tallies p s 0 :=
  .of_quiet (hp s hk) hstill

/-- **The tags of every environment** add nothing, and none of them is that of a case distinction. -/
theorem tallies_builtin (hg : g.Tallying) {p : Parser Stmt} (h : builtin? g tag = some p)
    (hk : s.stream.current.kind.Plain) : tag ≠ "case" ∧ Tallies p s 0 := by
  have hhushed := hg.toHushed
  have hstill := hg.still
  have hne : tag ≠ "case" := by
    rintro rfl
    nomatch h
  refine ⟨hne, ?_⟩
  unfold builtin? at h
  split at h
  case h_1 => exact Option.some.inj h ▸ tallies_for hg
  case h_2 => exact Option.some.inj h ▸ .demand trivial fun _ _ => tallies_branch hg _ _ (.inl rfl)
  case h_3 => exact Option.some.inj h ▸ .demand trivial fun _ _ => tallies_branch hg _ _ (.inr rfl)
  case h_4 => exact Option.some.inj h ▸ .take hk fun _ => .pure
  case h_5 => exact Option.some.inj h ▸ .take hk fun _ => .pure
  case h_6 => exact Option.some.inj h ▸ tallies_block hg hk
  case h_7 => exact Option.some.inj h ▸ (quietTag_extends hhushed).tallies (obeys_extends hstill) hk
  case h_8 => exact Option.some.inj h ▸ (quietTag_print hhushed).tallies (obeys_print hstill) hk
  case h_9 => exact Option.some.inj h ▸ tallies_macro hg hk
  case h_10 =>
    exact Option.some.inj h ▸ (quietTag_inclusion hhushed _).tallies (obeys_inclusion hstill _) hk
  case h_11 =>
    exact Option.some.inj h ▸ (quietTag_inclusion hhushed _).tallies (obeys_inclusion hstill _) hk
  case h_12 => exact Option.some.inj h ▸ (quietTag_from hhushed).tallies (obeys_from hstill) hk
  case h_13 => exact Option.some.inj h ▸ (quietTag_import hhushed).tallies (obeys_import hstill) hk
  case h_14 => exact Option.some.inj h ▸ tallies_set hg hk _
  case h_15 => exact Option.some.inj h ▸ tallies_set hg hk _
  case h_16 => exact Option.some.inj h ▸ tallies_set hg hk _
  case h_17 => exact Option.some.inj h ▸ tallies_with hg hk
  case h_18 => exact Option.some.inj h ▸ tallies_autoescape hg hk
  case h_19 => exact Option.some.inj h ▸ tallies_callBlock hg hk
  case h_20 => exact Option.some.inj h ▸ tallies_filterBlock hg hk
  case h_21 => nomatch h

/-- **The tags of known extensions** add what they need. -/
theorem tallies_known (hg : g.Tallying) {x : Extension} (hx : x.Known) (htag : e.name ∈ x.tags)
    (hk : s.stream.current.kind.Plain) : Tallies (x.parse g) s e.needs := by
  cases hx with
  | doExpr =>
    have hname : e.name = "do" := List.mem_singleton.1 htag
    rw [TagHead.needs_other (hname ▸ by decide)]
    exact (quietTag_do hg.toHushed).tallies (obeys_do hg.still) hk
  | case =>
    rw [TagHead.needs_case (List.mem_singleton.1 htag)]
    exact tallies_case hg hk
  | shout h =>
    have hne : e.name ≠ "case" := fun heq => absurd (heq ▸ h e.name htag) (by decide)
    rw [TagHead.needs_other hne]
    exact (quietTag_shout hg.toHushed).tallies (obeys_shout hg.still) hk

/-- **Any statement** adds what its tag needs. -/
theorem tally_statement (henv : ∀ x ∈ env.extensions, x.Known) (hg : g.Tallying) {x : Expansion}
    (h : parseStatement env g s = .ok x t) :
    ∃ e, tagHead? s.stream.tokens = some e ∧ t.tally = s.tally + e.needs := by
  have h : Gives _ s x t := of_current h
  split at h
  · exact absurd h (failAt_ne_ok _ _)
  · next tag htag =>
    have hname := Token.name?_eq_some_iff.1 htag
    have he : tagHead? s.stream.tokens = some ⟨tag, assignsAhead s.stepped.stream.tokens⟩ :=
      tagHead?_eq_some_iff.2 ⟨hname, rfl⟩
    refine ⟨_, he, ?_⟩
    split at h
    · next p hp =>
      obtain ⟨v, hv, rfl⟩ := of_afterwards h
      have hk : s.stream.current.kind.Plain := hname ▸ trivial
      unfold tag? at hp
      split at hp
      · next q hq =>
        obtain rfl := Option.some.inj hp
        obtain ⟨stmt, hstmt, rfl⟩ := map_eq_ok.1 hv
        obtain ⟨hne, htally⟩ := tallies_builtin (s := { s with openTags := tag :: s.openTags }) hg hq hk
        rw [TagHead.needs_other hne]
        exact htally stmt v hstmt
      · obtain ⟨y, hy, rfl⟩ := Option.map_eq_some_iff.1 hp
        obtain ⟨hmem, hytag⟩ := Environment.extension?_mem hy
        exact tallies_known (s := { s with openTags := tag :: s.openTags })
          (e := ⟨tag, assignsAhead s.stepped.stream.tokens⟩) hg (henv y hmem) hytag hk x v hv
    · nomatch h

/-! ### Grammars -/

/-- **The bounded grammars** tally, since their references are to those of smaller bounds. -/
theorem tallying_below (henv : ∀ x ∈ env.extensions, x.Known) (n : Nat) :
    (below env n).Tallying := by
  induction n using Nat.strongRecOn with
  | _ n ih =>
    have hhushed : (below env n).Hushed := (faithful_below ⟨henv, fun _ => rfl⟩ n).toHushed
    refine { hhushed with still := minds_below env obeyedByRanges_counts n, statement := ?_,
                          branch := ?_ }
    · intro s x t h
      rw [below_statement] at h
      obtain ⟨hlt, h⟩ := guarded_eq_ok (p := fun j => parseStatement env (below env j)) h
      exact tally_statement henv (ih _ hlt) h
    · intro line tag s htag x t h
      rw [below_branch] at h
      obtain ⟨hlt, h⟩ := guarded_eq_ok (p := fun j => parseBranch (below env j) line tag false) h
      exact tallies_branch (ih _ hlt) line false htag x t h

/-- **The grammar of an environment** tallies. -/
theorem tallying_grammar (henv : ∀ x ∈ env.extensions, x.Known) : env.grammar.Tallying := by
  have hbelow (n : Nat) := tallying_below henv n
  have hhushed : env.grammar.Hushed := (faithful_grammar ⟨henv, fun _ => rfl⟩).toHushed
  refine { hhushed with still := minds_grammar env obeyedByRanges_counts, statement := ?_,
                        branch := ?_ }
  · exact fun s x t h => tally_statement henv (hbelow s.weight) h
  · exact fun line tag s htag x t h => tallies_branch (hbelow s.weight) line false htag x t h

/-! ### Streams -/

/-- The end of the template is no part of a tag. -/
theorem tagHeads_end {c : Token} (hc : c.isEnd = true) (ts : List Token) :
    tagHeads (ts ++ [c]) = tagHeads ts := by
  have hkind := Token.isEnd_iff.1 hc
  have hassigns (ts : List Token) : assignsAhead (ts ++ [c]) = assignsAhead ts := by
    induction ts with
    | nil =>
      have hsymbol : c.isSymbol .assign = false := by
        rw [Token.isSymbol, Token.type, hkind]
        rfl
      show (!c.isMark .blockEnd && (c.isSymbol .assign || false)) = false
      rw [hsymbol, Bool.or_false, Bool.and_false]
    | cons d ts ih => rw [List.cons_append, assignsAhead, ih, assignsAhead]
  have hhead (ts : List Token) : tagHead? (ts ++ [c]) = tagHead? ts := by
    cases ts with
    | nil =>
      have hname : c.name? = none := by
        rw [Token.name?, hkind]
      show c.name?.map _ = none
      rw [hname]
      rfl
    | cons d ts => rw [List.cons_append, tagHead?, hassigns, tagHead?]
  induction ts with
  | nil => exact tagHeads_plain (by rw [hkind]; rintro ⟨⟩)
  | cons d ts ih => rw [List.cons_append, tagHeads, hhead, ih, tagHeads]

/-- **The names made up for a template** are as many as its tags of case distinctions. -/
theorem madeUp_of_stream (henv : ∀ x ∈ env.extensions, x.Known) (hts : ∀ c ∈ ts, c.isEnd = false)
    {name filename : Option String} {body : List Stmt}
    (h : env.grammar.parseBody none { stream := .ofTokens ts name filename } = .ok body t) :
    t.madeUp = caseTags ts := by
  have hstream : (TokenStream.ofTokens ts name filename).tokens = ts ++ [TokenStream.endAfter ts] :=
    (TokenStream.tokens_ofTokens ts name filename).trans (close_eq_append hts)
  have hparts : repeatFrom (parseBodyPart env.grammar (([] : List String).map .name)) {}
      { stream := .ofTokens ts name filename } = .ok body t := h
  have htally := tallies_parts (tallying_grammar henv) (List.not_mem_nil (a := "case")) _ _ hparts
  have hend : t.stream.current.isEnd = true := by
    rcases nested_body (nesting_grammar henv) hparts with ⟨-, hend⟩ | ⟨_, _, _, _, hnone, _⟩
    · exact hend
    · nomatch hnone
  have hsuf := (lowers_parts (lowering_grammar henv _) (List.suffix_refl _) h).before.tokens
  rw [hstream] at hsuf
  have hlast : tagHeads t.stream.tokens = [] := by
    rcases List.suffix_concat_iff.1 hsuf with hnil | ⟨us, hus, -⟩
    · exact absurd hnil t.stream.tokens_ne_nil
    · have hnil : us = [] := by
        refine eq_nil_of_not_mem hus hsuf fun hmem => ?_
        rw [hts _ hmem] at hend
        nomatch hend
      rw [hus, hnil]
      exact tagHeads_end (TokenStream.isEnd_endAfter ts) []
  rw [ParserState.tally, ParserState.tally, caseTags, caseTags, hlast, hstream,
    tagHeads_end (TokenStream.isEnd_endAfter ts)] at htally
  exact htally.trans (Nat.zero_add _)

/-- **Where no extension makes up names**, there are no more of them behind a body. -/
theorem madeUp_of_body (hext : Conduct.still.ObeyedByExtensions env) {body : List Stmt}
    (h : env.grammar.parseBody none s = .ok body t) : t.madeUp = s.madeUp := by
  have hg : env.grammar.Orderly .still := counts_grammar hext
  exact (counts_body hg.toMinds hg.statement none).madeUp h

end LiquidTemplate
