import LiquidTemplate.Grammar.Statement
import LiquidTemplate.Proofs.Progress.Expressions
import LiquidTemplate.Proofs.Texts.Grammars

/-!
# Statements on a route

Every tag consumes its name before anything else. The bodies of a statement stand inside of its tag,
before end tags one of which is its own, so that the statements of a body find each open tag beside
the end tags that are looked for.

* `Route.Nests`: routes on which tags can be nested.
* `Grammar.FollowsTags`: two grammars whose statements agree where less than a bound is left.
* `tracks_body`, `tracks_statements`: bodies.
* `BeginsTag`: parsers of tags, from the name of the tag on.
* `tracks_builtin`, `tracks_known`: the tags of every environment and of the known extensions.
* `tracks_statement`: any tag.
-/

namespace LiquidTemplate

open LiquidTemplate.Parser LiquidTemplate.Grammar

variable {α : Type} {r : Route} {n : Nat} {g g' : Grammar} {env : Environment} {tag : String}
  {rules : List TokenRule}

/-- **Routes with nested tags.** One more tag can be opened where its end tag is looked for, and it
is allowed to say at every place what is open. -/
structure Route.Nests (r : Route) : Prop where
  enter : ∀ {tags ends tag rules}, r.allows tags ends → endTag tag ∈ rules →
    r.allows (tag :: tags) (rules :: ends)
  unknown : ∀ {s : ParserState} {tag}, r.allows s.openTags s.expectedEnds → r.causes (s.unknownTag tag)

/-- **Two grammars whose statements agree** on a route where less than `n` is left to read. -/
structure Grammar.FollowsTags (r : Route) (n : Nat) (g g' : Grammar) : Prop
    extends Follows n g g' where
  statement : Tracks r n g.statement g'.statement Moving Anything
  branch : ∀ line tag,
    Tracks (r.inside tag) n (g.branch line tag) (g'.branch line tag) Moving Anything

/-! ### Bodies -/

section Bodies

variable (hg : g.FollowsTags r n g')
include hg

theorem tracks_output : Tracks r n (parseOutput g) (parseOutput g') Moving r.Holds :=
  ((tracks_anyTuple hg.toFollows).mono n.le_succ).andThen fun _ he =>
    (tracks_expect _).idle.bind fun _ _ => .pure he

theorem tracks_closedStatement :
    Tracks r n (parseClosedStatement g) (parseClosedStatement g') Moving Anything :=
  hg.statement.andThen fun _ _ => (tracks_expect _).idle.bind fun _ _ => .pure trivial

/-- **A part of a body** consumes a token unless it is the last one. -/
theorem tracks_bodyPart (ends : List TokenRule) (b : PartialBody) :
    Tracks r (n + 1) (parseBodyPart g ends b) (parseBodyPart g' ends b) Going
      (Sum.elim Anything Anything) := by
  refine .see fun s hs hw => ?_
  split
  · exact Tracks.last trivial s hs hw
  · next hk => exact .step hs hw (Token.isEnd_of_kind hk nofun) (.pure trivial)
  · next hk =>
    refine .step hs hw (Token.isEnd_of_kind hk nofun) ?_
    exact (tracks_output hg).idle.bind fun _ _ => .pure trivial
  · next hk =>
    refine .step hs hw (Token.isEnd_of_kind hk nofun) (tracks_current.bind fun _ _ => ?_)
    refine .ite (.pure trivial) ?_
    exact (tracks_closedStatement hg).idle.bind fun _ _ => .pure trivial
  · exact .failAt hs hs.current_line trivial

theorem tracks_parts (ends : List TokenRule) (b : PartialBody) :
    Tracks r (n + 1) (repeatFrom (parseBodyPart g ends) b) (repeatFrom (parseBodyPart g' ends) b) Idle
      Anything :=
  .loopAny fun b => tracks_bodyPart hg ends b

/-- **A body** before end tags, with which the tags of the route can be open. -/
theorem tracks_body (allows : List String → List (List TokenRule) → Prop)
    (hallows : ∀ tags ends, allows tags ends → r.allows tags (rules :: ends)) :
    Tracks (r.standing allows) (n + 1) (parseBody g (some rules)) (parseBody g' (some rules)) Idle
      Anything :=
  .awaiting r.allows (tracks_parts hg rules {}) hallows

/-- **A body of a statement** consumes the end of its tag. -/
theorem tracks_statements (allows : List String → List (List TokenRule) → Prop)
    (hallows : ∀ tags ends, allows tags ends → r.allows tags (rules :: ends)) (consume : Bool) :
    Tracks (r.standing allows) (n + 1) (parseStatements g rules consume)
      (parseStatements g' rules consume) Moving Anything := by
  refine (tracks_skipIf _).bind fun _ _ => (tracks_expect _).andThen fun _ _ => ?_
  refine (tracks_body hg allows hallows).bind fun _ _ => tracks_current.bind fun t ht => ?_
  refine .ite (tracks_failUnclosed _ ((r.standing allows).line_of_beneath t ht)) ?_
  exact .ite (tracks_step.bind fun _ _ => .pure trivial) (.pure trivial)

/-- The body of a tag, before its own end tag. -/
theorem tracks_inner (hr : r.Nests) (hend : endTag tag ∈ rules) (consume : Bool) :
    Tracks (r.inside tag) n (parseStatements g rules consume) (parseStatements g' rules consume)
      Moving Anything := by
  refine (tracks_statements hg _ (fun tags ends hopen => ?_) consume).mono n.le_succ
  obtain ⟨outer, rfl, houter⟩ := hopen
  exact hr.enter houter hend

end Bodies

/-! ### Parsers of tags -/

/-- **Two parsers of a tag** that agree from its name on, which they consume. -/
def BeginsTag (r : Route) (n : Nat) (p p' : Parser α) : Prop :=
  ∀ s, r.On s → s.weight < n + 1 → s.stream.current.isEnd = false →
    TracksAt r s p p' Moving Anything

theorem BeginsTag.advance {f f' : Token → Parser α}
    (h : ∀ t, Token.Beneath r.tokens t → Tracks r n (f t) (f' t) Idle Anything) :
    BeginsTag r n (advance >>= f) (advance >>= f') :=
  fun _ hs hw hend => .advance hs hw hend h

theorem BeginsTag.of_tracks {p p' : Parser α} (h : Tracks r (n + 1) p p' Moving Anything) :
    BeginsTag r n p p' :=
  fun s hs hw _ => h s hs hw

theorem BeginsTag.map {β : Type} {p p' : Parser α} {f : α → β} (h : BeginsTag r n p p') :
    BeginsTag r n (f <$> p) (f <$> p') :=
  fun s hs hw hend => (h s hs hw hend).map (fun _ _ => trivial) fun _ _ => trivial

/-! ### Tags without a body -/

section Expressions

variable (hg : g.Follows n g')
include hg

theorem tracks_value (conditional filters : Bool) :
    Tracks r n (parseExpression g conditional filters) (parseExpression g' conditional filters) Moving
      r.Holds :=
  (tracks_expression hg conditional filters).mono n.le_succ

theorem tracks_nextPrinted (nodes : List Expr) :
    Tracks r n (parseNextPrinted g nodes) (parseNextPrinted g' nodes) Going
      (Sum.elim Anything Anything) := by
  refine (tracks_atMark _).bind fun _ _ => .ite (.last trivial) ?_
  exact (tracks_separator _).bind fun _ _ => (tracks_value hg _ _).andThen fun _ _ => .pure trivial

theorem begins_print : BeginsTag r n (parsePrint g) (parsePrint g') := by
  have hprinted : Tracks r n (parsePrinted g) (parsePrinted g') Idle Anything :=
    .loopAny fun nodes => tracks_nextPrinted hg nodes
  exact .advance fun _ _ => hprinted.bind fun _ _ => .pure trivial

omit hg in
theorem tracks_context : Tracks r n parseContext? parseContext? Idle Anything :=
  tracks_current.bind fun _ _ => tracks_look.bind fun _ _ =>
    .ite (tracks_skip_two.bind fun _ _ => .pure trivial) (.pure trivial)

theorem begins_extends : BeginsTag r n (parseExtends g) (parseExtends g') :=
  .advance fun _ _ => (tracks_value hg _ _).idle.bind fun _ _ => .pure trivial

theorem begins_inclusion (make : Expr → Bool → Bool → Nat → Stmt) :
    BeginsTag r n (parseInclusion g make) (parseInclusion g' make) := by
  have hmissing : Tracks r n parseIgnoreMissing parseIgnoreMissing Idle Anything :=
    tracks_current.bind fun _ _ => tracks_look.bind fun _ _ =>
      .ite (tracks_skip_two.bind fun _ _ => .pure trivial) (.pure trivial)
  exact .advance fun _ _ => (tracks_value hg _ _).idle.bind fun _ _ => hmissing.bind fun _ _ =>
    tracks_context.bind fun _ _ => .pure trivial

theorem begins_import : BeginsTag r n (parseImport g) (parseImport g') :=
  .advance fun _ _ => (tracks_value hg _ _).idle.bind fun _ _ => (tracks_expect _).idle.bind fun _ _ =>
    tracks_targetName.idle.bind fun _ _ => tracks_context.bind fun _ _ => .pure trivial

omit hg in
theorem tracks_importName : Tracks r n parseImportName parseImportName Moving Anything := by
  have halias : Tracks r n parseAlias? parseAlias? Idle Anything :=
    .skips (tracks_targetName.idle.bind fun _ _ => .pure trivial) (.pure trivial)
  refine tracks_targetName.andThen fun _ ht => .ite (tracks_failAt ht trivial) ?_
  exact halias.bind fun _ _ => .pure trivial

omit hg in
theorem tracks_nextImport (names : List ImportName) :
    Tracks r n (parseNextImport names) (parseNextImport names) Going (Sum.elim Anything Anything) := by
  have hend (names : List ImportName) : Tracks r n (parseImportEnd names) (parseImportEnd names) Idle
      (Sum.elim Anything Anything) := by
    refine tracks_context.bind fun context _ => ?_
    cases context with
    | some _ => exact .pure trivial
    | none => exact (tracks_atSymbol _).bind fun _ _ => .ite (.pure trivial) (.pure trivial)
  refine (tracks_separator _).bind fun _ _ => tracks_current.bind fun _ _ => .ite (.last trivial) ?_
  refine tracks_context.bind fun context _ => ?_
  cases context with
  | some _ => exact .last trivial
  | none => exact tracks_importName.andThen fun _ _ => hend _

theorem begins_from : BeginsTag r n (parseFrom g) (parseFrom g') := by
  have hnames : Tracks r n parseImportNames parseImportNames Idle Anything :=
    .loopAny tracks_nextImport
  refine .advance fun _ _ => (tracks_value hg _ _).idle.bind fun _ _ => ?_
  refine (tracks_expect _).idle.bind fun _ _ => hnames.bind fun x _ => ?_
  obtain ⟨names, context⟩ := x
  cases context with
  | some _ => exact .pure trivial
  | none => exact (tracks_skipIf _).bind fun _ _ => .pure trivial

theorem begins_do : BeginsTag r n (parseDo g) (parseDo g') :=
  .advance fun _ _ => ((tracks_anyTuple hg).mono n.le_succ).idle.bind fun _ _ => .pure trivial

theorem begins_shout : BeginsTag r n (parseShout g) (parseShout g') :=
  .advance fun _ _ => (tracks_value hg _ _).idle.bind fun _ _ => .pure trivial

/-! ### Heads of tags with a body -/

theorem tracks_nextModifier (m : LoopModifiers) :
    Tracks r n (parseNextModifier g m) (parseNextModifier g' m) Going (Sum.elim Anything Anything) := by
  have hvalue : Tracks r n (parseModifierValue g) (parseModifierValue g') Idle r.Holds :=
    (tracks_expect _).idle.bind fun _ _ => (hg.expression r true true).idle
  refine .skips (.pure trivial) ?_
  refine .skips (hvalue.bind fun _ _ => .pure trivial) ?_
  exact .skips (hvalue.bind fun _ _ => .pure trivial) (.last trivial)

theorem tracks_iterable : Tracks r n (parseIterable g) (parseIterable g') Idle Anything := by
  have hmodifiers : Tracks r n (parseModifiers g) (parseModifiers g') Idle Anything :=
    .loopAny fun m => tracks_nextModifier hg m
  exact ((tracks_tuple hg _ _ _).mono n.le_succ).idle.bind fun _ _ => hmodifiers.bind fun _ _ =>
    .pure trivial

theorem tracks_loopTest : Tracks r n (parseLoopTest? g) (parseLoopTest? g') Idle Anything :=
  .skips ((tracks_value hg _ _).idle.bind fun _ _ => .pure trivial) (.pure trivial)

theorem tracks_nextBinding (bindings : List (Expr × Expr)) :
    Tracks r n (parseNextBinding g bindings) (parseNextBinding g' bindings) Going
      (Sum.elim Anything Anything) := by
  refine (tracks_atMark _).bind fun _ _ => .ite (.last trivial) ?_
  refine (tracks_separator _).bind fun _ _ => ?_
  refine ((tracks_target hg _ _).mono n.le_succ).andThen fun _ _ => ?_
  exact (tracks_expect _).idle.bind fun _ _ => (tracks_value hg _ _).idle.bind fun _ _ => .pure trivial

theorem tracks_bindings : Tracks r n (parseBindings g) (parseBindings g') Idle Anything :=
  .loopAny fun bindings => tracks_nextBinding hg bindings

theorem tracks_parameter (sig : Signature) :
    Tracks r n (parseParameter g sig) (parseParameter g' sig) Moving Anything := by
  refine tracks_targetName.andThen fun _ _ => .skips ?_ (.ite (.pure trivial) (tracks_fail trivial))
  exact (tracks_value hg _ _).idle.bind fun _ _ => .pure trivial

theorem tracks_nextParameter (sig : Signature) :
    Tracks r n (parseNextParameter g sig) (parseNextParameter g' sig) Going
      (Sum.elim Anything Anything) := by
  refine (tracks_atSymbol _).bind fun _ _ => .ite (.last trivial) ?_
  refine (tracks_separator _).bind fun _ _ => ?_
  exact (tracks_parameter hg sig).andThen fun _ _ => .pure trivial

theorem tracks_signature : Tracks r n (parseSignature g) (parseSignature g') Idle Anything := by
  have hparameters : Tracks r n (parseParameters g) (parseParameters g') Idle Anything :=
    .loopAny fun sig => tracks_nextParameter hg sig
  exact (tracks_expect _).idle.bind fun _ _ => hparameters.bind fun _ _ =>
    (tracks_expect _).idle.bind fun _ _ => .pure trivial

theorem tracks_optionalSignature :
    Tracks r n (parseOptionalSignature g) (parseOptionalSignature g') Idle Anything :=
  (tracks_atSymbol _).bind fun _ _ => .ite (tracks_signature hg) (.pure trivial)

theorem tracks_nextWhenValue (values : List Expr) :
    Tracks r n (parseNextWhenValue g values) (parseNextWhenValue g' values) Going
      (Sum.elim Anything Anything) :=
  (tracks_value hg _ _).andThen fun _ _ => .skips (.pure trivial) (.pure trivial)

theorem tracks_whenValues : Tracks r n (parseWhenValues g) (parseWhenValues g') Idle Anything :=
  .loopAny fun values => tracks_nextWhenValue hg values

end Expressions

/-! ### Tags with a body -/

section Statements

variable (hr : r.Nests) (hg : g.FollowsTags r n g')
include hr hg

theorem tracks_alternatives (tag : String) :
    Tracks (r.inside tag) n (parseAlternatives g tag) (parseAlternatives g' tag) Idle Anything := by
  refine tracks_advance.bind fun _ _ => .ite ?_ (.ite ?_ (.pure trivial))
  · exact tracks_current.bind fun _ _ => (hg.branch _ tag).idle.bind fun _ _ => .pure trivial
  · exact (tracks_inner hg hr List.mem_cons_self _).idle

/-- **Conditions** consume a token of their test. -/
theorem tracks_branch (line : Nat) (tag : String) (negate : Bool) :
    Tracks (r.inside tag) (n + 1) (parseBranch g line tag negate) (parseBranch g' line tag negate)
      Moving Anything := by
  have htest : Tracks (r.inside tag) (n + 1) (parseTuple g (.expression false) [] false)
      (parseTuple g' (.expression false) [] false) Moving (r.inside tag).Holds :=
    fun s hs hw => (tracks_tuple hg.toFollows _ _ _ s hs hw).imp (fun _ _ => rfl) fun _ => id
  refine htest.behind fun _ _ => ?_
  refine (tracks_inner hg hr (by simp) _).idle.bind fun _ _ => ?_
  exact (tracks_alternatives hr hg tag).bind fun _ _ => .pure trivial

theorem begins_if : BeginsTag (r.inside "if") n (parseIf g) (parseIf g') :=
  .of_tracks <| (tracks_expect _).behind fun _ _ =>
    ((tracks_branch hr hg _ "if" false).mono n.le_succ).idle

theorem begins_unless : BeginsTag (r.inside "unless") n (parseUnless g) (parseUnless g') :=
  .of_tracks <| (tracks_expect _).behind fun _ _ =>
    ((tracks_branch hr hg _ "unless" true).mono n.le_succ).idle

theorem begins_for : BeginsTag (r.inside "for") n (parseFor g) (parseFor g') := by
  have helse : Tracks (r.inside "for") n (parseLoopElse g) (parseLoopElse g') Idle Anything :=
    tracks_advance.bind fun _ _ => .ite (.pure trivial) (tracks_inner hg hr (by decide) _).idle
  refine .of_tracks <| (tracks_expect _).behind fun _ _ => ?_
  refine ((tracks_target hg.toFollows _ _).mono n.le_succ).idle.bind fun _ _ => ?_
  refine (tracks_expect _).idle.bind fun _ _ => (tracks_iterable hg.toFollows).bind fun _ _ => ?_
  refine (tracks_loopTest hg.toFollows).bind fun _ _ => (tracks_skipIf _).bind fun _ _ => ?_
  refine (tracks_inner hg hr (by decide) _).idle.bind fun _ _ => helse.bind fun _ _ => ?_
  exact .pure trivial

theorem begins_set (tag : String) : BeginsTag (r.inside tag) n (parseSet g tag) (parseSet g' tag) := by
  refine .advance fun _ _ => ((tracks_target hg.toFollows _ _).mono n.le_succ).idle.bind fun _ _ => ?_
  refine .skips ?_ ?_
  · exact ((tracks_anyTuple hg.toFollows).mono n.le_succ).idle.bind fun _ _ => .pure trivial
  · exact (tracks_inner hg hr List.mem_cons_self _).idle.bind fun _ _ => .pure trivial

theorem begins_with : BeginsTag (r.inside "with") n (parseWith g) (parseWith g') :=
  .advance fun _ _ => (tracks_bindings hg.toFollows).bind fun _ _ =>
    (tracks_inner hg hr List.mem_cons_self _).idle.bind fun _ _ => .pure trivial

theorem begins_autoescape :
    BeginsTag (r.inside "autoescape") n (parseAutoescape g) (parseAutoescape g') :=
  .advance fun _ _ => (tracks_value hg.toFollows _ _).idle.bind fun _ _ =>
    (tracks_inner hg hr List.mem_cons_self _).idle.bind fun _ _ => .pure trivial

theorem begins_block : BeginsTag (r.inside "block") n (parseBlock g) (parseBlock g') := by
  have hhyphen : Tracks (r.inside "block") n refuseHyphen refuseHyphen Idle Anything :=
    (tracks_atSymbol _).bind fun _ _ => .ite (tracks_fail trivial) (.pure trivial)
  refine .advance fun _ _ => (tracks_expect _).idle.bind fun _ _ => (tracks_skipIf _).bind fun _ _ => ?_
  refine hhyphen.bind fun _ _ => (tracks_inner hg hr List.mem_cons_self _).idle.bind fun _ _ => ?_
  exact (tracks_skipIf _).bind fun _ _ => .pure trivial

theorem begins_macroTag : BeginsTag (r.inside "macro") n (parseMacro g) (parseMacro g') :=
  .advance fun _ _ => tracks_targetName.idle.bind fun _ _ =>
    (tracks_signature hg.toFollows).bind fun _ _ =>
      (tracks_inner hg hr List.mem_cons_self _).idle.bind fun _ _ => .pure trivial

theorem begins_callBlock : BeginsTag (r.inside "call") n (parseCallBlock g) (parseCallBlock g') := by
  refine .advance fun _ ht => (tracks_optionalSignature hg.toFollows).bind fun _ _ => ?_
  refine (tracks_value hg.toFollows _ _).idle.bind fun _ _ => .ite ?_ (tracks_failAt ?_ trivial)
  · exact (tracks_inner hg hr List.mem_cons_self _).idle.bind fun _ _ => .pure trivial
  · exact r.line_of_beneath _ ht

theorem begins_filterBlock :
    BeginsTag (r.inside "filter") n (parseFilterBlock g) (parseFilterBlock g') :=
  .advance fun _ _ => (tracks_filters hg.toFollows none true nofun).bind fun _ _ =>
    (tracks_inner hg hr List.mem_cons_self _).idle.bind fun _ _ => .pure trivial

/-! ### Case distinctions -/

omit hr hg in
/-- **A branch** of a case distinction, on a route with bodies before its end tag. -/
theorem tracks_nextBranch (hg : g.Follows n g')
    (hbody : ∀ rules, endTag "case" ∈ rules →
      Tracks r n (parseStatements g rules false) (parseStatements g' rules false) Moving Anything)
    (x : List CaseBranch × List Stmt) :
    Tracks r n (parseNextBranch g x.1 x.2) (parseNextBranch g' x.1 x.2) Going
      (Sum.elim Anything Anything) := by
  have hbranch (line : Nat) :
      Tracks r n (parseCaseBranch g line) (parseCaseBranch g' line) Moving Anything :=
    (tracks_whenValues hg).bind fun _ _ => (hbody _ (by decide)).andThen fun _ _ => .pure trivial
  refine tracks_advance.bind fun t _ => .ite ?_ (.ite ?_ (.last trivial))
  · exact (hbranch t.line).andThen fun _ _ => .pure trivial
  · exact (hbody _ (by decide)).andThen fun _ _ => .pure trivial

theorem begins_case : BeginsTag (r.inside "case") n (parseCase g) (parseCase g') := by
  have hbody (rules : List TokenRule) (hend : endTag "case" ∈ rules) :
      Tracks (r.inside "case") n (parseStatements g rules false) (parseStatements g' rules false)
        Moving Anything :=
    tracks_inner hg hr hend false
  have hbranches : Tracks (r.inside "case") n (parseCaseBranches g) (parseCaseBranches g') Idle
      Anything :=
    .loopAny fun x => tracks_nextBranch hg.toFollows hbody x
  refine .advance fun _ _ => (tracks_value hg.toFollows _ _).idle.bind fun _ _ => ?_
  refine (tracks_freshName _).bind fun _ _ => (hbody _ (by decide)).idle.bind fun _ _ => ?_
  exact hbranches.bind fun _ _ => .pure trivial

/-! ### All tags -/

/-- **The tags of every environment.** -/
theorem begins_builtin (tag : String) :
    Option.Rel (BeginsTag (r.inside tag) n) (builtin? g tag) (builtin? g' tag) := by
  have hjump {make : Nat → Stmt} : BeginsTag (r.inside tag) n
      (do return make (← advance).line) (do return make (← advance).line) :=
    .advance fun _ _ => .pure trivial
  unfold builtin?
  split
  · exact .some (begins_for hr hg)
  · exact .some (begins_if hr hg)
  · exact .some (begins_unless hr hg)
  · exact .some hjump
  · exact .some hjump
  · exact .some (begins_block hr hg)
  · exact .some (begins_extends hg.toFollows)
  · exact .some (begins_print hg.toFollows)
  · exact .some (begins_macroTag hr hg)
  · exact .some (begins_inclusion hg.toFollows _)
  · exact .some (begins_inclusion hg.toFollows _)
  · exact .some (begins_from hg.toFollows)
  · exact .some (begins_import hg.toFollows)
  · exact .some (begins_set hr hg _)
  · exact .some (begins_set hr hg _)
  · exact .some (begins_set hr hg _)
  · exact .some (begins_with hr hg)
  · exact .some (begins_autoescape hr hg)
  · exact .some (begins_callBlock hr hg)
  · exact .some (begins_filterBlock hr hg)
  · exact .none

/-- **The tags of known extensions.** -/
theorem begins_known {x : Extension} (hx : x.Known) (htag : tag ∈ x.tags) :
    BeginsTag (r.inside tag) n (x.parse g) (x.parse g') := by
  cases hx with
  | doExpr => exact begins_do hg.toFollows
  | case =>
    obtain rfl := List.mem_singleton.1 htag
    exact begins_case hr hg
  | shout _ => exact begins_shout hg.toFollows

theorem begins_tag (henv : ∀ x ∈ env.extensions, x.Known) (tag : String) :
    Option.Rel (BeginsTag (r.inside tag) n) (tag? env g tag) (tag? env g' tag) := by
  have hbuiltin := begins_builtin hr hg tag
  unfold tag?
  generalize builtin? g tag = p at hbuiltin
  generalize builtin? g' tag = p' at hbuiltin
  cases hbuiltin with
  | some h => exact .some h.map
  | none =>
    dsimp only
    cases hx : env.extension? tag with
    | none => exact .none
    | some x =>
      obtain ⟨hmem, htag⟩ := Environment.extension?_mem hx
      exact .some (begins_known hr hg (henv x hmem) htag)

/-- **Any statement** consumes its name. -/
theorem tracks_statement (henv : ∀ x ∈ env.extensions, x.Known) :
    Tracks r (n + 1) (parseStatement env g) (parseStatement env g') Moving Anything := by
  refine .see fun s hs hw => ?_
  cases hname : s.stream.current.name? with
  | none => exact .failAt hs hs.current_line trivial
  | some tag =>
    have hend : s.stream.current.isEnd = false :=
      Token.isEnd_of_kind (Token.name?_eq_some_iff.1 hname) nofun
    have htag := begins_tag hr hg henv tag
    dsimp only
    generalize tag? env g tag = p at htag
    generalize tag? env g' tag = p' at htag
    cases htag with
    | none => exact ⟨rfl, .refl s, hs.fault_error hs.current_line (hr.unknown hs.allowed)⟩
    | some h => exact .inTag (h _ ⟨hs.tokens, hs.name, hs.filename, _, rfl, hs.allowed⟩ hw hend)

end Statements

end LiquidTemplate
