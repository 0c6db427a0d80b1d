import LiquidTemplate.Proofs.Nesting.Heads
import LiquidTemplate.Proofs.Nesting.Sparing
import LiquidTemplate.Proofs.Texts.Bodies

/-!
# Nesting of bodies

The tags that a parser of a body consumes are nested tags, one after the other, up to an end tag.

* `Parser.Nests`: what is known of the heads of the tags that a parser consumes.
* `Grammar.Nesting`: a grammar whose statements are nested tags.
* `NestedSince`: the heads since a state are those of a body.
* `nested_part`, `nested_body`: one part of a body, and all of them.
* `nested_statements`, `nests_closed`: the body of a statement.
-/

namespace LiquidTemplate

open LiquidTemplate.Parser LiquidTemplate.Grammar

variable {α β : Type} {s t u : ParserState}

/-! ### Parsers that nest -/

namespace Parser

variable {p : Parser α} {f : α → Parser β} {post : List TagHead → Prop}

/-- **Nesting**: if the parser succeeds in this state, the heads of the tags that it has consumed
satisfy `post`. -/
def Nests (p : Parser α) (s : ParserState) (post : List TagHead → Prop) : Prop :=
  ∀ x t, p s = .ok x t →
    ∃ hs, tagHeads s.stream.tokens = hs ++ tagHeads t.stream.tokens ∧ post hs

theorem Nests.of_quiet {pre : α → Prop} (hp : Quiet p s pre) (h : post []) : Nests p s post := by
  intro x t hx
  exact ⟨[], tagHeads_passes (hp x t hx).1, h⟩

theorem Nests.pure {x : α} (h : post []) : Nests (Pure.pure x) s post :=
  Nests.of_quiet (Quiet.pure trivial : Quiet (Pure.pure x) s (fun _ => True)) h

theorem Nests.failAt {cause : SyntaxError.Cause} {line : Nat} :
    Nests (Parser.failAt cause line : Parser α) s post :=
  fun _ _ h => absurd h (failAt_ne_ok cause line)

/-- What is nested behind a quiet part. -/
theorem Nests.quiet {pre : α → Prop} (hp : Quiet p s pre)
    (hf : ∀ x t, p s = .ok x t → Nests (f x) t post) : Nests (p >>= f) s post := by
  intro y u h
  obtain ⟨x, t, hx, hy⟩ := bind_eq_ok.1 h
  obtain ⟨hs, hheads, hpost⟩ := hf x t hx y u hy
  exact ⟨hs, (tagHeads_passes (hp x t hx).1).trans hheads, hpost⟩

/-- What is nested before a quiet part. -/
theorem Nests.finish (hp : Nests p s post) (hf : ∀ x t, Quiet (f x) t (fun _ => True)) :
    Nests (p >>= f) s post := by
  intro y u h
  obtain ⟨x, t, hx, hy⟩ := bind_eq_ok.1 h
  obtain ⟨hs, hheads, hpost⟩ := hp x t hx
  refine ⟨hs, ?_, hpost⟩
  rw [hheads, tagHeads_passes (hf x t y u hy).1]

theorem Nests.mono {post' : List TagHead → Prop} (hp : Nests p s post)
    (h : ∀ hs, post hs → post' hs) : Nests p s post' := by
  intro x t hx
  obtain ⟨hs, hheads, hpost⟩ := hp x t hx
  exact ⟨hs, hheads, h hs hpost⟩

/-- What is nested behind the name of a tag that is taken. -/
theorem Nests.take {f : Token → Parser β} {e : TagHead} (he : tagHead? s.stream.tokens = some e)
    (h : Nests (f s.stream.current) s.stepped post) : Nests (advance >>= f) s post := by
  intro y u hy
  obtain ⟨hs, hheads, hpost⟩ := h y u hy
  exact ⟨hs, (tagHeads_name he).trans hheads, hpost⟩

/-- What is nested behind the name of a tag that is demanded. -/
theorem Nests.demand {f : Token → Parser β} {rule : TokenRule} {e : TagHead}
    (he : tagHead? s.stream.tokens = some e) (h : Nests (f s.stream.current) s.stepped post) :
    Nests (expect rule >>= f) s post := by
  intro y u hy
  obtain ⟨tok, t, ht, hy⟩ := bind_eq_ok.1 hy
  obtain ⟨_, rfl, rfl⟩ := expect_eq_ok.1 ht
  exact Nests.take (f := f) he h y u hy

end Parser

/-! ### Nesting grammars -/

/-- **A body with its end tag.** -/
def ClosedBody (tag : String) (hs : List TagHead) : Prop :=
  ∃ body e, hs = body ++ [e] ∧ NestedBody body ∧ e.Ends tag

/-- **A body with what follows it** in a branching tag. -/
def BranchedBody (tag : String) (hs : List TagHead) : Prop :=
  ∃ body tail, hs = body ++ tail ∧ NestedBody body ∧ NestedTail tag tail

/-- **A nesting grammar**: its statements are nested tags, and its conditions have the alternatives
of their tag. -/
structure Grammar.Nesting (g : Grammar) : Prop extends Hushed g where
  spares : g.group.Spares
  statement : ∀ s, Nests g.statement s
    (fun hs => ∃ e, tagHead? s.stream.tokens = some e ∧ NestedTag (e :: hs))
  branch : ∀ line tag s, tag = "if" ∨ tag = "unless" → Nests (g.branch line tag) s (BranchedBody tag)

variable {g : Grammar}

/-! ### Bodies -/

/-- **Nested since** the state `s`: the tags up to the state `t` are those of a body. -/
def NestedSince (s t : ParserState) : Prop :=
  ∃ hs, tagHeads s.stream.tokens = hs ++ tagHeads t.stream.tokens ∧ NestedBody hs

theorem NestedSince.refl (s : ParserState) : NestedSince s s :=
  ⟨[], rfl, .empty⟩

/-- Where no head is left out nothing changes. -/
theorem NestedSince.same (h : NestedSince s t)
    (heq : tagHeads t.stream.tokens = tagHeads u.stream.tokens) : NestedSince s u := by
  obtain ⟨hs, hheads, hbody⟩ := h
  exact ⟨hs, heq ▸ hheads, hbody⟩

/-- **One part of a body** is at most one tag. -/
theorem nested_part (hg : g.Nesting) {ends : List TokenRule} {b b' : PartialBody}
    (hsince : NestedSince s t) (h : parseBodyPart g ends b t = .ok (.inl b') u) :
    NestedSince s u := by
  cases bodyStep_of_ok h with
  | text hk => exact hsince.same (tagHeads_stepped hk nofun)
  | output hk hread =>
      have hpass := (quiet_output hg.toHushed _ _ _ hread).1
      exact hsince.same ((tagHeads_stepped hk nofun).trans (tagHeads_passes hpass))
  | statement hk hread =>
      have hclosed : Nests (parseClosedStatement g) t.stepped
          (fun ts => ∃ e, tagHead? t.stepped.stream.tokens = some e ∧ NestedTag (e :: ts)) :=
        (hg.statement t.stepped).finish fun _ _ => Quiet.demand trivial (Quiet.pure trivial)
      obtain ⟨hs, hheads, hbody⟩ := hsince
      obtain ⟨ts, hinner, e, he, htag⟩ := hclosed _ _ hread
      refine ⟨hs ++ e :: ts, ?_, .more hbody htag⟩
      rw [hheads, tagHeads_begin hk, he, hinner, List.append_assoc]
      rfl

/-- **The end of a body**: the end of the template, or an end tag up to its name. -/
theorem nested_end {tags : List String} {b : PartialBody} {body : List Stmt}
    (h : parseBodyPart g (tags.map .name) b s = .ok (.inr body) t) :
    t = s ∧ s.stream.current.isEnd = true ∨
      ∃ e, e.name ∈ tags ∧ tagHead? t.stream.tokens = some e ∧
        tagHeads s.stream.tokens = e :: tagHeads t.stream.tokens := by
  cases bodyStep_of_ok h with
  | endOfTemplate hk => exact .inl ⟨rfl, Token.isEnd_iff.2 hk⟩
  | endTag hk hfits =>
      obtain ⟨tag, htag, hname⟩ := fitsAny_names hfits
      have he : tagHead? s.stepped.stream.tokens =
          some ⟨tag, assignsAhead s.stepped.stepped.stream.tokens⟩ :=
        tagHead?_eq_some_iff.2 ⟨hname, rfl⟩
      refine .inr ⟨_, htag, he, ?_⟩
      rw [tagHeads_begin hk, he]
      rfl

/-- **A body** up to the end of the template or to the name of an end tag. -/
theorem nested_body (hg : g.Nesting) {tags : List String} {body : List Stmt}
    (h : repeatFrom (parseBodyPart g (tags.map .name)) {} s = .ok body t) :
    NestedSince s t ∧ t.stream.current.isEnd = true ∨
      ∃ hs e, tagHeads s.stream.tokens = hs ++ e :: tagHeads t.stream.tokens ∧ NestedBody hs ∧
        e.name ∈ tags ∧ tagHead? t.stream.tokens = some e := by
  obtain ⟨b, u, hsince, hlast⟩ := repeatFrom_induction (fun _ u => NestedSince s u)
    (fun _ _ _ _ hsince hpart _ => nested_part hg hsince hpart) (NestedSince.refl s) h
  rcases nested_end hlast with ⟨rfl, hend⟩ | ⟨e, htag, he, hheads⟩
  · exact .inl ⟨hsince, hend⟩
  · obtain ⟨hs, hbefore, hbody⟩ := hsince
    refine .inr ⟨hs, e, ?_, hbody, htag, he⟩
    rw [hbefore, hheads]

/-- **The body of a statement** up to the name of one of its end tags. -/
theorem nested_statements (hg : g.Nesting) {tags : List String} {body : List Stmt}
    (h : parseStatements g (tags.map .name) false s = .ok body t) :
    ∃ hs e, tagHeads s.stream.tokens = hs ++ e :: tagHeads t.stream.tokens ∧ NestedBody hs ∧
      e.name ∈ tags ∧ tagHead? t.stream.tokens = some e := by
  obtain ⟨found, u, hu, hrest⟩ := bind_eq_ok.1 h
  obtain ⟨hpass, -⟩ := quiet_skipIf (.type (.symbol .colon)) trivial _ _ hu
  obtain ⟨tok, v, hv, hrest⟩ := bind_eq_ok.1 hrest
  obtain ⟨hpass', -⟩ := quiet_expect (.type (.mark .blockEnd)) trivial _ _ hv
  obtain ⟨ss, w, hss, hrest⟩ := bind_eq_ok.1 hrest
  obtain ⟨v', w', hstream, hstream', hss⟩ := awaiting_eq_ok hss
  have hnested := nested_body hg hss
  rw [hstream'] at hnested
  obtain ⟨tok', w'', hcur, hif⟩ := bind_eq_ok.1 hrest
  obtain ⟨rfl, rfl⟩ := current_eq_ok.1 hcur
  split at hif
  · nomatch hif
  · next hnot =>
      obtain ⟨rfl, rfl⟩ := EStateM.Result.ok.inj hif
      rcases hnested with ⟨-, hend⟩ | ⟨hs, e, hheads, hnested⟩
      · exact absurd hend hnot
      · refine ⟨hs, e, ?_, hnested⟩
        rw [tagHeads_passes (hpass.trans hpass'), ← hheads, hstream]

/-- **The body of a statement** with its end tag. -/
theorem nests_closed (hg : g.Nesting) (tag : String) :
    Nests (parseStatements g [endTag tag] true) s (ClosedBody tag) := by
  intro body t h
  obtain ⟨u, hu, rfl⟩ := parseStatements_consume h
  have htags : parseStatements g (["end" ++ tag].map .name) false s = .ok body u := hu
  obtain ⟨hs, e, hheads, hbody, hname, he⟩ := nested_statements hg htags
  refine ⟨hs ++ [e], ?_, hs, e, rfl, hbody, List.mem_singleton.1 hname⟩
  rw [hheads, tagHeads_name he, List.append_assoc]
  rfl

end LiquidTemplate
