import Mathlib
import LiquidTemplate.Proofs.Texts.Grammars
import LiquidTemplate.Proofs.Texts.Tokens

/-!
# No text of a template is lost

Whatever the delimiters are, the texts that a walk through a template meets are those of its data
tokens with their lines, each of them once and in their order. Where case distinctions are among the
extensions, the texts between a `case` tag and its first branch or its end are missing.

* `keptFrom_all`: without case distinctions no text is dropped.
* `texts_of_stream`: the texts of a stream.
* `texts_of_template`: the texts of a template.
-/

namespace LiquidTemplate

open LiquidTemplate.Parser LiquidTemplate.Grammar

variable {dropping : Bool} {env : Environment} {tokens : List Token} {body : List Stmt}

/-! ### What is dropped -/

theorem Place.dropsBehind_false {tag : String} {drops : List Bool} (h : ∀ x ∈ drops, x = false) :
    ∀ x ∈ dropsBehind false tag drops, x = false := by
  have hpush : ∀ x ∈ false :: drops, x = false := List.forall_mem_cons.2 ⟨rfl, h⟩
  have htail : ∀ x ∈ drops.tail, x = false := fun x hx => h x (List.mem_of_mem_tail hx)
  have hbranch (outer : List Bool) (hsub : outer ⊆ drops) : ∀ x ∈ false :: outer, x = false :=
    List.forall_mem_cons.2 ⟨rfl, fun x hx => h x (hsub hx)⟩
  unfold dropsBehind
  split
  · exact hpush
  · exact hpush
  · exact hpush
  · exact hpush
  · cases drops with
    | nil => exact List.forall_mem_nil _
    | cons _ outer => exact hbranch outer (List.subset_cons_self _ _)
  · cases drops with
    | nil => exact List.forall_mem_nil _
    | cons _ outer => exact hbranch outer (List.subset_cons_self _ _)
  · exact htail
  · exact htail
  · exact htail
  · exact htail
  · exact h

theorem Place.next_false {p : Place} (k : Token.Kind) (h : ∀ x ∈ p.drops, x = false) :
    ∀ x ∈ (p.next false k).drops, x = false := by
  unfold next
  split
  · exact h
  · dsimp only
    split
    · exact dropsBehind_false h
    · exact h
  · exact h

/-- **Without case distinctions** all texts are kept. -/
theorem keptFrom_all {p : Place} (h : ∀ x ∈ p.drops, x = false) :
    keptFrom false p tokens = tokens.filterMap Token.text? := by
  induction tokens generalizing p with
  | nil => rfl
  | cons t ts ih =>
      have hany : p.drops.any id = false := by
        rw [List.any_eq_false]
        exact fun x hx => by rw [h x hx]; exact Bool.false_ne_true
      rw [keptFrom, ih (Place.next_false t.kind h), Place.kept, hany, if_neg Bool.false_ne_true,
        List.filterMap_cons]
      cases t.text? <;> rfl

/-! ### Templates -/

/-- Only the end of a template is its end: nothing is left behind it. -/
theorem later_of_end {proper : List Token} {last : Token} (hproper : ∀ t ∈ proper, t.kind.Proper)
    {s : ParserState} (hsuf : s.stream.tokens <:+ proper ++ [last])
    (hend : s.stream.current.isEnd = true) : s.stream.later = [] := by
  rcases List.suffix_concat_iff.1 hsuf with hnil | ⟨ts, hts, hsuf⟩
  · exact absurd hnil s.stream.tokens_ne_nil
  · cases ts with
    | nil => exact (List.cons.inj hts).2
    | cons t ts =>
        obtain rfl : s.stream.current = t := (List.cons.inj hts).1
        have hbefore := hproper _ (hsuf.subset List.mem_cons_self)
        rw [Token.isEnd_iff.1 hend] at hbefore
        exact hbefore.elim

/-- Nothing is kept of what is left when the end of a template is reached. -/
theorem keptFrom_end {proper : List Token} {last : Token}
    (hproper : ∀ t ∈ proper, t.kind.Proper) {s : ParserState}
    (hsuf : s.stream.tokens <:+ proper ++ [last]) (hend : s.stream.current.isEnd = true)
    (p : Place) :
    keptFrom dropping p s.stream.tokens = [] := by
  have hcurrent : s.stream.current.kind = .mark .endOfTemplate := Token.isEnd_iff.1 hend
  rw [TokenStream.tokens, later_of_end hproper hsuf hend, keptFrom, Token.text?, hcurrent,
    Option.toList_none, Place.kept_nil]
  rfl

/-- **Texts of a stream** of the tokens of a template. -/
theorem texts_of_stream (henv : env.Told dropping) {source : String} {name filename : Option String}
    (htokens : Token.ofTemplate env.delimiters source = .ok tokens)
    (h : env.parseStream (.ofTokens tokens name filename) = .ok body) :
    textsOf body = keptFrom dropping {} tokens := by
  obtain ⟨proper, last, htok, hproper, hlast⟩ := Token.ofTemplate_eq htokens
  have hstream : (TokenStream.ofTokens tokens name filename).tokens = proper ++ [last] := by
    rw [TokenStream.tokens_ofTokens, TokenStream.close_ofTemplate htokens, htok]
  have hworded : ParserState.Worded ⟨.ofTokens tokens name filename, 0, [], []⟩ := by
    intro t ht data hdata
    rw [hstream] at ht
    rcases List.mem_append.1 ht with ht | ht
    · have hproper := hproper t ht
      rw [hdata] at hproper
      exact hproper
    · rw [List.mem_singleton.1 ht, hlast] at hdata
      nomatch hdata
  obtain ⟨t, hbody⟩ := parseStream_eq_ok.1 h
  have hparts : repeatFrom (parseBodyPart env.grammar (([] : List String).map .name)) {}
      ⟨.ofTokens tokens name filename, 0, [], []⟩ = .ok body t := hbody
  obtain ⟨hsuf, p, -, hkept, ⟨-, hend⟩ | ⟨-, tag, htag, -⟩⟩ :=
    told_body [] (faithful_grammar henv) hworded hparts
  · rw [hstream] at hsuf hkept
    rw [htok, hkept, keptFrom_end hproper hsuf hend, List.append_nil]
    rfl
  · nomatch htag

/-- **No text is lost, doubled or moved**, but for what stands before the first branch of a case
distinction. -/
theorem texts_of_template (hext : ∀ x ∈ env.extensions, x.Known) {source : String}
    {name filename : Option String} (h : env.parseTemplate source name filename = .ok body) :
    ∃ tokens, Token.ofTemplate env.delimiters source = .ok tokens ∧
      textsOf body = keptTexts tokens ∧
      (.case ∉ env.extensions → textsOf body = tokens.filterMap Token.text?) := by
  obtain ⟨tokens, htokens, h⟩ := parseTemplate_eq_ok.1 h
  refine ⟨tokens, htokens, texts_of_stream ⟨hext, fun _ => rfl⟩ htokens h, fun hcase => ?_⟩
  have hall : textsOf body = keptFrom false {} tokens :=
    texts_of_stream ⟨hext, fun hmem => absurd hmem hcase⟩ htokens h
  rw [hall]
  exact keptFrom_all nofun

/-- The text behind a `case` tag is dropped, and that behind its end is kept. -/
theorem texts_of_template_case :
    let env : Environment := ({} : Environment).withExtension .case
    let source := "\x7b%case x%\x7da\x7b%endcase%\x7db"
    ∃ body, env.parseTemplate source none none = .ok body ∧ textsOf body = [("b", 1)] := by
  intro env source
  let tokens : List Token := [⟨.mark .blockBegin, 1, ⟨0, 2⟩⟩, ⟨.name "case", 1, ⟨2, 6⟩⟩,
    ⟨.name "x", 1, ⟨7, 8⟩⟩, ⟨.mark .blockEnd, 1, ⟨8, 10⟩⟩, ⟨.data "a", 1, ⟨10, 11⟩⟩,
    ⟨.mark .blockBegin, 1, ⟨11, 13⟩⟩, ⟨.name "endcase", 1, ⟨13, 20⟩⟩,
    ⟨.mark .blockEnd, 1, ⟨20, 22⟩⟩, ⟨.data "b", 1, ⟨22, 23⟩⟩,
    ⟨.mark .endOfTemplate, 1, ⟨23, 23⟩⟩]
  have htokens : Token.ofTemplate env.delimiters source = .ok tokens := by cbv
  have hsome : (env.parseStream (.ofTokens tokens none none)).toOption.isSome = true := by cbv
  have hparse := parseTemplate_eq none none htokens
  cases h : env.parseStream (.ofTokens tokens none none) with
  | error e =>
      rw [h] at hsome
      cases hsome
  | ok body =>
      have hknown : ∀ x ∈ env.extensions, x.Known := by
        intro x hx
        rw [List.mem_singleton.1 hx]
        exact .case
      obtain ⟨tokens', htokens', htexts, _⟩ := texts_of_template hknown (hparse.trans h)
      obtain rfl := Except.ok.inj (htokens.symm.trans htokens')
      exact ⟨body, hparse.trans h, htexts⟩

end LiquidTemplate
