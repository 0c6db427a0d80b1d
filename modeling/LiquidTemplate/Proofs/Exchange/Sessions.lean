import LiquidTemplate.Proofs.Exchange.Grammars
import LiquidTemplate.Proofs.Exchange.PrintTags
import LiquidTemplate.Proofs.Texts.Templates

/-!
# Lines of a session

A line of a session is read as the inside of a print tag is, except that the end of the line ends
neither the arguments of a filter behind a colon nor a tuple behind its last comma.

* `parseLine_eq_ok`: when a line is read.
* `parseBody_print`: when the tokens of a print tag are one output.
* `print_of_line`: what a line gives, a print tag gives too, and the other way round without such
  arguments and commas.
-/

namespace LiquidTemplate

open LiquidTemplate.Parser LiquidTemplate.Grammar LiquidTemplate.Text

variable {env : Environment} {g : Grammar} {s t u : ParserState} {e : Expr}
  {ts inner : List Token} {start close last : Token} {text name : String}

/-! ### Lines -/

theorem parseWhole_eq_ok : parseWhole g s = .ok e t ↔
    parseAnyTuple g s = .ok e t ∧ t.stream.atEnd = true := by
  constructor
  · intro h
    obtain ⟨e', u, hu, h⟩ := bind_eq_ok.1 h
    obtain ⟨tok, v, hv, h⟩ := bind_eq_ok.1 h
    obtain ⟨rfl, rfl⟩ := current_eq_ok.1 hv
    split at h
    · next hend =>
      obtain ⟨rfl, rfl⟩ := EStateM.Result.ok.inj h
      exact ⟨hu, hend⟩
    · exact absurd h (failAt_ne_ok _ _)
  · rintro ⟨h, hend⟩
    refine bind_eq_ok.2 ⟨e, t, h, bind_eq_ok.2 ⟨_, t, rfl, ?_⟩⟩
    have hend : t.stream.current.isEnd = true := hend
    rw [if_pos hend]
    rfl

/-- **A line of a session** is a tuple up to the end of its tokens. -/
theorem parseLine_eq_ok (h : Token.ofExpression text 1 0 = .ok ts) :
    env.parseLine text name = .ok e ↔ ∃ t,
      parseAnyTuple env.grammar { stream := .ofTokens ts name none } = .ok e t ∧
        t.stream.atEnd = true := by
  have hline : env.parseLine text name =
      (runOn (.ofTokens ts name none) env.grammar.parseWhole).map Prod.fst := by
    unfold Environment.parseLine
    rw [h]
    show (runOn (.ofTokens ts name none) env.grammar.parseWhole).bind _ = _
    cases runOn (.ofTokens ts name none) env.grammar.parseWhole <;> rfl
  rw [hline]
  constructor
  · intro hok
    cases hrun : runOn (.ofTokens ts name none) env.grammar.parseWhole with
    | error _ =>
      rw [hrun] at hok
      nomatch hok
    | ok found =>
      obtain ⟨e', tok⟩ := found
      rw [hrun] at hok
      obtain rfl := Except.ok.inj hok
      obtain ⟨t, ht, -⟩ := runOn_eq_ok.1 hrun
      exact ⟨t, parseWhole_eq_ok.1 ht⟩
  · rintro ⟨t, ht⟩
    rw [runOn_eq_ok.2 ⟨t, parseWhole_eq_ok.2 ht, rfl⟩]
    rfl

/-! ### Print tags -/

theorem parseOutput_eq_ok : parseOutput g s = .ok e u ↔ ∃ t, parseAnyTuple g s = .ok e t ∧
    t.stream.current.kind = .mark .variableEnd ∧ u = t.stepped := by
  constructor
  · intro h
    obtain ⟨e', t, ht, h⟩ := bind_eq_ok.1 h
    obtain ⟨tok, v, hv, h⟩ := bind_eq_ok.1 h
    obtain ⟨hfits, -, rfl⟩ := expect_eq_ok.1 hv
    obtain ⟨rfl, rfl⟩ := EStateM.Result.ok.inj h
    exact ⟨t, ht, Token.isMark_iff.1 hfits, rfl⟩
  · rintro ⟨t, ht, hmark, rfl⟩
    have hend : expectMark .variableEnd t = .ok t.stream.current t.stepped :=
      expect_eq_ok.2 ⟨Token.isMark_iff.2 hmark, rfl, rfl⟩
    exact bind_eq_ok.2 ⟨e, t, ht, bind_eq_ok.2 ⟨_, t.stepped, hend, rfl⟩⟩

theorem parseBodyPart_of_output {b : PartialBody} {ends : List TokenRule}
    (hs : s.stream.current.kind = .mark .variableBegin) (h : parseOutput g s.stepped = .ok e t) :
    parseBodyPart g ends b s = .ok (.inl (b.addOutput e)) t := by
  refine bind_eq_ok.2 ⟨_, s, rfl, ?_⟩
  rw [hs]
  exact bind_eq_ok.2 ⟨(), s.stepped, rfl, bind_eq_ok.2 ⟨e, t, h, rfl⟩⟩

theorem parseBodyPart_of_end {b : PartialBody} {ends : List TokenRule}
    (hs : s.stream.current.kind = .mark .endOfTemplate) :
    parseBodyPart g ends b s = .ok (.inr b.flush.stmts) s := by
  refine bind_eq_ok.2 ⟨_, s, rfl, ?_⟩
  rw [hs]
  rfl

/-- **At the end of the template** a body is complete. -/
theorem body_of_end {b : PartialBody} {ends : List TokenRule} {body : List Stmt}
    (hs : s.stream.current.kind = .mark .endOfTemplate)
    (h : repeatFrom (parseBodyPart g ends) b s = .ok body t) : t = s ∧ body = b.flush.stmts := by
  rcases repeatFrom_eq_ok.1 h with hlast | ⟨b', v, hpart, -, -⟩
  · rw [parseBodyPart_of_end hs] at hlast
    obtain ⟨hbody, ht⟩ := EStateM.Result.ok.inj hlast
    exact ⟨ht.symm, (Sum.inr.inj hbody).symm⟩
  · rw [parseBodyPart_of_end hs] at hpart
    nomatch hpart

/-- **Behind the beginning of a print tag** an output is the first part of a body. -/
theorem body_of_begin {ends : List TokenRule} {body : List Stmt}
    (hs : s.stream.current.kind = .mark .variableBegin)
    (h : repeatFrom (parseBodyPart g ends) {} s = .ok body u) : ∃ e t,
      parseOutput g s.stepped = .ok e t ∧
        repeatFrom (parseBodyPart g ends) (PartialBody.addOutput {} e) t = .ok body u := by
  have hmarks {m : Mark} (hk : s.stream.current.kind = .mark m) : m = .variableBegin :=
    Token.Kind.mark.inj (hk.symm.trans hs)
  rcases repeatFrom_eq_ok.1 h with hlast | ⟨b, t, hpart, -, hrest⟩
  · cases bodyStep_of_ok hlast with
    | endTag hk => nomatch hmarks hk
    | endOfTemplate hk => nomatch hmarks hk
  · cases bodyStep_of_ok hpart with
    | text hk => nomatch hk.symm.trans hs
    | statement hk => nomatch hmarks hk
    | output _ he => exact ⟨_, t, he, hrest⟩

/-- **The tokens of a print tag** are one output. -/
theorem parseBody_print {body : List Stmt} (hs : s.stream.tokens = start :: (inner ++ [close, last]))
    (hstart : start.kind = .mark .variableBegin) (hinner : ∀ t ∈ inner, t.kind.Inner)
    (hclose : close.kind = .mark .variableEnd) (hlast : last.kind = .mark .endOfTemplate) :
    env.grammar.parseBody none s = .ok body u ↔ ∃ e t,
      parseAnyTuple env.grammar s.stepped = .ok e t ∧ t.stream.tokens = [close, last] ∧
        u = t.stepped ∧ body = [.output [e] e.line] := by
  have hbegin : s.stream.current.kind = .mark .variableBegin :=
    (Exchange.current_of_tokens hs).symm ▸ hstart
  have hstepped : s.stepped.stream.tokens = inner ++ [close, last] :=
    Exchange.tokens_stepped hs (by simp)
  have hloop : env.grammar.parseBody none s = repeatFrom (parseBodyPart env.grammar []) {} s := rfl
  have hbehind {t : ParserState} (ht : t.stream.tokens = [close, last]) :
      t.stepped.stream.tokens = [last] := Exchange.tokens_stepped ht nofun
  rw [hloop]
  constructor
  · intro h
    obtain ⟨e, v, he, hrest⟩ := body_of_begin hbegin h
    obtain ⟨t, ht, hmark, rfl⟩ := parseOutput_eq_ok.1 he
    have hfree : t.stream.current ∉ inner := fun hmem =>
      Token.not_mark_of_inner (hinner _ hmem) ⟨_, hmark⟩
    have hleft : t.stream.tokens <:+ [close, last] :=
      suffix_of_not_mem (hstepped ▸ suffix_of_anyTuple ht) hfree
    have htokens : t.stream.tokens = [close, last] := by
      rcases List.suffix_cons_iff.1 hleft with hall | hleft
      · exact hall
      · rcases List.suffix_cons_iff.1 hleft with hnone | hnone
        · rw [Exchange.current_of_tokens hnone, hlast] at hmark
          nomatch hmark
        · exact absurd (List.suffix_nil.1 hnone) t.stream.tokens_ne_nil
    have hend : t.stepped.stream.current.kind = .mark .endOfTemplate :=
      (Exchange.current_of_tokens (hbehind htokens)).symm ▸ hlast
    obtain ⟨rfl, rfl⟩ := body_of_end hend hrest
    exact ⟨e, t, ht, htokens, rfl, rfl⟩
  · rintro ⟨e, t, ht, htokens, rfl, rfl⟩
    have hcur : t.stream.current.kind = .mark .variableEnd :=
      (Exchange.current_of_tokens htokens).symm ▸ hclose
    have hend : t.stepped.stream.current.kind = .mark .endOfTemplate :=
      (Exchange.current_of_tokens (hbehind htokens)).symm ▸ hlast
    have houtput := parseOutput_eq_ok.2 ⟨t, ht, hcur, rfl⟩
    refine repeatFrom_eq_ok.2 (.inr ⟨_, t.stepped, parseBodyPart_of_output hbegin houtput, ?_,
      repeatFrom_eq_ok.2 (.inl (parseBodyPart_of_end hend))⟩)
    simp only [ParserState.remaining, hs, hbehind htokens, List.length_cons, List.length_append]
    omega

/-! ### Lines and print tags -/

/-- **The end of a line** for which that of a print tag stands. -/
def Exchange.toPrint (ts : List Token) (close last : Token) (hclose : close.kind = .mark .variableEnd)
    (hline : (TokenStream.endAfter ts).line = close.line) : Exchange where
  lines := true
  old := TokenStream.endAfter ts
  oldRest := []
  new := close
  newRest := [last]
  isMark := TokenStream.isMark_endAfter ts
  stops := .inl ⟨_, hclose⟩
  line_eq := hline

/-- **The end of a print tag** for which that of a line stands. -/
def Exchange.toLine (ts : List Token) (close last : Token) (hclose : close.kind = .mark .variableEnd)
    (hline : (TokenStream.endAfter ts).line = close.line) : Exchange where
  lines := true
  old := close
  oldRest := [last]
  new := TokenStream.endAfter ts
  newRest := []
  isMark := ⟨_, hclose⟩
  stops := TokenStream.stops_endAfter ts
  line_eq := hline.symm

section Ends

variable (hsame : ts.map (Token.seen true) = inner.map (Token.seen true))
  (hclose : close.kind = .mark .variableEnd)
  (hline : (TokenStream.endAfter ts).line = close.line)
  (hs : s.stream.tokens = ts ++ [TokenStream.endAfter ts])
  (hprint : t.stream.tokens = inner ++ [close, last])
include hsame hclose hline hs hprint

/-- **What is read of a line** is read of the inside of a print tag, up to its end. -/
theorem anyTuple_print (hinner : ∀ t ∈ ts, t.kind.Inner)
    (h : parseAnyTuple env.grammar s = .ok e u) (hend : u.stream.atEnd = true) :
    ∃ v, parseAnyTuple env.grammar t = .ok e v ∧ v.stream.tokens = [close, last] := by
  let x := Exchange.toPrint ts close last hclose hline
  have hmark : x.new.IsMark := ⟨_, hclose⟩
  have hspares : x.Spares ts :=
    ⟨.inl (settled_of_isEnd (TokenStream.isEnd_endAfter ts)), .inl hmark.name?_eq_none⟩
  have habreast : x.Abreast (weightOf (ts.map Token.kind)) s t :=
    ⟨ts, inner, hs, hprint, hsame, Nat.le_refl _, hspares⟩
  obtain ⟨e', v, hv, hee, us, us', hus, hus', hseen, -⟩ :=
    sim_tuple (simulates_grammar env _ x) true false habreast h (.inr ⟨hmark, rfl⟩)
  have hfree : u.stream.current ∉ ts := fun hmem =>
    Token.not_mark_of_inner (hinner _ hmem) ⟨_, Token.isEnd_iff.1 hend⟩
  obtain rfl : us = [] := eq_nil_of_not_mem hus (hs ▸ suffix_of_anyTuple h) hfree
  obtain rfl : us' = [] := List.map_eq_nil_iff.1 hseen.symm
  obtain rfl : e = e' := hee
  exact ⟨v, hv, hus'⟩

/-- **What is read of the inside of a print tag** is read of a line, if the tokens do not show the
end of the tag. -/
theorem anyTuple_line (hcolon : hasColonFilter (ts.map Token.kind) = false)
    (hcomma : (ts.map Token.kind).getLast? ≠ some (.symbol .comma))
    (h : parseAnyTuple env.grammar t = .ok e u) (hend : u.stream.tokens = [close, last]) :
    ∃ v, parseAnyTuple env.grammar s = .ok e v ∧ v.stream.atEnd = true := by
  let x := Exchange.toLine ts close last hclose hline
  rw [kinds_eq hsame] at hcolon hcomma
  have hend' := TokenStream.isEnd_endAfter ts
  have hmark : x.new.IsMark := ⟨_, Token.isEnd_iff.1 hend'⟩
  have hspares : x.Spares inner := by
    refine ⟨.inr ⟨hcolon, fun tok htok hkind => hcomma ?_⟩, .inl hmark.name?_eq_none⟩
    rw [List.getLast?_map, Option.mem_def.1 htok, Option.map_some, hkind]
  have habreast : x.Abreast (weightOf (inner.map Token.kind)) t s :=
    ⟨inner, ts, hprint, hs, hsame.symm, Nat.le_refl _, hspares⟩
  obtain ⟨e', v, hv, hee, us, us', hus, hus', hseen, -⟩ :=
    sim_tuple (simulates_grammar env _ x) true false habreast h (.inr ⟨hmark, rfl⟩)
  obtain rfl : us = [] := by
    have hlength := congrArg List.length (hend.symm.trans hus)
    rw [List.length_append] at hlength
    exact List.eq_nil_of_length_eq_zero (by simpa [x, Exchange.toLine] using hlength)
  obtain rfl : us' = [] := List.map_eq_nil_iff.1 hseen.symm
  obtain rfl : e = e' := hee
  refine ⟨v, hv, ?_⟩
  rw [TokenStream.atEnd, Exchange.current_of_tokens hus']
  exact hend'

end Ends

/-- **A line of a session and a print tag.** For a text on one line, with the default delimiters:
what the line gives, the print tag around it gives as its single output. The other way round this
holds if the text has no filter with a colon and does not end with a comma. -/
theorem print_of_line {trimBlocks keepTrailingNewline : Bool}
    (henv : env.delimiters = .defaults trimBlocks keepTrailingNewline)
    (hone : '\n' ∉ text.toList) (hts : Token.ofExpression text 1 0 = .ok ts)
    (name : String) (template filename : Option String) (e : Expr) :
    (env.parseLine text name = .ok e →
      env.parseTemplate (printTag text) template filename = .ok [.output [e] e.line]) ∧
    (hasColonFilter (ts.map Token.kind) = false →
      (ts.map Token.kind).getLast? ≠ some (.symbol .comma) →
      ∀ line, env.parseTemplate (printTag text) template filename = .ok [.output [e] line] →
        env.parseLine text name = .ok e) := by
  obtain ⟨start, inner, close, last, htokens, hstart, hsame, hclose, hcloseLine, hlast⟩ :=
    ofTemplate_printTag trimBlocks keepTrailingNewline hts
  rw [← henv] at htokens
  have hnewlines : newlines text.toList = 0 := List.count_eq_zero.2 hone
  have hline : (TokenStream.endAfter ts).line = close.line := by
    rw [hcloseLine, hnewlines, TokenStream.endAfter]
    cases hlastToken : ts.getLast? with
    | none => rfl
    | some t => exact line_ofExpression hts hnewlines t (List.mem_of_getLast? hlastToken)
  have hinner := inner_ofExpression hts
  have hinnerPrint : ∀ t ∈ inner, t.kind.Inner := by
    intro t ht
    have hmem : t.kind ∈ ts.map Token.kind := kinds_eq hsame ▸ List.mem_map_of_mem ht
    obtain ⟨t', ht', hkind⟩ := List.mem_map.1 hmem
    exact hkind ▸ hinner t' ht'
  let s : ParserState := { stream := .ofTokens ts name none }
  let u : ParserState := { stream := .ofTokens (start :: (inner ++ [close, last])) template filename }
  have hs : s.stream.tokens = ts ++ [TokenStream.endAfter ts] :=
    (TokenStream.tokens_ofTokens ts name none).trans (close_eq_append (not_end_ofExpression hts))
  have hu : u.stream.tokens = start :: (inner ++ [close, last]) :=
    (TokenStream.tokens_ofTokens _ template filename).trans (TokenStream.close_ofTemplate htokens)
  have hprint : u.stepped.stream.tokens = inner ++ [close, last] :=
    Exchange.tokens_stepped hu (by simp)
  rw [parseLine_eq_ok hts]
  constructor
  · rintro ⟨t, ht, hend⟩
    obtain ⟨v, hv, hbehind⟩ := anyTuple_print hsame hclose hline hs hprint hinner ht hend
    have hbody := (parseBody_print hu hstart hinnerPrint hclose hlast).2 ⟨e, v, hv, hbehind, rfl, rfl⟩
    exact (parseTemplate_eq template filename htokens).trans (parseStream_eq_ok.2 ⟨v.stepped, hbody⟩)
  · intro hcolon hcomma line hbody
    rw [parseTemplate_eq template filename htokens] at hbody
    obtain ⟨t, ht⟩ := parseStream_eq_ok.1 hbody
    obtain ⟨e', v, hv, hbehind, rfl, hone⟩ :=
      (parseBody_print hu hstart hinnerPrint hclose hlast).1 ht
    obtain rfl : e = e' := by simpa using (Stmt.output.inj (List.cons.inj hone).1).1
    exact anyTuple_line hsame hclose hline hs hprint hcolon hcomma hv hbehind

/-- A filter with an argument in parentheses, in a tuple. -/
theorem print_of_line_filter :
    let env : Environment := {}
    let text := "a|f(1), b"
    ∃ e, env.parseLine text "line" = .ok e ∧
      env.parseTemplate (printTag text) none none = .ok [.output [e] e.line] ∧
      ∀ e' line, env.parseTemplate (printTag text) none none = .ok [.output [e'] line] →
        env.parseLine text "line" = .ok e' := by
  intro env text
  let ts : List Token := [⟨.name "a", 1, ⟨0, 1⟩⟩, ⟨.symbol .pipe, 1, ⟨1, 2⟩⟩,
    ⟨.name "f", 1, ⟨2, 3⟩⟩, ⟨.symbol .lParen, 1, ⟨3, 4⟩⟩, ⟨.integer 1, 1, ⟨4, 5⟩⟩,
    ⟨.symbol .rParen, 1, ⟨5, 6⟩⟩, ⟨.symbol .comma, 1, ⟨6, 7⟩⟩, ⟨.name "b", 1, ⟨8, 9⟩⟩]
  let e : Expr := .tuple [.filter (some (.name "a" .load 1)) "f"
    { positional := [.const (.int 1) 1] } 1, .name "b" .load 1] .load 1
  have htokens : Token.ofExpression text 1 0 = .ok ts := by cbv
  have hline : env.parseLine text "line" = .ok e := by cbv
  have hone : '\n' ∉ text.toList := by decide
  have hcolon : hasColonFilter (ts.map Token.kind) = false := by decide
  have hcomma : (ts.map Token.kind).getLast? ≠ some (.symbol .comma) := by rintro ⟨⟩
  have hdelimiters : env.delimiters = .defaults false false := rfl
  have hprint := print_of_line hdelimiters hone htokens "line" none none
  exact ⟨e, hline, (hprint e).1 hline, fun e' line => (hprint e').2 hcolon hcomma line⟩

/-- The end of a line does not end the arguments of a filter behind a colon. -/
example :
    let env : Environment := {}
    (env.parseLine "a|f: 1" "line").toOption.isSome = false ∧
      (env.parseTemplate (printTag "a|f: 1") none none).toOption.isSome = true := by
  cbv

end LiquidTemplate
