import LiquidTemplate.Proofs.Errors.Templates
import LiquidTemplate.Proofs.Sources.Positions

/-!
# The positions of errors

An error with a span has a line and a place. The place is on that line, with two exceptions: what is
open where the text ends is reported for the line on which it was opened, and the place of an error in
the bound of a range literal is counted from the beginning of the literal.

* `position_of_part`: the position behind a part of a source.
* `SyntaxError.StandsIn`: an error whose place is known.
* `SyntaxError.OfBound`: an error in the bound of a range literal.
* `position_of_error`: the errors of a template.
-/

namespace LiquidTemplate

open Text

variable {c d : Cursor} {cs before : List Char} {t : Token} {e : SyntaxError}

/-! ### Positions in a source -/

theorem position_of_part {source : String} (h : before <+: source.toList) (label : String) :
    ∃ column, (Source.mk label source).position? (byteSize before) =
      some (1 + newlines before, column) := by
  obtain ⟨after, hafter⟩ := h
  exact ⟨_, Source.position?_append hafter.symm⟩

/-- **An error whose place is known**: it is behind the characters `before` of the text `cs`, on the
line of the error, or further down if the error is about something that is left open. -/
structure SyntaxError.StandsIn (cs before : List Char) (e : SyntaxError) : Prop where
  text : before <+: cs
  span : ∀ span ∈ e.span, span.lo = byteSize before
  line_le : e.line ≤ 1 + newlines before
  line : e.line = 1 + newlines before ∨ e.cause.LeavesOpen

theorem SyntaxError.StandsIn.inTemplate (h : e.StandsIn cs before) (name filename : Option String) :
    (e.inTemplate name filename).StandsIn cs before :=
  ⟨h.text, h.span, h.line_le, h.line⟩

/-! ### Errors of the lexer -/

theorem Cursor.Leads.at (h : c.Leads d) (hc : c.At cs before) : ∃ more, d.At cs (before ++ more) := by
  obtain ⟨taken, rest, hrest, rfl⟩ := h
  exact ⟨taken, hc.past hrest⟩

/-- **An error at a cursor** has its place there. -/
theorem Cursor.Fails.standsIn {first : Nat} (h : c.Fails first e) (hc : c.At cs before) :
    ∃ before', e.StandsIn cs before' := by
  obtain ⟨d, hd, hreports⟩ := h
  obtain ⟨more, hat⟩ := hd.at hc
  refine ⟨before ++ more, ⟨d.rest, hat.text.symm⟩, fun span hspan => ?_, ?_, ?_⟩
  · rw [hreports.span] at hspan
    obtain rfl := Option.some.inj hspan
    exact hat.offset
  · rw [← hat.line]
    exact hreports.le_line
  · rw [← hat.line]
    exact hreports.line

/-! ### Errors of a parser -/

/-- **An error in the bound of a range literal** among some tokens. It has the line of the literal, and
a place inside of it. -/
def SyntaxError.OfBound (tokens : List Token) (e : SyntaxError) : Prop :=
  ∃ t ∈ tokens, ∃ text e', t.HasBound text ∧ Token.ofExpression text t.line t.span.lo = .error e' ∧
    e.cause = e'.cause ∧ e.line = t.line ∧
    ∀ span ∈ e.span, t.span.lo ≤ span.lo ∧ span.hi ≤ t.span.hi

/-- The lines and places in a bound. -/
theorem ofBound_of_error {tokens : List Token} {text : String} (ht : t ∈ tokens) (hc : c.Yields t)
    (htext : t.HasBound text) (hread : Token.ofExpression text t.line t.span.lo = .error e)
    (name filename : Option String) : (e.inTemplate name filename).OfBound tokens := by
  obtain ⟨hflat, hlength⟩ := hc.bound htext
  obtain ⟨⟨d, ⟨taken, rest, hrest, rfl⟩, hreports⟩, -⟩ := fails_of_ofExpression hread
  have hrest : text.toList = taken ++ rest := hrest
  rw [hrest, newlines_append] at hflat
  rw [hrest, byteSize_append] at hlength
  refine ⟨t, ht, text, e, htext, hread, rfl, ?_, fun span hspan => ?_⟩
  · have hfirst := hreports.first_le
    have hline : e.line ≤ t.line + newlines taken := hreports.le_line
    show e.line = t.line
    omega
  · have hspan : span ∈ e.span := hspan
    rw [hreports.span] at hspan
    obtain rfl := Option.some.inj hspan
    show t.span.lo ≤ t.span.lo + byteSize taken ∧ t.span.lo + byteSize taken ≤ t.span.hi
    omega

/-- An error at a token has the place of the token. -/
theorem standsIn_of_token {cause : SyntaxError.Cause} {shown : List Char}
    (h : t.Stands cs before shown) (name filename : Option String) :
    ((SyntaxError.atSpan cause t.line t.span).inTemplate name filename).StandsIn cs before := by
  obtain ⟨⟨behind, htext⟩, hspan, hline⟩ := h
  refine ⟨⟨shown ++ behind, ?_⟩, fun span hmem => ?_, Nat.le_of_eq hline, .inl hline⟩
  · rw [htext, List.append_assoc]
  · obtain rfl := Option.some.inj hmem
    rw [hspan]

/-! ### Errors of a template -/

variable {env : Environment} {source : String} {name filename : Option String}

/-- **The place of an error.** It is on the line of the error unless something is left open there that
was opened further up, or the error is in the bound of a range literal. -/
theorem position_of_error (henv : ∀ x ∈ env.extensions, x.Known) (label : String)
    (h : env.parseTemplate source name filename = .error e) {span : Span}
    (hspan : e.span = some span) :
    (∃ line column, (Source.mk label source).position? span.lo = some (line, column) ∧
      e.line ≤ line ∧ (e.line = line ∨ e.cause.LeavesOpen)) ∨
    ∃ tokens, Token.ofTemplate env.delimiters source = .ok tokens ∧ e.OfBound tokens := by
  have hposition {before : List Char} (he : e.StandsIn source.toList before) :
      ∃ line column, (Source.mk label source).position? span.lo = some (line, column) ∧
        e.line ≤ line ∧ (e.line = line ∨ e.cause.LeavesOpen) := by
    obtain ⟨column, hcolumn⟩ := position_of_part he.text label
    rw [← he.span span hspan] at hcolumn
    exact ⟨_, column, hcolumn, he.line_le, he.line⟩
  obtain ⟨ending, hending⟩ :=
    WithoutFinalNewline.prefix (withoutFinalNewline_textOf env.delimiters source)
  rcases error_of_template henv h with ⟨e', he, rfl⟩ | ⟨tokens, htokens, hfault⟩
  · obtain ⟨before, hstands⟩ :=
      (fails_of_templateTokens he (Nat.le_refl 1)).standsIn (Cursor.at_start _)
    have htext : before <+: source.toList := hstands.text.trans ⟨ending, hending.symm⟩
    exact .inl (hposition (SyntaxError.StandsIn.inTemplate { hstands with text := htext } _ _))
  · cases hfault with
    | atLine _ _ => nomatch hspan
    | @atToken cause t ht _ =>
      obtain ⟨front, back, hmem⟩ := List.append_of_mem ht
      obtain ⟨before, shown, hstands, -⟩ := stands_of_template htokens hmem
      exact .inl (hposition (standsIn_of_token hstands _ _))
    | inBound ht htext hread =>
      exact .inr ⟨tokens, htokens, ofBound_of_error ht (yields_of_templateTokens htokens _ ht) htext
        hread _ _⟩

/-- A parenthesis on the first line that is open where the text ends, on the second one. -/
theorem position_of_error_unclosed :
    let env : Environment := { extensions := [.case, .doExpr, .shout ["shout"]] }
    let source := "\x7b\x7b (\na"
    ∃ e span column, env.parseTemplate source none none = .error e ∧ e.span = some span ∧
      e.line = 1 ∧ (Source.mk "inline" source).position? span.lo = some (2, column) ∧
      e.cause.LeavesOpen := by
  intro env source
  let e := SyntaxError.atSpan (.unclosedBracket '(') 1 ⟨6, 6⟩
  have herror : env.parseTemplate source none none = .error (e.inTemplate none none) := by
    cbv
  have hplace : (Source.mk "inline" source).position? 6 = some (2, 2) :=
    Source.position?_append (s := ⟨"inline", "\x7b\x7b (\na"⟩)
      (List.append_nil "\x7b\x7b (\na".toList).symm
  refine ⟨_, ⟨6, 6⟩, 2, herror, rfl, rfl, hplace, ?_⟩
  rcases position_of_error known_extensions "inline" herror rfl with
    ⟨line, column, hposition, -, hline | hopen⟩ | ⟨tokens, htokens, -⟩
  · rw [hplace] at hposition
    obtain ⟨rfl, -⟩ := Prod.mk.inj (Option.some.inj hposition)
    cases hline
  · exact hopen
  · have hnone : Token.ofTemplate env.delimiters source = .error e := by
      cbv
    rw [hnone] at htokens
    cases htokens

end LiquidTemplate
