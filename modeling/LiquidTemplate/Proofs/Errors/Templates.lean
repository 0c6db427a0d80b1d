import LiquidTemplate.Proofs.Progress.Grammars
import LiquidTemplate.Proofs.Scanning.Places

/-!
# Errors of templates

Every error of a template names the template and lies inside of it. What is read of a text stays
inside of the lines and bytes of that text, and so do the tokens of a template, those of the bounds of
its range literals, and the errors about any of them.

* `Cursor.Within`, `Token.Within`, `SyntaxError.Within`: inside of some lines and bytes.
* `Cursor.Fails.within`, `Cursor.Yields.within`: what is read inside stays inside.
* `within_beneath`: also in the bounds of range literals.
* `Route.Fault.within`: the errors of a parser.
* `located`: the errors of a template.
-/

namespace LiquidTemplate

open Text

variable {lines size : Nat} {c d : Cursor} {t : Token} {e : SyntaxError}

/-! ### Inside of a text -/

/-- **A cursor inside** of a text: what is left to read ends on one of its lines and in its bytes. -/
structure Cursor.Within (lines size : Nat) (c : Cursor) : Prop where
  first : 1 ≤ c.line
  line : c.line + newlines c.rest ≤ lines
  bytes : c.offset + byteSize c.rest ≤ size

/-- **A token inside** of a text, with the bounds of a range literal. -/
structure Token.Within (lines size : Nat) (t : Token) : Prop where
  first : 1 ≤ t.line
  line : t.line ≤ lines
  lo_le_hi : t.span.lo ≤ t.span.hi
  bytes : t.span.hi ≤ size
  bound : ∀ text, t.HasBound text → Cursor.Within lines size ⟨text.toList, t.span.lo, t.line⟩

/-- **An error inside** of a text. -/
structure SyntaxError.Within (lines size : Nat) (e : SyntaxError) : Prop where
  first : 1 ≤ e.line
  line : e.line ≤ lines
  span : ∀ span ∈ e.span, span.lo ≤ span.hi ∧ span.hi ≤ size

theorem Cursor.Leads.within (h : c.Leads d) (hc : c.Within lines size) : d.Within lines size := by
  obtain ⟨taken, rest, hrest, rfl⟩ := h
  obtain ⟨hfirst, hline, hsize⟩ := hc
  rw [hrest, newlines_append] at hline
  rw [hrest, byteSize_append] at hsize
  refine ⟨?_, ?_, ?_⟩
  · show 1 ≤ c.line + newlines taken
    omega
  · show c.line + newlines taken + newlines rest ≤ lines
    omega
  · show c.offset + byteSize taken + byteSize rest ≤ size
    omega

/-- **Tokens further on** stay inside. -/
theorem Cursor.Yields.within (h : c.Yields t) (hc : c.Within lines size) : t.Within lines size := by
  have hbounds {text : String} (htext : t.HasBound text) := h.bound htext
  cases h with
  | @token d k shown rest hd hrest _ =>
    obtain ⟨hfirst, hline, hsize⟩ := hd.within hc
    rw [hrest, byteSize_append] at hsize
    have hline : d.line ≤ lines := Nat.le_trans (Nat.le_add_right ..) hline
    have hhi : d.offset + byteSize shown ≤ size := by omega
    refine ⟨hfirst, hline, Nat.le_add_right .., hhi, fun text htext => ?_⟩
    obtain ⟨hflat, hlength⟩ := hbounds htext
    refine ⟨hfirst, ?_, Nat.le_trans hlength hhi⟩
    show d.line + newlines text.toList ≤ lines
    rw [hflat]
    exact hline

/-- **Errors further on** stay inside. -/
theorem Cursor.Fails.within {first : Nat} (h : c.Fails first e) (hfirst : 1 ≤ first)
    (hc : c.Within lines size) : e.Within lines size := by
  obtain ⟨d, hd, hreports⟩ := h
  have hin := hd.within hc
  refine ⟨Nat.le_trans hfirst hreports.first_le, ?_, fun span hspan => ?_⟩
  · have hline := hreports.le_line
    have hin := hin.line
    omega
  · rw [hreports.span] at hspan
    obtain rfl := Option.some.inj hspan
    have hin := hin.bytes
    refine ⟨Nat.le_refl _, ?_⟩
    show d.offset ≤ size
    omega

/-- An error that has no names yet gets those of its template. -/
theorem Cursor.Fails.inTemplate {first : Nat} (h : c.Fails first e) (name filename : Option String) :
    (e.inTemplate name filename).name = name ∧ (e.inTemplate name filename).filename = filename := by
  obtain ⟨d, -, hreports⟩ := h
  unfold SyntaxError.inTemplate
  rw [hreports.name, hreports.filename]
  exact ⟨rfl, rfl⟩

theorem SyntaxError.Within.inTemplate (h : e.Within lines size) (name filename : Option String) :
    (e.inTemplate name filename).Within lines size :=
  ⟨h.first, h.line, h.span⟩

/-- **The bounds of range literals** stay inside with all that is in them. -/
theorem within_beneath {tokens : List Token} (h : ∀ t ∈ tokens, t.Within lines size)
    (ht : Token.Beneath tokens t) : t.Within lines size := by
  induction ht with
  | token ht => exact h _ ht
  | bound _ htext hread hu ih => exact (yields_of_ofExpression hread _ hu).within (ih.bound _ htext)

/-! ### Errors of a parser -/

/-- **The route of a template**, whose tokens stay inside of its text. -/
def Route.ofTokens (tokens : List Token) (name filename : Option String)
    (h : ∀ t ∈ tokens, t.Within lines size) : Route where
  tokens := tokens
  name := name
  filename := filename
  lines line := 1 ≤ line ∧ line ≤ lines
  line_of_beneath _ ht :=
    have hin := within_beneath h ht
    ⟨hin.first, hin.line⟩
  allows _ _ := True
  causes _ := True
  ordinary _ := trivial

variable {tokens : List Token} {name filename : Option String}

theorem Route.nests_ofTokens (h : ∀ t ∈ tokens, t.Within lines size) :
    (Route.ofTokens tokens name filename h).Nests :=
  ⟨fun _ _ => trivial, fun _ => trivial⟩

/-- **The errors of a parser** stay inside, and name its template. -/
theorem Route.Fault.within {h : ∀ t ∈ tokens, t.Within lines size}
    (he : (Route.ofTokens tokens name filename h).Fault e) :
    e.Within lines size ∧ e.name = name ∧ e.filename = filename := by
  cases he with
  | atLine hline _ => exact ⟨⟨hline.1, hline.2, nofun⟩, rfl, rfl⟩
  | atToken ht _ =>
    have hin := h _ ht
    refine ⟨⟨hin.first, hin.line, fun span hspan => ?_⟩, rfl, rfl⟩
    obtain rfl := Option.some.inj hspan
    exact ⟨hin.lo_le_hi, hin.bytes⟩
  | inBound ht htext hread =>
    have hin := h _ ht
    have hfails := (fails_of_ofExpression hread).1
    exact ⟨(hfails.within hin.first (hin.bound _ htext)).inTemplate _ _, hfails.inTemplate _ _⟩

/-! ### Errors of a template -/

variable {env : Environment} {source : String}

/-- The beginning of what is read of a source lies inside of it. -/
theorem within_source (d : Delimiters) (source : String) :
    Cursor.Within (1 + newlines source.toList) (byteSize source.toList) ⟨d.textOf source, 0, 1⟩ := by
  obtain ⟨ending, hending⟩ := WithoutFinalNewline.prefix (withoutFinalNewline_textOf d source)
  rw [hending, newlines_append, byteSize_append]
  refine ⟨Nat.le_refl _, ?_, ?_⟩
  · show 1 + newlines (d.textOf source) ≤ _
    omega
  · show 0 + byteSize (d.textOf source) ≤ _
    omega

/-- **The tokens of a template** lie inside of its source. -/
theorem within_template {d : Delimiters} (h : Token.ofTemplate d source = .ok tokens) :
    ∀ t ∈ tokens, t.Within (1 + newlines source.toList) (byteSize source.toList) :=
  fun t ht => (yields_of_templateTokens h t ht).within (within_source d source)

/-- **An error of a template** is found in its characters or on the route of its tokens. -/
theorem error_of_template (henv : ∀ x ∈ env.extensions, x.Known)
    (h : env.parseTemplate source name filename = .error e) :
    (∃ e', Token.ofTemplate env.delimiters source = .error e' ∧ e = e'.inTemplate name filename) ∨
      ∃ tokens, ∃ htokens : Token.ofTemplate env.delimiters source = .ok tokens,
        (Route.ofTokens tokens name filename (within_template htokens)).Fault e := by
  obtain ⟨result, hresult⟩ : ∃ x, Token.ofTemplate env.delimiters source = x := ⟨_, rfl⟩
  unfold Environment.parseTemplate TokenStream.ofTemplate at h
  rw [hresult] at h
  cases result with
  | error e' => exact .inl ⟨e', hresult, (Except.error.inj h).symm⟩
  | ok tokens =>
    refine .inr ⟨tokens, hresult, fault_of_parseStream henv (Route.nests_ofTokens _) ?_ h⟩
    have hstream : (TokenStream.ofTokens tokens name filename).tokens = tokens := by
      rw [TokenStream.tokens_ofTokens, TokenStream.close_ofTemplate hresult]
    refine ⟨?_, TokenStream.name_ofTokens .., TokenStream.filename_ofTokens .., trivial⟩
    rw [hstream]
    exact List.suffix_refl _

/-- **Every error is located.** It names the template as it was named, and its line and its span lie
inside of the source. -/
theorem located (henv : ∀ x ∈ env.extensions, x.Known) (label : String)
    (h : env.parseTemplate source name filename = .error e) :
    e.name = name ∧ e.filename = filename ∧ 1 ≤ e.line ∧
      e.line ≤ (Source.mk label source).lineCount ∧
      ∀ span ∈ e.span, span.lo ≤ span.hi ∧ span.hi ≤ source.utf8ByteSize := by
  have hlocated : e.Within (1 + newlines source.toList) (byteSize source.toList) ∧ e.name = name ∧
      e.filename = filename := by
    rcases error_of_template henv h with ⟨e', he, rfl⟩ | ⟨tokens, htokens, hfault⟩
    · have hfails := fails_of_templateTokens he (Nat.le_refl 1)
      have hwithin := hfails.within (Nat.le_refl 1) (within_source env.delimiters source)
      exact ⟨hwithin.inTemplate _ _, hfails.inTemplate _ _⟩
    · exact hfault.within
  obtain ⟨hwithin, hname, hfilename⟩ := hlocated
  have hcount : (Source.mk label source).lineCount = 1 + newlines source.toList := size_lineStarts _
  rw [hcount, ← byteSize_toList]
  exact ⟨hname, hfilename, hwithin.first, hwithin.line, hwithin.span⟩

/-- An operand that is missing on the second line. -/
theorem located_operand :
    let env : Environment := { extensions := [.case, .doExpr, .shout ["shout"]] }
    let source := "a\n\x7b\x7b 1 + \x7d\x7d"
    ∃ e, env.parseTemplate source (some "page") none = .error e ∧ e.name = some "page" ∧
      e.filename = none ∧ e.line ≤ (Source.mk "page" source).lineCount ∧
      ∀ span ∈ e.span, span.lo ≤ span.hi ∧ span.hi ≤ source.utf8ByteSize := by
  intro env source
  have herror : env.parseTemplate source (some "page") none =
      .error ((SyntaxError.atSpan (.unexpectedToken "end of print statement") 2 ⟨9, 11⟩).inTemplate
        (some "page") none) := by
    cbv
  obtain ⟨hname, hfilename, -, hline, hspan⟩ := located known_extensions "page" herror
  exact ⟨_, herror, hname, hfilename, hline, hspan⟩

end LiquidTemplate
