import Mathlib
import LiquidTemplate.Proofs.Exchange.Alone
import LiquidTemplate.Proofs.Exchange.Literals

/-!
# Tokens of a print tag

The tokens of an expression that stands alone are those of a print tag around it, between the two
marks of the tag.

* `Cursor.extended`: a text with the end of a print tag behind it.
* `read_extended`: the tokens up to that end.
* `line_ofExpression`: the lines of the tokens of a text on one line.
* `ofTemplate_of_ofExpression`: the tokens of a print tag; `Token.ofTemplate_print` is the case of the
  default settings.
-/

namespace LiquidTemplate

open Text

variable {previous : Option TokenType} {opened after : List Bracket} {c d : Cursor} {t : Token}
  {line : Nat} {cs : List Char}

/-- **The end of print tags**: the delimiter that closes them by default. -/
def printEnd : Closing :=
  ⟨['\x7d', '\x7d'], .variableEnd⟩

/-! ### Where no tag ends -/

namespace Lexeme

theorem float?_eq_none (h : Literal.float? cs = none) : float? previous cs = none := by
  unfold float?
  split
  · rfl
  · exact h

/-- A closing brace is no token where no bracket is open. -/
theorem scan_of_brace :
    scan previous [] line ('\x7d' :: cs) = .error (.strayBracket '\x7d') := by
  have hfloat : float? previous ('\x7d' :: cs) = none := float?_eq_none rfl
  unfold scan literal?
  rw [hfloat]
  rfl

/-- A dash is a token of its own. -/
theorem scan_of_dash :
    scan previous opened line ('-' :: cs) = .ok (⟨.symbol .sub, ['-'], cs⟩, opened) := by
  have hfloat : float? previous ('-' :: cs) = none := float?_eq_none rfl
  unfold scan literal?
  rw [hfloat]
  rfl

end Lexeme

namespace TagTokens

variable {tag : TagTokens}

/-- No tokens begin with a closing brace. -/
theorem rest_of_read (h : read none previous [] c = .ok tag) : c.rest ≠ '\x7d' :: cs := by
  intro hrest
  have hblanks : c.skipBlanks.rest = '\x7d' :: cs := by
    rw [Cursor.skipBlanks, hrest]
    rfl
  have hne : c.skipBlanks.rest ≠ [] := by
    rw [hblanks]
    simp
  have hnext : nextToken previous [] c.skipBlanks =
      .error (c.skipBlanks.error (.strayBracket '\x7d')) := by
    rw [nextToken, hblanks, Lexeme.scan_of_brace]
  have hopen : close? none [] c.skipBlanks = none := rfl
  rw [read_eq, if_neg hne, hopen, hnext] at h
  cases h

end TagTokens

/-! ### Texts before the end of a print tag -/

/-- **The cursor with the end of a tag** behind its text. -/
def Cursor.extended (c : Cursor) : Cursor :=
  { c with rest := c.rest ++ tagEnd }

/-- **The last line** of the text that is left. -/
def Cursor.lastLine (c : Cursor) : Nat :=
  c.line + newlines c.rest

/-- **The last offset**, where the text that is left ends. -/
def Cursor.lastOffset (c : Cursor) : Nat :=
  c.offset + byteSize c.rest

/-- The end of the text stays where it is. -/
theorem Cursor.last_past {taken rest : List Char} (h : c.rest = taken ++ rest) :
    (c.past taken rest).lastLine = c.lastLine ∧ (c.past taken rest).lastOffset = c.lastOffset := by
  rw [lastLine, lastLine, lastOffset, lastOffset, h, newlines_append, byteSize_append,
    ← Nat.add_assoc, ← Nat.add_assoc]
  exact ⟨rfl, rfl⟩

theorem Cursor.last_skipBlanks (c : Cursor) :
    c.skipBlanks.lastLine = c.lastLine ∧ c.skipBlanks.lastOffset = c.lastOffset :=
  last_past (trimStart_eq c.rest).symm

/-- The blanks before a text are the same. -/
theorem Cursor.skipBlanks_extended (h : c.skipBlanks.rest ≠ []) :
    c.extended.skipBlanks = c.skipBlanks.extended := by
  obtain ⟨hrest, hblanks⟩ := Literal.blanks_tagEnd h
  have hblanks : (c.rest ++ tagEnd).takeWhile isBlank = c.rest.takeWhile isBlank := hblanks
  show c.extended.past ((c.rest ++ tagEnd).takeWhile isBlank) (trimStart (c.rest ++ tagEnd)) = _
  rw [hrest, hblanks]
  rfl

/-- Behind the last blanks there is the closing delimiter. -/
theorem Cursor.skipBlanks_end (h : c.skipBlanks.rest = []) :
    c.extended.skipBlanks = ⟨['\x7d', '\x7d'], c.lastOffset + 1, c.lastLine⟩ := by
  have hrest : c.extended.skipBlanks.rest = ['\x7d', '\x7d'] := Literal.trimStart_tagEnd h
  obtain ⟨hline, hoffset⟩ := last_skipBlanks c.extended
  rw [lastLine, hrest, lastLine] at hline
  rw [lastOffset, hrest, lastOffset] at hoffset
  have hlines : newlines c.extended.rest = newlines c.rest := newlines_append ..
  have hbytes : byteSize c.extended.rest = byteSize c.rest + 3 := byteSize_append ..
  have hline : c.extended.skipBlanks.line = c.lastLine := hline.trans (congrArg (c.line + ·) hlines)
  have hoffset : c.extended.skipBlanks.offset = c.lastOffset + 1 :=
    Nat.add_right_cancel (hoffset.trans (congrArg (c.offset + ·) hbytes))
  rw [← hrest, ← hline, ← hoffset]

/-- **The mark of the end of the tag** behind the text that is left. -/
def Cursor.closeToken (c : Cursor) : Token :=
  ⟨.mark .variableEnd, c.lastLine, ⟨c.lastOffset + 1, c.lastOffset + 3⟩⟩

/-- The cursor behind the end of the tag. -/
def Cursor.behindTag (c : Cursor) : Cursor :=
  ⟨[], c.lastOffset + 3, c.lastLine⟩

namespace TagTokens

variable {tag : TagTokens}

theorem nextToken_extended (h : nextToken previous opened c = .ok (t, after, d)) :
    nextToken previous opened c.extended = .ok (t, after, d.extended) := by
  obtain ⟨l, hl, rfl, rfl⟩ := exists_of_nextToken h
  have hscan : Lexeme.scan previous opened c.extended.line c.extended.rest =
    .ok (l.extended, after) := Lexeme.scan_tagEnd hl
  rw [nextToken, hscan]
  rfl

/-- **No tag ends at a token** that has other tokens behind it. -/
theorem close?_extended (h : nextToken previous opened c = .ok (t, after, d))
    (hmore : read none (some t.type) after d = .ok tag) :
    close? (some printEnd) opened c.extended = none := by
  match opened with
  | _ :: _ => rfl
  | [] =>
    have hbrace (rest : List Char) : c.rest ≠ '\x7d' :: rest := by
      intro hrest
      rw [nextToken, hrest, Lexeme.scan_of_brace] at h
      cases h
    have hdash (rest : List Char) : c.rest ≠ '-' :: '\x7d' :: rest := by
      intro hrest
      rw [nextToken, hrest, Lexeme.scan_of_dash] at h
      obtain ⟨rfl, rfl, rfl⟩ := by simpa using h
      exact rest_of_read hmore rfl
    have hplain : after? ['\x7d', '\x7d'] (c.rest ++ tagEnd) = none := by
      rw [after?_tagEnd _ (by decide), Option.map_eq_none_iff]
      cases hafter : after? ['\x7d', '\x7d'] c.rest with
      | none => rfl
      | some rest => exact absurd (after?_eq_some_iff.1 hafter) (hbrace _)
    have hdashed : after? ['-', '\x7d', '\x7d'] (c.rest ++ tagEnd) = none := by
      rw [after?_tagEnd _ (by decide), Option.map_eq_none_iff]
      cases hafter : after? ['-', '\x7d', '\x7d'] c.rest with
      | none => rfl
      | some rest => exact absurd (after?_eq_some_iff.1 hafter) (hdash _)
    have hmatch : printEnd.match? (c.rest ++ tagEnd) = none := by
      rw [Closing.match?, printEnd, hdashed, hplain]
      rfl
    exact Option.map_eq_none_iff.2 hmatch

/-- The closing delimiter behind the last blanks. -/
theorem close?_printEnd (h : c.skipBlanks.rest = []) :
    close? (some printEnd) [] c.extended.skipBlanks = some ⟨[c.closeToken], c.behindTag, false⟩ := by
  rw [Cursor.skipBlanks_end h]
  rfl

theorem last_nextToken (h : nextToken previous opened c = .ok (t, after, d)) :
    d.lastLine = c.lastLine ∧ d.lastOffset = c.lastOffset := by
  obtain ⟨l, hl, rfl, -⟩ := exists_of_nextToken h
  exact Cursor.last_past (Lexeme.scan_eq hl).1

/-- **The same tokens** before the end of a print tag, and the mark of that end. -/
theorem read_extended (h : read none previous opened c = .ok tag) :
    read (some printEnd) previous opened c.extended =
      .ok ⟨tag.tokens ++ [c.closeToken], c.behindTag, false⟩ := by
  fun_induction read none previous opened c generalizing tag
  case case1 previous opened c d hend =>
    cases opened with
    | cons => cases h
    | nil =>
      obtain rfl := Except.ok.inj h
      have hend : c.skipBlanks.rest = [] := List.isEmpty_iff.1 hend
      have hne : c.extended.skipBlanks.rest ≠ [] := by
        rw [Cursor.skipBlanks_end hend]
        simp
      exact read_of_close hne (close?_printEnd hend)
  case case2 hfound => cases hfound
  case case3 => cases h
  case case4 previous opened c d hne hopen t after c₂ hnext ih =>
    obtain ⟨more, hread, rfl⟩ := exists_of_map_eq_ok h
    have hne : c.skipBlanks.rest ≠ [] := by simpa using hne
    have hblanks := Cursor.skipBlanks_extended hne
    obtain ⟨hline, hoffset⟩ := last_nextToken hnext
    have hline : c₂.lastLine = c.lastLine := hline.trans c.last_skipBlanks.1
    have hoffset : c₂.lastOffset = c.lastOffset := hoffset.trans c.last_skipBlanks.2
    have hclose : c₂.closeToken = c.closeToken := by
      rw [Cursor.closeToken, hline, hoffset, Cursor.closeToken]
    have hbehind : c₂.behindTag = c.behindTag := by
      rw [Cursor.behindTag, hline, hoffset, Cursor.behindTag]
    rw [read_of_token (hblanks ▸ List.append_ne_nil_of_left_ne_nil hne _)
      (hblanks ▸ close?_extended hnext hread) (hblanks ▸ nextToken_extended hnext), ih hread,
      hclose, hbehind]
    rfl

/-- The beginning of a print tag and a blank behind it have no part in the tokens. -/
theorem read_variableBegin {closing : Option Closing} {offset : Nat} :
    read closing (some (.mark .variableBegin)) opened ⟨' ' :: cs, offset, line⟩ =
      read closing none opened ⟨cs, offset + 1, line⟩ := by
  have hblanks : (⟨' ' :: cs, offset, line⟩ : Cursor).skipBlanks =
      (⟨cs, offset + 1, line⟩ : Cursor).skipBlanks := by
    have hblank : isBlank ' ' = true := rfl
    have hwidth : Char.utf8Size ' ' = 1 := rfl
    simp [Cursor.skipBlanks, Cursor.past, trimStart, hblank, hwidth, newlines, Nat.add_assoc]
  have hnext (d : Cursor) :
      nextToken (some (.mark .variableBegin)) opened d = nextToken none opened d := by
    rw [nextToken, nextToken, Lexeme.scan_variableBegin]
  rw [read_eq, read_eq, hblanks, hnext]

end TagTokens

/-! ### The lines of the tokens -/

/-- A part of a text on one line is on that line, and so is the rest. -/
theorem Cursor.line_past {taken rest : List Char} (h : c.rest = taken ++ rest)
    (hone : newlines c.rest = 0) :
    (c.past taken rest).line = c.line ∧ newlines (c.past taken rest).rest = 0 := by
  rw [h, newlines_append] at hone
  obtain ⟨htaken, hrest⟩ := Nat.add_eq_zero_iff.1 hone
  exact ⟨congrArg (c.line + ·) htaken, hrest⟩

/-- **On one line**: a text without newlines gives tokens on the line where it stands. -/
theorem TagCourse.line_eq {tag : TagTokens} (h : TagCourse none previous opened c tag)
    (hone : newlines c.rest = 0) : ∀ t ∈ tag.tokens, t.line = c.line := by
  induction h with
  | finish => exact nofun
  | close hx => nomatch hx
  | token hrest _ _ _ ih =>
    intro t ht
    obtain ⟨hline, hone⟩ := Cursor.line_past (trimStart_eq _).symm hone
    obtain ⟨hline', hone'⟩ := Cursor.line_past hrest hone
    rcases List.mem_cons.1 ht with rfl | ht
    · exact hline
    · exact (ih hone' t ht).trans (hline'.trans hline)

theorem line_ofExpression {text : String} {line offset : Nat} {ts : List Token}
    (h : Token.ofExpression text line offset = .ok ts) (hone : newlines text.toList = 0) :
    ∀ t ∈ ts, t.line = line := by
  obtain ⟨tag, hread, rfl⟩ := ofExpression_eq_ok.1 h
  exact (tagCourse_of_ok hread).line_eq hone

/-! ### The tokens of a print tag -/

/-- **Default delimiters**, with the newlines of the template treated in any way. -/
def Delimiters.defaults (trimBlocks keepTrailingNewline : Bool) : Delimiters :=
  { trimBlocks, keepTrailingNewline }

/-- **Print tag** around a text. -/
def printTag (text : String) : String :=
  "\x7b\x7b " ++ text ++ " \x7d\x7d"

variable {text : String} {ts : List Token}

theorem openings_defaults (trimBlocks keepTrailingNewline : Bool) :
    (Delimiters.defaults trimBlocks keepTrailingNewline).openings =
      [(.variable, ['\x7b', '\x7b']), (.block, ['\x7b', '%']), (.comment, ['\x7b', '#'])] := by
  have hstarts : ([Opening.variable, .block, .comment].map fun o =>
      (o, ((Delimiters.defaults trimBlocks keepTrailingNewline).start o).toList)) =
      [(.variable, ['\x7b', '\x7b']), (.block, ['\x7b', '%']), (.comment, ['\x7b', '#'])] := by
    simp [Delimiters.defaults, Delimiters.start]
  rw [Delimiters.openings, hstarts, List.mergeSort_of_pairwise]
  decide

/-- A print tag does not end with a newline. -/
theorem textOf_printTag (d : Delimiters) (text : String) :
    d.textOf (printTag text) = '\x7b' :: '\x7b' :: ' ' :: (text.toList ++ tagEnd) := by
  have htext : (printTag text).toList = '\x7b' :: '\x7b' :: ' ' :: (text.toList ++ tagEnd) := by
    simp [printTag, tagEnd]
  have hkept : dropFinalNewline (printTag text).toList = (printTag text).toList := by
    rw [htext]
    simp [dropFinalNewline, tagEnd]
  rw [Delimiters.textOf, hkept, ite_self, htext]

/-- The cursor before a print tag around a text. -/
def printCursor (text : String) : Cursor :=
  ⟨'\x7b' :: '\x7b' :: ' ' :: (text.toList ++ tagEnd), 0, 1⟩

/-- The opening delimiter of that tag. -/
def printOpened (text : String) : Opened :=
  ⟨[], .variable, ['\x7b', '\x7b'], ' ' :: (text.toList ++ tagEnd)⟩

/-- **The tag**, up to the end of the template. -/
theorem readTag_printTag (trimBlocks keepTrailingNewline : Bool) {tag : TagTokens}
    (h : TagTokens.read none none [] ⟨text.toList, 3, 1⟩ = .ok tag) :
    readTag (.defaults trimBlocks keepTrailingNewline) (printOpened text) (printCursor text) =
      .ok ⟨⟨.mark .variableBegin, 1, ⟨0, 2⟩⟩ ::
          (tag.tokens ++ [(⟨text.toList, 3, 1⟩ : Cursor).closeToken]),
        (⟨text.toList, 3, 1⟩ : Cursor).behindTag, false⟩ := by
  let after : List Char := ' ' :: (text.toList ++ tagEnd)
  have htag : TagTokens.read (some printEnd) (some (.mark .variableBegin)) [] ⟨after, 2, 1⟩ =
      .ok ⟨tag.tokens ++ [(⟨text.toList, 3, 1⟩ : Cursor).closeToken],
        (⟨text.toList, 3, 1⟩ : Cursor).behindTag, false⟩ :=
    TagTokens.read_variableBegin.trans (TagTokens.read_extended h)
  have hcloser : (Delimiters.defaults trimBlocks keepTrailingNewline).variableEnd.toList =
      ['\x7d', '\x7d'] := by
    simp [Delimiters.defaults]
  have hpast : (printCursor text).past ['\x7b', '\x7b'] after = ⟨after, 2, 1⟩ := rfl
  show readMarked .variableBegin .variableEnd
    (Delimiters.defaults trimBlocks keepTrailingNewline).variableEnd.toList
    ['\x7b', '\x7b'] (printCursor text) after = _
  rw [hcloser, readMarked, hpast]
  show (TagTokens.read (some printEnd) (some (.mark .variableBegin)) [] ⟨after, 2, 1⟩).bind _ = _
  rw [htag]
  rfl

/-- The template is that tag. -/
theorem ofTemplate_of_readTag {trimBlocks keepTrailingNewline : Bool} {tokens : List Token}
    {behind : Cursor} (h : readTag (.defaults trimBlocks keepTrailingNewline) (printOpened text)
      (printCursor text) = .ok ⟨tokens, behind, false⟩) (hbehind : behind.rest = []) :
    Token.ofTemplate (.defaults trimBlocks keepTrailingNewline) (printTag text) =
      .ok (tokens ++ [behind.endToken]) := by
  have hfound : findOpening? (Delimiters.defaults trimBlocks keepTrailingNewline).openings
      (printCursor text).rest = some (printOpened text) := by
    rw [openings_defaults]
    rfl
  have hdata : dataToken (printCursor text) (printOpened text).before false
      ((printOpened text).after.head? == some '-') = [] := rfl
  have hstart : (printCursor text).past (printOpened text).before
      ((printOpened text).delimiter ++ (printOpened text).after) = printCursor text := rfl
  have hless : behind.rest.length < (printCursor text).rest.length := by
    rw [hbehind]
    exact Nat.zero_lt_succ _
  have hend : templateTokens (.defaults trimBlocks keepTrailingNewline) false behind =
      .ok [behind.endToken] := by
    rw [templateTokens, hbehind]
    rfl
  have hopen : (printCursor text).rest.isEmpty = false := rfl
  rw [Token.ofTemplate, textOf_printTag]
  show templateTokens _ false (printCursor text) = _
  rw [templateTokens, hfound]
  simp only [hopen, hdata, hstart, h, if_pos hless, hend]
  rfl

/-- **The tokens of a print tag** around a text are those of the text, read where it stands in the
tag, between two marks; behind them the template ends. -/
theorem ofTemplate_of_ofExpression (trimBlocks keepTrailingNewline : Bool)
    (h : Token.ofExpression text 1 3 = .ok ts) :
    Token.ofTemplate (.defaults trimBlocks keepTrailingNewline) (printTag text) =
      .ok (⟨.mark .variableBegin, 1, ⟨0, 2⟩⟩ ::
        (ts ++ [(⟨text.toList, 3, 1⟩ : Cursor).closeToken,
          (⟨text.toList, 3, 1⟩ : Cursor).behindTag.endToken])) := by
  obtain ⟨tag, hread, rfl⟩ := ofExpression_eq_ok.1 h
  rw [ofTemplate_of_readTag (readTag_printTag trimBlocks keepTrailingNewline hread) rfl,
    List.cons_append, List.append_assoc]
  rfl

/-- The tokens of a print tag, as far as their kinds and lines go. -/
theorem ofTemplate_printTag (trimBlocks keepTrailingNewline : Bool)
    (h : Token.ofExpression text 1 0 = .ok ts) : ∃ start inner close last,
    Token.ofTemplate (.defaults trimBlocks keepTrailingNewline) (printTag text) =
        .ok (start :: (inner ++ [close, last])) ∧
      start.kind = .mark .variableBegin ∧ ts.map (Token.seen true) = inner.map (Token.seen true) ∧
      close.kind = .mark .variableEnd ∧ close.line = 1 + newlines text.toList ∧
      last.kind = .mark .endOfTemplate := by
  obtain ⟨inner, hinner, hsame⟩ := seen_ofExpression 3 rfl h
  exact ⟨_, inner, _, _, ofTemplate_of_ofExpression trimBlocks keepTrailingNewline hinner, rfl, hsame,
    rfl, rfl, rfl⟩

/-- **A print tag reads its expression like a bare expression.** Where a text alone, at the place
that it has in its print tag, gives tokens, the tag around it gives the mark of its beginning, exactly
these tokens with their lines and spans, the mark of its end and the end of the template. -/
theorem Token.ofTemplate_print {e : String} {ts : List Token}
    (h : Token.ofExpression e 1 3 = .ok ts) :
    Token.ofTemplate {} (printTag e) =
      .ok (⟨.mark .variableBegin, 1, ⟨0, 2⟩⟩ ::
        (ts ++ [⟨.mark .variableEnd, 1 + newlines e.toList,
            ⟨e.utf8ByteSize + 4, e.utf8ByteSize + 6⟩⟩,
          ⟨.mark .endOfTemplate, 1 + newlines e.toList,
            ⟨e.utf8ByteSize + 6, e.utf8ByteSize + 6⟩⟩])) := by
  have hplain : ({} : Delimiters) = .defaults false false := rfl
  have hend : (⟨e.toList, 3, 1⟩ : Cursor).lastOffset = e.utf8ByteSize + 3 := by
    rw [Cursor.lastOffset, byteSize_toList, Nat.add_comm]
  rw [hplain, ofTemplate_of_ofExpression false false h, Cursor.behindTag, Cursor.closeToken,
    Cursor.endToken, Cursor.tokenTo, hend]
  rfl

/-- The closing delimiter in a string, the brace of a dictionary and a dash before the end. -/
theorem Token.ofTemplate_print_dash :
    let e := "\x7ba: \"-\x7d\x7d\"\x7d\n-"
    let ts : List Token := [⟨.symbol .lBrace, 1, ⟨3, 4⟩⟩, ⟨.name "a", 1, ⟨4, 5⟩⟩,
      ⟨.symbol .colon, 1, ⟨5, 6⟩⟩, ⟨.string "-\x7d\x7d", 1, ⟨7, 12⟩⟩, ⟨.symbol .rBrace, 1, ⟨12, 13⟩⟩,
      ⟨.symbol .sub, 2, ⟨14, 15⟩⟩]
    Token.ofExpression e 1 3 = .ok ts ∧
      Token.ofTemplate {} (printTag e) =
        .ok (⟨.mark .variableBegin, 1, ⟨0, 2⟩⟩ ::
          (ts ++ [⟨.mark .variableEnd, 2, ⟨16, 18⟩⟩, ⟨.mark .endOfTemplate, 2, ⟨18, 18⟩⟩])) := by
  intro e ts
  have htokens : Token.ofExpression e 1 3 = .ok ts := by cbv
  have hlines : newlines e.toList = 1 := by decide
  have hsize : e.utf8ByteSize = 12 := rfl
  have hprint := ofTemplate_print htokens
  rw [hlines, hsize] at hprint
  exact ⟨htokens, hprint⟩

end LiquidTemplate
