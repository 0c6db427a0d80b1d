import LiquidTemplate.Proofs.Errors.Lexing
import LiquidTemplate.Proofs.Exchange.Alone

/-!
# Texts at other places

Where a text stands changes nothing but the places of its tokens and of its errors: the lexer adds up
bytes and newlines, and it never looks at the sum. Every position that it reports is shifted by the
line and the offset at which the text begins, also those that it has remembered.

* `lineFrom`: a line of a text that begins at some line.
* `Token.shift`, `SyntaxError.shift`: tokens and errors of a text at another place.
* `Lexeme.scan_shift`, `nextToken_shift`, `TagTokens.read_shift`: one lexeme, one token, one tag.
* `expression_elsewhere`: the tokens of an expression that stands alone.
-/

namespace LiquidTemplate

open Text

variable {first offset : Nat}

/-! ### Shifted places -/

/-- **A line of a text that begins at the line `first`**, where `line` is counted from one. -/
def lineFrom (first line : Nat) : Nat :=
  line + first - 1

/-- Further lines are counted on from there. -/
theorem lineFrom_add {line : Nat} (hline : 1 ≤ line) (n : Nat) :
    lineFrom first (line + n) = lineFrom first line + n := by
  unfold lineFrom
  omega

/-- A span of a text that begins at an offset. -/
def Span.shift (offset : Nat) (s : Span) : Span :=
  ⟨s.lo + offset, s.hi + offset⟩

/-- **A token of a text that begins at another place.** -/
def Token.shift (first offset : Nat) (t : Token) : Token :=
  ⟨t.kind, lineFrom first t.line, t.span.shift offset⟩

/-- **An error of a text that begins at another place.** -/
def SyntaxError.shift (first offset : Nat) (e : SyntaxError) : SyntaxError :=
  { e with line := lineFrom first e.line, span := e.span.map (Span.shift offset) }

/-- A bracket of a text that begins at another line. -/
def Bracket.shift (first : Nat) (b : Bracket) : Bracket :=
  ⟨b.char, lineFrom first b.line⟩

/-- A cursor in a text that begins at another place. -/
def Cursor.shift (first offset : Nat) (c : Cursor) : Cursor :=
  ⟨c.rest, c.offset + offset, lineFrom first c.line⟩

/-- What a tag of such a text consists of. -/
def TagTokens.shift (first offset : Nat) (tag : TagTokens) : TagTokens :=
  ⟨tag.tokens.map (Token.shift first offset), tag.after.shift first offset, tag.dashed⟩

/-- **A result of a text that begins at another place.** -/
def shiftResult {α : Type} (first offset : Nat) (f : α → α) (r : Except SyntaxError α) :
    Except SyntaxError α :=
  (r.map f).mapError (SyntaxError.shift first offset)

namespace Cursor

variable {c d : Cursor}

theorem shift_past (hc : 1 ≤ c.line) (taken rest : List Char) :
    (c.shift first offset).past taken rest = (c.past taken rest).shift first offset := by
  have hline : lineFrom first (c.line + newlines taken) = _ := lineFrom_add hc (newlines taken)
  simp only [past, shift, hline, Nat.add_right_comm]

theorem shift_skipBlanks (hc : 1 ≤ c.line) :
    (c.shift first offset).skipBlanks = c.skipBlanks.shift first offset :=
  shift_past hc _ _

theorem shift_tokenTo (kind : Token.Kind) :
    (c.shift first offset).tokenTo kind (d.shift first offset) = (c.tokenTo kind d).shift first offset :=
  rfl

theorem line_le_past (hc : 1 ≤ c.line) (taken rest : List Char) : 1 ≤ (c.past taken rest).line :=
  Nat.le_trans hc (Nat.le_add_right _ _)

end Cursor

/-! ### Lexemes and tokens -/

variable {previous : Option TokenType} {closing : Option Closing} {opened : List Bracket} {c : Cursor}

/-- **A lexeme** and the open brackets behind it: only their lines have to do with the place. -/
theorem Lexeme.scan_shift (line : Nat) (cs : List Char) :
    scan previous (opened.map (Bracket.shift first)) (lineFrom first line) cs =
      (scan previous opened line cs).map fun (l, after) => (l, after.map (Bracket.shift first)) := by
  unfold scan
  cases literal? previous cs with
  | some r => cases r <;> rfl
  | none =>
    cases cs with
    | nil => rfl
    | cons c cs =>
      dsimp only
      unfold symbol
      cases openingBracket? c with
      | some s => rfl
      | none =>
        cases closingBracket? c with
        | some s =>
          cases opened with
          | nil => rfl
          | cons b outer =>
            have hcloser : (b.shift first).closer = b.closer := rfl
            simp only [List.map_cons, hcloser]
            split <;> rfl
        | none =>
          cases operator? (c :: cs) with
          | some found => rfl
          | none =>
            dsimp only
            split <;> rfl

/-- **One token.** -/
theorem nextToken_shift (hc : 1 ≤ c.line) :
    nextToken previous (opened.map (Bracket.shift first)) (c.shift first offset) =
      shiftResult first offset (fun (t, after, d) =>
        (t.shift first offset, after.map (Bracket.shift first), d.shift first offset))
        (nextToken previous opened c) := by
  have hscan : Lexeme.scan previous (opened.map (Bracket.shift first)) (c.shift first offset).line
      (c.shift first offset).rest = (Lexeme.scan previous opened c.line c.rest).map
        fun (l, after) => (l, after.map (Bracket.shift first)) := Lexeme.scan_shift c.line c.rest
  unfold nextToken
  rw [hscan]
  cases Lexeme.scan previous opened c.line c.rest with
  | error cause => rfl
  | ok found =>
    obtain ⟨l, after⟩ := found
    simp only [Except.map, Cursor.shift_past hc]
    rfl

theorem TagTokens.atEnd_shift :
    atEnd closing (opened.map (Bracket.shift first)) (c.shift first offset) =
      shiftResult first offset (TagTokens.shift first offset) (atEnd closing opened c) := by
  cases opened with
  | cons b outer => rfl
  | nil => cases closing <;> rfl

theorem TagTokens.close?_shift (hc : 1 ≤ c.line) :
    close? closing (opened.map (Bracket.shift first)) (c.shift first offset) =
      (close? closing opened c).map (TagTokens.shift first offset) := by
  cases opened with
  | cons b outer => cases closing <;> rfl
  | nil =>
    cases closing with
    | none => rfl
    | some closing =>
      have hrest : (c.shift first offset).rest = c.rest := rfl
      simp only [close?, List.map_nil, hrest, Option.map_map, Cursor.shift_past hc]
      rfl

/-- **All tokens of a tag**, by the rounds of the lexer. -/
theorem TagTokens.read_shift (hc : 1 ≤ c.line) :
    read closing previous (opened.map (Bracket.shift first)) (c.shift first offset) =
      shiftResult first offset (TagTokens.shift first offset) (read closing previous opened c) := by
  have hskip {c : Cursor} (hc : 1 ≤ c.line) : 1 ≤ c.skipBlanks.line := Cursor.line_le_past hc _ _
  fun_induction read closing previous opened c
  case case1 previous opened c d hend =>
    rw [read_of_empty, Cursor.shift_skipBlanks hc, atEnd_shift]
    rw [Cursor.shift_skipBlanks hc]
    exact List.isEmpty_iff.1 hend
  case case2 previous opened c d hmore tag hclose =>
    refine read_of_close ?_ ?_
    · rw [Cursor.shift_skipBlanks hc]
      exact mt List.isEmpty_iff.2 hmore
    · rw [Cursor.shift_skipBlanks hc, close?_shift (hskip hc), hclose]
      rfl
  case case3 previous opened c d hmore hopen e hnext =>
    have hne : (c.skipBlanks.shift first offset).rest ≠ [] := mt List.isEmpty_iff.2 hmore
    have hfails : nextToken previous (opened.map (Bracket.shift first))
        (c.skipBlanks.shift first offset) = .error (e.shift first offset) := by
      rw [nextToken_shift (hskip hc), hnext]
      rfl
    rw [read_eq, Cursor.shift_skipBlanks hc, if_neg hne, close?_shift (hskip hc), hopen, hfails]
    rfl
  case case4 previous opened c d hmore hopen t after c' hnext ih =>
    have hne : (c.skipBlanks.shift first offset).rest ≠ [] := mt List.isEmpty_iff.2 hmore
    have hgives : nextToken previous (opened.map (Bracket.shift first))
        (c.skipBlanks.shift first offset) =
          .ok (t.shift first offset, after.map (Bracket.shift first), c'.shift first offset) := by
      rw [nextToken_shift (hskip hc), hnext]
      rfl
    obtain ⟨l, -, rfl, rfl⟩ := exists_of_nextToken hnext
    rw [read_of_token (by rwa [Cursor.shift_skipBlanks hc])
      (by rw [Cursor.shift_skipBlanks hc, close?_shift (hskip hc), hopen]; rfl)
      (by rw [Cursor.shift_skipBlanks hc]; exact hgives)]
    have hrest := ih (Cursor.line_le_past (hskip hc) _ _)
    change Except.map _ (read closing (some (d.tokenTo l.kind (d.past l.chars l.rest)).type) _ _) = _
    rw [hrest]
    cases read closing _ after _ <;> rfl

/-! ### Expressions that stand alone -/

/-- The tokens of a text have lines, counted from one. -/
theorem line_pos_of_ofExpression {text : String} {tokens : List Token}
    (h : Token.ofExpression text 1 0 = .ok tokens) : ∀ t ∈ tokens, 1 ≤ t.line := by
  intro t ht
  obtain ⟨hd, -, -⟩ := yields_of_ofExpression h t ht
  exact hd.line_le

/-- An error in a text has a line, counted from one, and a place. -/
theorem place_of_ofExpression {text : String} {e : SyntaxError}
    (h : Token.ofExpression text 1 0 = .error e) : 1 ≤ e.line ∧ e.span.isSome := by
  obtain ⟨⟨d, -, hreports⟩, -⟩ := fails_of_ofExpression h
  exact ⟨hreports.first_le, by rw [hreports.span]; rfl⟩

/-- **Expressions at other places**: the tokens of a text that begins at a line and an offset are
those of the text at the line 1 and the offset 0, with that offset added to their spans and the line,
less one, to their lines; an error is the same with its line and its span moved alike. There are
lines and spans to be moved: each line is at least 1, and each error has a span. -/
theorem expression_elsewhere (text : String) (line offset : Nat) :
    Token.ofExpression text line offset =
        shiftResult line offset (List.map (Token.shift line offset)) (Token.ofExpression text 1 0) ∧
      (∀ tokens, Token.ofExpression text 1 0 = .ok tokens → ∀ t ∈ tokens, 1 ≤ t.line) ∧
      ∀ e, Token.ofExpression text 1 0 = .error e → 1 ≤ e.line ∧ e.span.isSome := by
  refine ⟨?_, fun _ => line_pos_of_ofExpression, fun _ => place_of_ofExpression⟩
  have hstart : (⟨text.toList, offset, line⟩ : Cursor) =
      Cursor.shift line offset ⟨text.toList, 0, 1⟩ := by
    simp [Cursor.shift, lineFrom]
  have hread : TagTokens.read none none ([].map (Bracket.shift line))
      (Cursor.shift line offset ⟨text.toList, 0, 1⟩) = _ := TagTokens.read_shift (Nat.le_refl 1)
  rw [List.map_nil] at hread
  unfold Token.ofExpression
  rw [hstart, hread]
  cases TagTokens.read none none [] ⟨text.toList, 0, 1⟩ <;> rfl

end LiquidTemplate
