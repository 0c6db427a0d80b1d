import LiquidTemplate.Text.Blank
import LiquidTemplate.Token.Lexeme

/-!
# Tokens of a tag

The tokens of an expression, up to the delimiter that closes its tag or, for an expression that
stands alone, up to the end of the text.

* `Cursor`: the text that is left, with its offset and line.
* `Closing`: a closing delimiter and the mark that it gives.
* `nextToken`: one token; `length_nextToken_lt` says that it consumes at least a character.
* `TagTokens.read`: all tokens of a tag.
* `Token.ofExpression`: the tokens of an expression that stands alone.
-/

namespace LiquidTemplate

open Text

/-- **Cursor** in a text. -/
structure Cursor where
  rest : List Char
  offset : Nat
  line : Nat

namespace Cursor

/-- The cursor behind `taken`, where `rest` is left. -/
def past (c : Cursor) (taken rest : List Char) : Cursor :=
  ⟨rest, c.offset + byteSize taken, c.line + newlines taken⟩

/-- The cursor behind the blanks at its place. -/
def skipBlanks (c : Cursor) : Cursor :=
  c.past (c.rest.takeWhile isBlank) (trimStart c.rest)

/-- The token of a kind from one cursor to another. -/
def tokenTo (c : Cursor) (kind : Token.Kind) (after : Cursor) : Token :=
  ⟨kind, c.line, ⟨c.offset, after.offset⟩⟩

/-- An error at the place of the cursor, reported for a line. -/
def errorAt (c : Cursor) (cause : SyntaxError.Cause) (line : Nat) : SyntaxError :=
  .atSpan cause line (.point c.offset)

/-- An error at the cursor. -/
def error (c : Cursor) (cause : SyntaxError.Cause) : SyntaxError :=
  c.errorAt cause c.line

theorem length_skipBlanks_le (c : Cursor) : c.skipBlanks.rest.length ≤ c.rest.length :=
  length_trimStart_le c.rest

end Cursor

/-- **Closing delimiter** of a tag and its mark. -/
structure Closing where
  delimiter : List Char
  mark : Mark

/-- The text after a closing delimiter at the beginning of `cs`; the flag tells whether a dash
stands before the delimiter. -/
def Closing.match? (closing : Closing) (cs : List Char) : Option (Bool × List Char × List Char) :=
  match after? ('-' :: closing.delimiter) cs with
  | some rest => some (true, '-' :: closing.delimiter, rest)
  | none => (after? closing.delimiter cs).map fun rest => (false, closing.delimiter, rest)

/-- **One token** at the cursor, the brackets that are open after it, and the cursor behind it. -/
def nextToken (previous : Option TokenType) (opened : List Bracket) (c : Cursor) :
    Except SyntaxError (Token × List Bracket × Cursor) :=
  match Lexeme.scan previous opened c.line c.rest with
  | .error cause => .error (c.error cause)
  | .ok (l, opened) =>
    let after := c.past l.chars l.rest
    .ok (c.tokenTo l.kind after, opened, after)

/-- A token is a lexeme at its place. -/
theorem exists_of_nextToken {previous : Option TokenType} {opened after : List Bracket}
    {c d : Cursor} {t : Token} (h : nextToken previous opened c = .ok (t, after, d)) :
    ∃ l, Lexeme.scan previous opened c.line c.rest = .ok (l, after) ∧
      d = c.past l.chars l.rest ∧ t = c.tokenTo l.kind d := by
  unfold nextToken at h
  split at h
  · nomatch h
  · next l o hl =>
    obtain ⟨rfl, rfl, rfl⟩ := by simpa using h
    exact ⟨l, hl, rfl, rfl⟩

/-- **A token consumes at least a character.** -/
theorem length_nextToken_lt {previous : Option TokenType} {opened after : List Bracket}
    {c d : Cursor} {t : Token} (h : nextToken previous opened c = .ok (t, after, d)) :
    d.rest.length < c.rest.length := by
  obtain ⟨l, hl, rfl, -⟩ := exists_of_nextToken h
  obtain ⟨he, hne⟩ := Lexeme.scan_eq hl
  have := List.length_pos_iff.2 hne
  simp only [Cursor.past, he, List.length_append]
  omega

/-- **What a tag consists of**: its tokens, the cursor behind it, and whether a dash stands before
its closing delimiter. -/
structure TagTokens where
  tokens : List Token
  after : Cursor
  dashed : Bool

/-- What was made of a success was made of its value. -/
theorem exists_of_map_eq_ok {α β : Type} {r : Except SyntaxError α} {f : α → β} {y : β}
    (h : r.map f = .ok y) : ∃ x, r = .ok x ∧ f x = y := by
  cases r with
  | error e => nomatch h
  | ok x => exact ⟨x, rfl, Except.ok.inj h⟩

namespace TagTokens

/-- What a tag consists of when the text ends: no bracket may be open and no delimiter missing. -/
def atEnd (closing : Option Closing) (opened : List Bracket) (c : Cursor) :
    Except SyntaxError TagTokens :=
  match opened, closing with
  | b :: _, _ => .error (c.errorAt (.unclosedBracket b.char) b.line)
  | [], some _ => .error (c.error .missingTagEnd)
  | [], none => .ok ⟨[], c, false⟩

/-- The end of a tag at the cursor; a delimiter counts only where no bracket is open. -/
def close? (closing : Option Closing) (opened : List Bracket) (c : Cursor) : Option TagTokens :=
  match closing, opened with
  | some closing, [] =>
    (closing.match? c.rest).map fun (dashed, taken, rest) =>
      let after := c.past taken rest
      ⟨[c.tokenTo (.mark closing.mark) after], after, dashed⟩
  | _, _ => none

/-- **Tokens of a tag** from the cursor on. -/
def read (closing : Option Closing) (previous : Option TokenType) (opened : List Bracket)
    (c : Cursor) : Except SyntaxError TagTokens :=
  let d := c.skipBlanks
  if d.rest.isEmpty then atEnd closing opened d
  else
    match close? closing opened d with
    | some tag => .ok tag
    | none =>
      match _h : nextToken previous opened d with
      | .error e => .error e
      | .ok (t, opened, after) =>
        (read closing (some t.type) opened after).map fun tag =>
          { tag with tokens := t :: tag.tokens }
termination_by c.rest.length
decreasing_by
  exact Nat.lt_of_lt_of_le (length_nextToken_lt _h) c.length_skipBlanks_le

end TagTokens

/-- **Tokens of an expression that stands alone.** Lines and offsets are counted from the given
ones. -/
def Token.ofExpression (text : String) (line offset : Nat) : Except SyntaxError (List Token) :=
  (TagTokens.read none none [] ⟨text.toList, offset, line⟩).map TagTokens.tokens

end LiquidTemplate
