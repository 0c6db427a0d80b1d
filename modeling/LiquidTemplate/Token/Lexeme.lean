import LiquidTemplate.Number.Read
import LiquidTemplate.SyntaxError
import LiquidTemplate.Token
import LiquidTemplate.Token.Literal

/-!
# Lexemes of an expression

One token at the beginning of a text: a literal, a bracket or an operator.

* `Lexeme`: a token, the characters that spell it and those after it.
* `Bracket`: an opening bracket that is still to be closed.
* `Lexeme.literal?`: numbers, names, strings and range literals.
* `Lexeme.scan`: any lexeme; brackets have to match.
* `scan_eq`: a lexeme is not empty, and with the rest it makes up the text.
-/

namespace LiquidTemplate

open Text

/-- **Lexeme.** -/
structure Lexeme where
  kind : Token.Kind
  chars : List Char
  rest : List Char

/-- **Bracket** that is still open, with the line where it stands. -/
structure Bracket where
  char : Char
  line : Nat

/-- The symbol of an opening bracket. -/
def openingBracket? (c : Char) : Option Symbol :=
  if c = '(' then some .lParen
  else if c = '[' then some .lBracket
  else if c = '\x7b' then some .lBrace
  else none

/-- The symbol of a closing bracket. -/
def closingBracket? (c : Char) : Option Symbol :=
  if c = ')' then some .rParen
  else if c = ']' then some .rBracket
  else if c = '\x7d' then some .rBrace
  else none

/-- The bracket that closes an opening one. -/
def Bracket.closer (b : Bracket) : Char :=
  if b.char = '(' then ')' else if b.char = '[' then ']' else '\x7d'

/-- **Operators**, those of two characters before those of one. -/
def operators : List Symbol :=
  [.floorDiv, .pow, .eq, .ne, .ltEq, .gtEq,
    .add, .sub, .mul, .div, .mod, .tilde, .pipe, .dot, .comma, .colon, .semicolon, .assign, .lt, .gt]

/-- The first operator of the list that the text begins with. -/
def operator? (cs : List Char) : Option (Symbol × List Char) :=
  operators.findSome? fun s => (after? s.spelling.toList cs).map fun rest => (s, rest)

namespace Lexeme

/-- The token of a name. As the name of a tag `elsif` is another spelling of `elif`. -/
def nameKind (previous : Option TokenType) (chars : List Char) : Token.Kind :=
  if previous = some (.mark .blockBegin) ∧ chars = "elsif".toList then .name "elif"
  else .name (String.ofList chars)

/-- A number without the underscores between its groups. -/
def ungrouped (chars : List Char) : List Char :=
  chars.filter (· ≠ '_')

/-- A number with a fraction or an exponent; not directly after a dot, where digits are an index. -/
def float? (previous : Option TokenType) (cs : List Char) : Option (List Char × List Char) :=
  if previous = some (.symbol .dot) then none else Literal.float? cs

/-- **Literal** at the beginning of `cs`, if there is one; `previous` is the class of the token
before it. -/
def literal? (previous : Option TokenType) (cs : List Char) :
    Option (Except SyntaxError.Cause Lexeme) :=
  match Literal.range? cs with
  | some r => some (.ok ⟨.range (String.ofList r.start) (String.ofList r.stop), r.lexeme, r.rest⟩)
  | none =>
    match float? previous cs with
    | some (chars, rest) =>
      match Number.readFloat? (ungrouped chars) with
      | some value => some (.ok ⟨.float value, chars, rest⟩)
      | none => some (.error (.invalidFloat (String.ofList chars)))
    | none =>
      match Literal.grouped? cs with
      | some (chars, rest) =>
        match Number.readWord? (ungrouped chars) with
        | some value => some (.ok ⟨.integer value, chars, rest⟩)
        | none => some (.error (.integerOutOfRange (String.ofList chars)))
      | none =>
        match Literal.name? cs with
        | some (chars, rest) => some (.ok ⟨nameKind previous chars, chars, rest⟩)
        | none =>
          (Literal.quoted? cs).map fun (quote, body, rest) =>
            .ok ⟨.string (String.ofList (Literal.unescape body)), quote :: body ++ [quote], rest⟩

/-- A bracket or an operator at the beginning of `c :: cs`, where `opened` holds the open brackets,
the innermost first. -/
def symbol (opened : List Bracket) (line : Nat) (c : Char) (cs : List Char) :
    Except SyntaxError.Cause (Lexeme × List Bracket) :=
  match openingBracket? c with
  | some s => .ok (⟨.symbol s, [c], cs⟩, ⟨c, line⟩ :: opened)
  | none =>
    match closingBracket? c with
    | some s =>
      match opened with
      | [] => .error (.strayBracket c)
      | b :: outer =>
        if b.closer = c then .ok (⟨.symbol s, [c], cs⟩, outer)
        else .error (.mismatchedBracket c b.closer)
    | none =>
      match operator? (c :: cs) with
      | some (s, rest) => .ok (⟨.symbol s, s.spelling.toList, rest⟩, opened)
      | none =>
        if c = '"' ∨ c = '\'' then .error .unterminatedString else .error (.unexpectedChar c)

/-- **Lexeme** at the beginning of a text, with the brackets that are open after it. -/
def scan (previous : Option TokenType) (opened : List Bracket) (line : Nat) (cs : List Char) :
    Except SyntaxError.Cause (Lexeme × List Bracket) :=
  match literal? previous cs with
  | some (.ok l) => .ok (l, opened)
  | some (.error cause) => .error cause
  | none =>
    match cs with
    | [] => .error (.expectedExpression (Mark.describe .endOfTemplate))
    | c :: cs => symbol opened line c cs

/-! ### Nothing is lost -/

theorem literal?_eq {previous : Option TokenType} {cs : List Char} {l : Lexeme}
    (h : literal? previous cs = some (.ok l)) : cs = l.chars ++ l.rest ∧ l.chars ≠ [] := by
  unfold literal? at h
  split at h
  · next r hr =>
    obtain rfl := by simpa using h
    exact Literal.range?_eq hr
  · split at h
    · next chars rest hf =>
      have hf' : Literal.float? cs = some (chars, rest) := by
        unfold float? at hf
        split at hf
        · simp at hf
        · exact hf
      split at h
      · obtain rfl := by simpa using h
        exact Literal.float?_eq hf'
      · simp at h
    · split at h
      · next chars rest hg =>
        split at h
        · obtain rfl := by simpa using h
          exact Literal.grouped?_eq hg
        · simp at h
      · split at h
        · next chars rest hn =>
          obtain rfl := by simpa using h
          exact Literal.name?_eq hn
        · obtain ⟨⟨quote, body, rest⟩, hq, hl⟩ := Option.map_eq_some_iff.1 h
          obtain rfl := by simpa using hl
          exact ⟨by simp [Literal.quoted?_eq hq], by simp⟩

theorem operator?_eq {cs rest : List Char} {s : Symbol} (h : operator? cs = some (s, rest)) :
    cs = s.spelling.toList ++ rest := by
  obtain ⟨t, _, ht⟩ := List.exists_of_findSome?_eq_some h
  obtain ⟨r, hr, he⟩ := Option.map_eq_some_iff.1 ht
  obtain ⟨rfl, rfl⟩ := by simpa using he
  exact after?_eq_some_iff.1 hr

theorem spelling_ne_nil (s : Symbol) : s.spelling.toList ≠ [] := by
  cases s <;> decide

theorem symbol_eq {opened after : List Bracket} {line : Nat} {c : Char} {cs : List Char} {l : Lexeme}
    (h : symbol opened line c cs = .ok (l, after)) : c :: cs = l.chars ++ l.rest ∧ l.chars ≠ [] := by
  unfold symbol at h
  split at h
  · obtain ⟨rfl, rfl⟩ := by simpa using h
    simp
  · split at h
    · split at h
      · simp at h
      · split at h
        · obtain ⟨rfl, rfl⟩ := by simpa using h
          simp
        · simp at h
    · split at h
      · next s rest ho =>
        obtain ⟨rfl, rfl⟩ := by simpa using h
        exact ⟨operator?_eq ho, spelling_ne_nil s⟩
      · split at h <;> simp at h

/-- **A lexeme is not empty, and with the rest it makes up the text.** -/
theorem scan_eq {previous : Option TokenType} {opened after : List Bracket} {line : Nat}
    {cs : List Char} {l : Lexeme} (h : scan previous opened line cs = .ok (l, after)) :
    cs = l.chars ++ l.rest ∧ l.chars ≠ [] := by
  unfold scan at h
  split at h
  · next l' hl =>
    obtain ⟨rfl, rfl⟩ := by simpa using h
    exact literal?_eq hl
  · simp at h
  · split at h
    · simp at h
    · exact symbol_eq h

end Lexeme

end LiquidTemplate
