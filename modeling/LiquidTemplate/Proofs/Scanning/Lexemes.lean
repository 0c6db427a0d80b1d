import LiquidTemplate.Delimiters
import LiquidTemplate.Token.Lexeme

/-!
# What lexemes are

A lexeme is a literal, a bracket or an operator. A literal and an operator leave the open brackets
as they are; an opening bracket is one more of them, and a closing bracket fits the innermost.

* `Token.Kind.Spells`: the characters that spell a token.
* `Token.Kind.Inner`: the tokens of the inside of a tag.
* `Lexeme.Scanned`: what a lexeme is and does to the open brackets.
* `scanned_of_ok`: every lexeme that is found is one of these.
-/

namespace LiquidTemplate

open Text

/-- **Spelling.** The characters that stand for a token in a template with the delimiters `d`, behind
a token of the class `previous`: a text stands for itself, a number for its decimal value without
the underscores, a string for its inside without the escapes, and a mark for its delimiter, an end
with or without a dash. The tag `elsif` is another spelling of `elif`. -/
def Token.Kind.Spells (d : Delimiters) (previous : Option TokenType) :
    Token.Kind → List Char → Prop
  | .data text, cs => cs = text.toList
  | .name text, cs =>
    text = if previous = some (.mark .blockBegin) ∧ cs = "elsif".toList then "elif"
      else String.ofList cs
  | .string text, cs => ∃ quote body, (quote = '\'' ∨ quote = '"') ∧
    cs = quote :: body ++ [quote] ∧ text = String.ofList (Literal.unescape body)
  | .integer value, cs => (∀ c ∈ Lexeme.ungrouped cs, isAsciiDigit c = true) ∧
    value.toInt = Number.digitsValue (Lexeme.ungrouped cs)
  | .float value, cs => Number.readFloat? (Lexeme.ungrouped cs) = some value
  | .range _ _, cs => ∃ inside, cs = '(' :: inside ++ [')']
  | .symbol s, cs => cs = s.spelling.toList
  | .mark .variableBegin, cs => cs = d.variableStart.toList
  | .mark .variableEnd, cs => cs = d.variableEnd.toList ∨ cs = '-' :: d.variableEnd.toList
  | .mark .blockBegin, cs => cs = d.blockStart.toList
  | .mark .blockEnd, cs => cs = d.blockEnd.toList ∨ cs = '-' :: d.blockEnd.toList
  | .mark .endOfTemplate, cs => cs = []

/-- **Inner tokens**: those that can stand inside of a tag, all but texts and marks. -/
def Token.Kind.Inner : Token.Kind → Prop
  | .data _ | .mark _ => False
  | _ => True

/-- **Literals**: inner tokens other than symbols. -/
def Token.Kind.Literal : Token.Kind → Prop
  | .data _ | .mark _ | .symbol _ => False
  | _ => True

namespace Lexeme

variable {previous : Option TokenType} {opened after : List Bracket} {line : Nat}

/-- **What a lexeme is**: its token, the characters that spell it, and the brackets that are open
behind it if those in `opened` were open before it. -/
inductive Scanned (previous : Option TokenType) (opened : List Bracket) (line : Nat) :
    Token.Kind → List Char → List Bracket → Prop where
  | literal {k : Token.Kind} {cs : List Char} (hk : k.Literal) (hs : ∀ d, k.Spells d previous cs) :
      Scanned previous opened line k cs opened
  | opening {c : Char} {s : Symbol} (h : openingBracket? c = some s) :
      Scanned previous opened line (.symbol s) [c] (⟨c, line⟩ :: opened)
  | closing {c : Char} {s : Symbol} {b : Bracket} {outer : List Bracket} (ho : opened = b :: outer)
      (h : closingBracket? c = some s) (hc : b.closer = c) :
      Scanned previous opened line (.symbol s) [c] outer
  | operator {s : Symbol} (h : s ∈ operators) :
      Scanned previous opened line (.symbol s) s.spelling.toList opened

/-! ### Numbers -/

theorem head_of_grouped {cs chars rest : List Char} (h : Literal.grouped? cs = some (chars, rest)) :
    ∃ c more, chars = c :: more ∧ isDecimalDigit c = true := by
  unfold Literal.grouped? at h
  split at h
  · cases h
  · next c cs =>
    split at h
    · next hc =>
      obtain ⟨rfl, _⟩ := by simpa using h
      exact ⟨c, _, rfl, hc⟩
    · cases h

/-- A number has no sign. -/
theorem readSign_of_digit {c : Char} (hc : isDecimalDigit c = true) (cs : List Char) :
    Number.readSign (c :: cs) = (false, c :: cs) := by
  have hminus : isDecimalDigit '-' = false := by decide
  have hplus : isDecimalDigit '+' = false := by decide
  unfold Number.readSign
  split
  · next heq =>
    rw [(List.cons.inj heq).1, hminus] at hc
    nomatch hc
  · next heq =>
    rw [(List.cons.inj heq).1, hplus] at hc
    nomatch hc
  · rfl

/-- **The value of an integer literal** is that of its digits. -/
theorem readWord?_eq {cs chars rest : List Char} {value : Int64}
    (hg : Literal.grouped? cs = some (chars, rest))
    (h : Number.readWord? (ungrouped chars) = some value) :
    (∀ c ∈ ungrouped chars, isAsciiDigit c = true) ∧
      value.toInt = Number.digitsValue (ungrouped chars) := by
  obtain ⟨c, more, rfl, hc⟩ := head_of_grouped hg
  have hscore : c ≠ '_' := by
    rintro rfl
    have hno : isDecimalDigit '_' = false := by decide
    rw [hno] at hc
    nomatch hc
  have hcons : ungrouped (c :: more) = c :: ungrouped more :=
    List.filter_cons_of_pos (by simpa using hscore)
  rw [hcons] at h ⊢
  unfold Number.readWord? at h
  rw [readSign_of_digit hc] at h
  obtain ⟨n, hn, hw⟩ := Option.bind_eq_some_iff.1 h
  unfold Number.readDigits? at hn
  split at hn
  · nomatch hn
  · next hall =>
    obtain rfl := Option.some.inj hn
    have hdigits : (c :: ungrouped more).all isAsciiDigit = true := by
      simpa using hall
    exact ⟨List.all_eq_true.1 hdigits, Number.word?_eq_some_iff.1 hw⟩

/-! ### Ranges -/

/-- **A range literal** stands in parentheses. -/
theorem range?_parentheses {cs : List Char} {r : Literal.Range} (h : Literal.range? cs = some r) :
    ∃ inside, r.lexeme = '(' :: inside ++ [')'] := by
  simp only [Literal.range?, bind, Option.bind_eq_some_iff, Prod.exists, pure,
    Option.some.injEq] at h
  obtain ⟨a, _, start, b, _, c, _, stop, e, _, rest, _, rfl⟩ := h
  exact ⟨_, rfl⟩

/-! ### All lexemes -/

/-- The name of a tag is a name. -/
theorem nameKind_eq (previous : Option TokenType) (cs : List Char) :
    nameKind previous cs = .name (if previous = some (.mark .blockBegin) ∧ cs = "elsif".toList
      then "elif" else String.ofList cs) := by
  unfold nameKind
  split <;> rfl

theorem scanned_literal {cs : List Char} {l : Lexeme} (h : literal? previous cs = some (.ok l)) :
    Scanned previous opened line l.kind l.chars opened := by
  unfold literal? at h
  split at h
  · next r hr =>
    obtain rfl := by simpa using h
    exact .literal trivial fun _ => range?_parentheses hr
  · split at h
    · next chars rest hf =>
      split at h
      · next value hv =>
        obtain rfl := by simpa using h
        exact .literal trivial fun _ => hv
      · cases h
    · split at h
      · next chars rest hg =>
        split at h
        · next value hv =>
          obtain rfl := by simpa using h
          exact .literal trivial fun _ => readWord?_eq hg hv
        · cases h
      · split at h
        · next chars rest hn =>
          obtain rfl := by simpa using h
          rw [nameKind_eq]
          exact .literal trivial fun _ => rfl
        · obtain ⟨⟨quote, body, rest⟩, hq, hl⟩ := Option.map_eq_some_iff.1 h
          obtain rfl := by simpa using hl
          have hquote : quote = '\'' ∨ quote = '"' := by
            unfold Literal.quoted? at hq
            split at hq
            · cases hq
            · split at hq
              · next hc =>
                obtain ⟨p, _, hp⟩ := Option.map_eq_some_iff.1 hq
                rw [← (Prod.mk.inj hp).1]
                exact hc
              · cases hq
          exact .literal trivial fun _ => ⟨quote, body, hquote, rfl, rfl⟩

theorem scanned_symbol {c : Char} {cs : List Char} {l : Lexeme}
    (h : symbol opened line c cs = .ok (l, after)) :
    Scanned previous opened line l.kind l.chars after := by
  unfold symbol at h
  split at h
  · next s hs =>
    obtain ⟨rfl, rfl⟩ := by simpa using h
    exact .opening hs
  · split at h
    · next s hs =>
      split at h
      · nomatch h
      · next b outer =>
        split at h
        · next hc =>
          obtain ⟨rfl, rfl⟩ := by simpa using h
          exact .closing rfl hs hc
        · nomatch h
    · split at h
      · next s rest hs =>
        obtain ⟨rfl, rfl⟩ := by simpa using h
        obtain ⟨t, ht, hm⟩ := List.exists_of_findSome?_eq_some hs
        obtain ⟨_, _, he⟩ := Option.map_eq_some_iff.1 hm
        rw [← (Prod.mk.inj he).1]
        exact .operator ht
      · split at h <;> nomatch h

/-- **Every lexeme** that is found is a literal, a bracket or an operator. -/
theorem scanned_of_ok {cs : List Char} {l : Lexeme}
    (h : scan previous opened line cs = .ok (l, after)) :
    Scanned previous opened line l.kind l.chars after := by
  unfold scan at h
  split at h
  · next l' hl =>
    obtain ⟨rfl, rfl⟩ := by simpa using h
    exact scanned_literal hl
  · cases h
  · split at h
    · cases h
    · exact scanned_symbol h

/-! ### What lexemes are made of -/

theorem spelling_of_opening {c : Char} {s : Symbol} (h : openingBracket? c = some s) :
    s.spelling.toList = [c] := by
  unfold openingBracket? at h
  split at h
  · next hc => rw [← Option.some.inj h, hc]; rfl
  · split at h
    · next hc => rw [← Option.some.inj h, hc]; rfl
    · split at h
      · next hc => rw [← Option.some.inj h, hc]; rfl
      · nomatch h

theorem spelling_of_closing {c : Char} {s : Symbol} (h : closingBracket? c = some s) :
    s.spelling.toList = [c] := by
  unfold closingBracket? at h
  split at h
  · next hc => rw [← Option.some.inj h, hc]; rfl
  · split at h
    · next hc => rw [← Option.some.inj h, hc]; rfl
    · split at h
      · next hc => rw [← Option.some.inj h, hc]; rfl
      · nomatch h

/-- **A lexeme is spelled** by its characters. -/
theorem Scanned.spells {k : Token.Kind} {cs : List Char}
    (h : Scanned previous opened line k cs after) (d : Delimiters) : k.Spells d previous cs := by
  cases h with
  | literal hk hs => exact hs d
  | opening hc => exact (spelling_of_opening hc).symm
  | closing _ hc _ => exact (spelling_of_closing hc).symm
  | operator _ => rfl

/-- **A lexeme is an inner token.** -/
theorem Scanned.inner {k : Token.Kind} {cs : List Char}
    (h : Scanned previous opened line k cs after) : k.Inner := by
  cases h with
  | literal hk hs =>
    cases k with
    | data text => exact hk
    | mark m => exact hk
    | _ => trivial
  | opening _ => trivial
  | closing _ _ _ => trivial
  | operator _ => trivial

end Lexeme

end LiquidTemplate
