import Mathlib
import LiquidTemplate.Number.Text
import LiquidTemplate.Proofs.Exchange.PrintTags

/-!
# Printed tokens

Tokens of expressions as texts: names and symbols as they are, integers in decimal, strings between
quotes with escapes, and range literals. Where a blank or nothing follows, the lexer takes such a text
as one lexeme and gives the token back.

* `IsName`, `IsBound`: names, and the bounds of range literals.
* `escape`, `unescape_escape`: the inside of a printed string.
* `Token.Kind.Prints`: the texts of a token.
* `Token.Kind.Prints.literal?_eq`: literals.
* `symbol_of_operator`: operators.
-/

namespace LiquidTemplate

open Text

/-! ### Characters -/

theorem toNat_of_isAsciiDigit {c : Char} (h : isAsciiDigit c = true) :
    48 ≤ c.toNat ∧ c.toNat ≤ 57 := by
  simp only [isAsciiDigit, Bool.and_eq_true, decide_eq_true_eq, Char.le_def,
    UInt32.le_iff_toNat_le] at h
  exact h

theorem toNat_of_isNameStart {c : Char} (h : isNameStart c = true) :
    65 ≤ c.toNat ∧ c.toNat ≤ 122 := by
  simp only [isNameStart, Bool.or_eq_true, Bool.and_eq_true, decide_eq_true_eq, beq_iff_eq,
    Char.le_def, UInt32.le_iff_toNat_le] at h
  have hc : (97 ≤ c.toNat ∧ c.toNat ≤ 122 ∨ 65 ≤ c.toNat ∧ c.toNat ≤ 90) ∨ c = '_' := h
  rcases hc with hc | rfl
  · omega
  · decide

theorem toNat_of_isNameChar {c : Char} (h : isNameChar c = true) :
    48 ≤ c.toNat ∧ c.toNat ≤ 122 := by
  rcases Bool.or_eq_true_iff.1 h with h | h
  · have := toNat_of_isNameStart h
    omega
  · have := toNat_of_isAsciiDigit h
    omega

theorem isDecimalDigit_of_isAsciiDigit {c : Char} (h : isAsciiDigit c = true) :
    isDecimalDigit c = true := by
  have hsmall : c.toNat < 128 := by
    have := toNat_of_isAsciiDigit h
    omega
  rw [isDecimalDigit, if_pos hsmall, h]

theorem isWordChar_of_isNameChar {c : Char} (h : isNameChar c = true) : isWordChar c = true := by
  have hsmall : c.toNat < 128 := by
    have := toNat_of_isNameChar h
    omega
  rw [isWordChar, if_pos hsmall, h]

/-- A name does not begin with a digit. -/
theorem isDecimalDigit_of_isNameStart {c : Char} (h : isNameStart c = true) :
    isDecimalDigit c = false := by
  have hc := toNat_of_isNameStart h
  rw [isDecimalDigit, if_pos (by omega)]
  refine Bool.eq_false_iff.2 fun hdigit => ?_
  have := toNat_of_isAsciiDigit hdigit
  omega

theorem isBlank_of_isNameChar {c : Char} (h : isNameChar c = true) : isBlank c = false := by
  have hc := toNat_of_isNameChar h
  simp only [isBlank, Bool.or_eq_false_iff, Bool.and_eq_false_iff, decide_eq_false_iff_not,
    beq_eq_false_iff_ne]
  omega

/-! ### What follows -/

/-- **A gap**: nothing, or a blank before anything. -/
def Gap (rest : List Char) : Prop :=
  ∀ c ∈ rest.head?, c = ' '

/-- Characters of a class up to one of another class, or the end. -/
theorem span_append {p : Char → Bool} {cs rest : List Char} (hcs : ∀ c ∈ cs, p c = true)
    (hrest : ∀ c ∈ rest.head?, p c = false) :
    (cs ++ rest).takeWhile p = cs ∧ (cs ++ rest).dropWhile p = rest := by
  rw [List.takeWhile_append_of_pos hcs, List.dropWhile_append_of_pos hcs]
  cases rest with
  | nil => exact ⟨List.append_nil cs, rfl⟩
  | cons c rest =>
    have hc : ¬ p c = true := by simpa using hrest c rfl
    rw [List.takeWhile_cons_of_neg hc, List.dropWhile_cons_of_neg hc, List.append_nil]
    exact ⟨rfl, rfl⟩

theorem Gap.head {p : Char → Bool} {rest : List Char} (h : Gap rest) (hp : p ' ' = false) :
    ∀ c ∈ rest.head?, p c = false := by
  intro c hc
  rw [h c hc, hp]

namespace Literal

/-- **Names**: a letter or an underscore, and letters, digits and underscores behind it. -/
def IsName (cs : List Char) : Prop :=
  (∃ c ∈ cs.head?, isNameStart c = true) ∧ ∀ c ∈ cs, isNameChar c = true

/-- **Bounds of range literals**: digits, perhaps with a minus before them, or names between dots. -/
inductive IsBound : List Char → Prop where
  | digits {cs : List Char} (hne : cs ≠ []) (hcs : ∀ c ∈ cs, isAsciiDigit c = true) : IsBound cs
  | negative {cs : List Char} (hne : cs ≠ []) (hcs : ∀ c ∈ cs, isAsciiDigit c = true) :
      IsBound ('-' :: cs)
  | path {name : List Char} {names : List (List Char)} (hname : IsName name)
      (hnames : ∀ name ∈ names, IsName name) : IsBound (name ++ names.flatMap ('.' :: ·))

/-- **Escaped text** for the inside of a string between quotes: a backslash stands before every
backslash and every quote of this kind. -/
def escape (quote : Char) : List Char → List Char
  | [] => []
  | c :: cs => if c = '\\' ∨ c = quote then '\\' :: c :: escape quote cs else c :: escape quote cs

end Literal

/-- **The printed forms** of a token: a name and a symbol are spelled as they are, an integer that is
not negative is written in decimal, a string between either kind of quotes, and a range literal between
parentheses without blanks. -/
inductive Token.Kind.Prints : Token.Kind → List Char → Prop where
  | name {cs : List Char} (h : Literal.IsName cs) : Prints (.name (String.ofList cs)) cs
  | integer {value : Int64} (h : 0 ≤ value.toInt) :
      Prints (.integer value) (Number.natText value.toInt.toNat)
  | string {quote : Char} (hquote : quote = '\'' ∨ quote = '"') (text : String) :
      Prints (.string text) (quote :: Literal.escape quote text.toList ++ [quote])
  | range {start stop : List Char} (hstart : Literal.IsBound start) (hstop : Literal.IsBound stop) :
      Prints (.range (String.ofList start) (String.ofList stop))
        ('(' :: start ++ ['.', '.'] ++ stop ++ [')'])
  | symbol (s : Symbol) : Prints (.symbol s) s.spelling.toList

/-! ### Strings -/

namespace Literal

variable {quote : Char} {cs rest : List Char}

/-- **The quotes of an escaped text** do not end the string. -/
theorem stringBody?_escape (hquote : quote ≠ '\\') (cs rest : List Char) :
    stringBody? quote (escape quote cs ++ quote :: rest) = some (escape quote cs, rest) := by
  induction cs with
  | nil =>
    rw [escape, List.nil_append, stringBody?.eq_def]
    simp
  | cons c cs ih =>
    by_cases hc : c = '\\' ∨ c = quote
    · rw [escape, if_pos hc, List.cons_append, List.cons_append, stringBody?.eq_def]
      simp [Ne.symm hquote, ih]
    · obtain ⟨hslash, hother⟩ := not_or.1 hc
      rw [escape, if_neg hc, List.cons_append, stringBody?.eq_def]
      simp [hother, hslash, ih]

/-- **Unescaping undoes escaping.** -/
theorem unescape_escape (hquote : quote = '\'' ∨ quote = '"') (cs : List Char) :
    unescape (escape quote cs) = cs := by
  induction cs with
  | nil => rfl
  | cons c cs ih =>
    by_cases hc : c = '\\' ∨ c = quote
    · have hescapes : c = '\\' ∨ c = '\'' ∨ c = '"' := hc.imp_right fun h => by rwa [h]
      have hplain : c ≠ 'n' ∧ c ≠ 't' ∧ c ≠ 'r' ∧ c ≠ '0' := by
        rcases hescapes with rfl | rfl | rfl <;> decide
      rw [escape, if_pos hc, unescape, if_pos rfl, if_neg hplain.1, if_neg hplain.2.1,
        if_neg hplain.2.2.1, if_neg hplain.2.2.2, if_pos hescapes, ih]
    · rw [escape, if_neg hc]
      have hslash : c ≠ '\\' := (not_or.1 hc).1
      cases hmore : escape quote cs with
      | nil =>
        rw [hmore] at ih
        rw [← ih]
        rfl
      | cons d more =>
        rw [hmore] at ih
        rw [unescape, if_neg hslash, ih]

/-! ### Names and numbers -/

theorem name?_append (h : IsName cs) (hrest : Gap rest) : name? (cs ++ rest) = some (cs, rest) := by
  obtain ⟨⟨c, hhead, hc⟩, hall⟩ := h
  obtain ⟨more, rfl⟩ := List.head?_eq_some_iff.1 hhead
  obtain ⟨htake, hdrop⟩ := span_append (List.forall_mem_cons.1 hall).2
    (hrest.head (p := isNameChar) rfl)
  rw [List.cons_append, name?, if_pos hc, htake, hdrop]

/-- Characters of a class in front of a text belong to the groups at its beginning. -/
theorem groups_append {separator : Char} {p : Char → Bool} (hcs : ∀ c ∈ cs, p c = true)
    (rest : List Char) : groups separator p (cs ++ rest) =
      (cs ++ (groups separator p rest).1, (groups separator p rest).2) := by
  induction cs with
  | nil => rfl
  | cons c cs ih =>
    obtain ⟨hc, hcs⟩ := List.forall_mem_cons.1 hcs
    rw [List.cons_append, groups.eq_def]
    dsimp only
    rw [if_pos hc, ih hcs]
    rfl

theorem groups_gap {separator : Char} {p : Char → Bool} (hrest : Gap rest) (hs : ' ' ≠ separator)
    (hp : p ' ' = false) : groups separator p rest = ([], rest) := by
  cases rest with
  | nil => rfl
  | cons c rest =>
    obtain rfl := hrest c rfl
    rw [groups.eq_def]
    cases rest <;> simp [hp, hs]

theorem grouped?_append (hne : cs ≠ []) (hcs : ∀ c ∈ cs, isAsciiDigit c = true) (hrest : Gap rest) :
    grouped? (cs ++ rest) = some (cs, rest) := by
  cases cs with
  | nil => exact absurd rfl hne
  | cons c cs =>
    obtain ⟨hc, hcs⟩ := List.forall_mem_cons.1 hcs
    have hdigits : ∀ x ∈ cs, isDecimalDigit x = true := fun x hx =>
      isDecimalDigit_of_isAsciiDigit (hcs x hx)
    have hgap : groups '_' isDecimalDigit rest = ([], rest) := groups_gap hrest (by decide) rfl
    rw [List.cons_append, grouped?, if_pos (isDecimalDigit_of_isAsciiDigit hc),
      groups_append hdigits, hgap, List.append_nil]

/-- Digits alone are no number with a fraction or an exponent. -/
theorem float?_append (hne : cs ≠ []) (hcs : ∀ c ∈ cs, isAsciiDigit c = true) (hrest : Gap rest) :
    float? (cs ++ rest) = none := by
  have hnone : fraction? rest = none ∧ exponent? rest = none := by
    cases rest with
    | nil => exact ⟨rfl, rfl⟩
    | cons c rest =>
      obtain rfl := hrest c rfl
      exact ⟨rfl, rfl⟩
  rw [float?, grouped?_append hne hcs hrest, Option.bind_some]
  dsimp only
  rw [hnone.1, hnone.2]
  rfl

/-! ### Range literals -/

theorem digits?_append (hne : cs ≠ []) (hcs : ∀ c ∈ cs, isAsciiDigit c = true)
    (hrest : ∀ c ∈ rest.head?, isDecimalDigit c = false) : digits? (cs ++ rest) = some (cs, rest) := by
  obtain ⟨htake, hdrop⟩ :=
    span_append (fun c hc => isDecimalDigit_of_isAsciiDigit (hcs c hc)) hrest
  rw [digits?, htake, hdrop, if_neg (by simpa using hne)]

/-- **What can follow a bound**: neither a word character nor a dot and one. -/
def EndsBound (rest : List Char) : Prop :=
  groups '.' isWordChar rest = ([], rest) ∧ ∀ c ∈ rest.head?, isDecimalDigit c = false

theorem groups_path {names : List (List Char)} (hnames : ∀ name ∈ names, IsName name)
    (hrest : groups '.' isWordChar rest = ([], rest)) :
    groups '.' isWordChar (names.flatMap ('.' :: ·) ++ rest) = (names.flatMap ('.' :: ·), rest) := by
  induction names with
  | nil => exact hrest
  | cons name names ih =>
    obtain ⟨hname, hothers⟩ := List.forall_mem_cons.1 hnames
    obtain ⟨c, hhead, -⟩ := hname.1
    obtain ⟨more, rfl⟩ := List.head?_eq_some_iff.1 hhead
    have hword : ∀ x ∈ c :: more, isWordChar x = true := fun x hx =>
      isWordChar_of_isNameChar (hname.2 x hx)
    obtain ⟨hc, hmore⟩ := List.forall_mem_cons.1 hword
    have hdot : ¬ isWordChar '.' = true := by decide +kernel
    rw [List.flatMap_cons, List.append_assoc, List.cons_append, List.cons_append, groups.eq_def]
    dsimp only
    rw [if_neg hdot, if_pos ⟨rfl, hc⟩, groups_append hmore, ih hothers]
    rfl

theorem pathBound?_append {name : List Char} {names : List (List Char)} (hname : IsName name)
    (hnames : ∀ name ∈ names, IsName name) (hrest : groups '.' isWordChar rest = ([], rest)) :
    pathBound? (name ++ names.flatMap ('.' :: ·) ++ rest) =
      some (name ++ names.flatMap ('.' :: ·), rest) := by
  obtain ⟨⟨c, hhead, hc⟩, hall⟩ := hname
  obtain ⟨more, rfl⟩ := List.head?_eq_some_iff.1 hhead
  have hmore : ∀ x ∈ more, isWordChar x = true := fun x hx =>
    isWordChar_of_isNameChar (hall x (List.mem_cons_of_mem _ hx))
  rw [List.append_assoc, List.cons_append, pathBound?, if_pos hc, groups_append hmore,
    groups_path hnames hrest]
  rfl

/-- A name is no number. -/
theorem numberBound?_of_isNameStart {c : Char} (hc : isNameStart c = true) (cs : List Char) :
    numberBound? (c :: cs) = none := by
  have hdash : c ≠ '-' := by
    rintro rfl
    exact absurd hc (by decide)
  have hdigit : ¬ isDecimalDigit c = true := by simp [isDecimalDigit_of_isNameStart hc]
  rw [numberBound?, if_neg hdash, digits?, List.takeWhile_cons_of_neg hdigit]
  rfl

/-- **A bound** is taken as a whole. -/
theorem bound?_append (h : IsBound cs) (hrest : EndsBound rest) :
    bound? (cs ++ rest) = some (cs, rest) := by
  cases h with
  | digits hne hcs =>
    cases cs with
    | nil => exact absurd rfl hne
    | cons c cs =>
      have hdash : c ≠ '-' := by
        rintro rfl
        exact absurd (hcs '-' List.mem_cons_self) (by decide)
      have hnumber : numberBound? (c :: cs ++ rest) = some (c :: cs, rest) := by
        rw [List.cons_append, numberBound?, if_neg hdash, ← List.cons_append,
          digits?_append hne hcs hrest.2]
      rw [bound?, hnumber]
      rfl
  | @negative cs hne hcs =>
    have hnumber : numberBound? ('-' :: cs ++ rest) = some ('-' :: cs, rest) := by
      rw [List.cons_append, numberBound?, if_pos rfl, digits?_append hne hcs hrest.2]
      rfl
    rw [bound?, hnumber]
    rfl
  | @path name names hname hnames =>
    have hpath := pathBound?_append hname hnames hrest.1
    obtain ⟨⟨c, hhead, hc⟩, -⟩ := hname
    obtain ⟨more, rfl⟩ := List.head?_eq_some_iff.1 hhead
    rw [bound?, hpath, List.cons_append, List.cons_append, numberBound?_of_isNameStart hc]
    rfl

theorem IsBound.head (h : IsBound cs) : ∃ c more, cs = c :: more ∧ isBlank c = false := by
  have hdigits {cs : List Char} (hne : cs ≠ []) (hcs : ∀ c ∈ cs, isAsciiDigit c = true) :
      ∃ c more, cs = c :: more ∧ isBlank c = false := by
    obtain ⟨c, more, rfl⟩ := List.exists_cons_of_ne_nil hne
    have hc : isNameChar c = true := Bool.or_eq_true_iff.2 (.inr (hcs c List.mem_cons_self))
    exact ⟨c, more, rfl, isBlank_of_isNameChar hc⟩
  cases h with
  | digits hne hcs => exact hdigits hne hcs
  | negative hne hcs => exact ⟨'-', _, rfl, rfl⟩
  | path hname _ =>
    obtain ⟨⟨c, hhead, hc⟩, -⟩ := hname
    obtain ⟨more, rfl⟩ := List.head?_eq_some_iff.1 hhead
    exact ⟨c, _, rfl, isBlank_of_isNameChar (Bool.or_eq_true_iff.2 (.inl hc))⟩

/-- No blanks stand before a bound. -/
theorem IsBound.trimStart (h : IsBound cs) (rest : List Char) :
    Text.trimStart (cs ++ rest) = cs ++ rest ∧ blanks (cs ++ rest) = [] := by
  obtain ⟨c, more, rfl, hc⟩ := h.head
  have hc : ¬ isBlank c = true := by simp [hc]
  exact ⟨List.dropWhile_cons_of_neg hc, List.takeWhile_cons_of_neg hc⟩

theorem endsBound_dots (rest : List Char) : EndsBound ('.' :: '.' :: rest) := by
  have hdot : isWordChar '.' = false := by decide +kernel
  refine ⟨?_, ?_⟩
  · rw [groups.eq_def]
    simp [hdot]
  · rintro c ⟨⟩
    rfl

theorem endsBound_close (rest : List Char) : EndsBound (')' :: rest) := by
  have hclose : isWordChar ')' = false := by decide +kernel
  refine ⟨?_, ?_⟩
  · rw [groups.eq_def]
    cases rest <;> simp [hclose]
  · rintro c ⟨⟩
    rfl

/-- **A printed range literal** is taken as a whole. -/
theorem range?_append {start stop : List Char} (hstart : IsBound start) (hstop : IsBound stop)
    (rest : List Char) :
    range? ('(' :: start ++ ['.', '.'] ++ stop ++ [')'] ++ rest) =
      some ⟨start, stop, '(' :: start ++ ['.', '.'] ++ stop ++ [')'], rest⟩ := by
  have htext : '(' :: start ++ ['.', '.'] ++ stop ++ [')'] ++ rest =
      ['('] ++ (start ++ ('.' :: '.' :: (stop ++ (')' :: rest)))) := by simp
  obtain ⟨htrim, hblanks⟩ := hstart.trimStart ('.' :: '.' :: (stop ++ (')' :: rest)))
  obtain ⟨htrim', hblanks'⟩ := hstop.trimStart (')' :: rest)
  have hdots : Text.trimStart ('.' :: '.' :: (stop ++ (')' :: rest))) =
      ['.', '.'] ++ (stop ++ (')' :: rest)) := rfl
  have hclose : Text.trimStart (')' :: rest) = [')'] ++ rest := rfl
  have hnone : blanks ('.' :: '.' :: (stop ++ (')' :: rest))) = [] := rfl
  have hnone' : blanks (')' :: rest) = [] := rfl
  rw [htext]
  simp only [range?, bind, pure, after?_append, Option.bind_some, htrim,
    bound?_append hstart (endsBound_dots _), hdots, htrim', bound?_append hstop (endsBound_close _),
    hclose, hblanks, hblanks', hnone, hnone', List.append_nil]
  rfl

end Literal

/-! ### Lexemes -/

namespace Lexeme

variable {previous : Option TokenType} {opened : List Bracket} {line : Nat} {rest : List Char}

/-- What no literal begins with. -/
structure Bare (c : Char) : Prop where
  digit : isDecimalDigit c = false
  name : isNameStart c = false
  quote : c ≠ '\'' ∧ c ≠ '"'

theorem grouped?_of_head {c : Char} (hc : isDecimalDigit c = false) (cs : List Char) :
    Literal.grouped? (c :: cs) = none := by
  rw [Literal.grouped?, if_neg (by simp [hc])]

theorem float?_of_head {c : Char} (hc : isDecimalDigit c = false) (cs : List Char) :
    float? previous (c :: cs) = none :=
  float?_eq_none (by rw [Literal.float?, grouped?_of_head hc, Option.bind_none])

theorem literal?_of_bare {c : Char} (h : Bare c) {cs : List Char}
    (hrange : Literal.range? (c :: cs) = none) : literal? previous (c :: cs) = none := by
  have hname : Literal.name? (c :: cs) = none := by
    rw [Literal.name?, if_neg (by simp [h.name])]
  have hquoted : Literal.quoted? (c :: cs) = none := by
    rw [Literal.quoted?, if_neg (by simp [h.quote])]
  rw [literal?, hrange, float?_of_head h.digit, grouped?_of_head h.digit, hname, hquoted]
  rfl

/-- A range literal begins with a parenthesis. -/
theorem range?_of_head {c : Char} (hc : c ≠ '(') (cs : List Char) :
    Literal.range? (c :: cs) = none := by
  simp [Literal.range?, after?, Ne.symm hc]

theorem literal?_name {cs : List Char} (h : Literal.IsName cs) (hrest : Gap rest)
    (hprevious : previous ≠ some (.mark .blockBegin)) :
    literal? previous (cs ++ rest) = some (.ok ⟨.name (String.ofList cs), cs, rest⟩) := by
  have hname := Literal.name?_append h hrest
  obtain ⟨⟨c, hhead, hc⟩, -⟩ := h
  obtain ⟨more, rfl⟩ := List.head?_eq_some_iff.1 hhead
  have hparen : c ≠ '(' := by
    rintro rfl
    exact absurd hc (by decide)
  have hdigit := isDecimalDigit_of_isNameStart hc
  have hkind : nameKind previous (c :: more) = .name (String.ofList (c :: more)) := by
    rw [nameKind, if_neg fun hboth => hprevious hboth.1]
  rw [literal?, hname, List.cons_append, range?_of_head hparen, float?_of_head hdigit,
    grouped?_of_head hdigit]
  dsimp only
  rw [hkind]

theorem digits_natText (n : Nat) : ∀ c ∈ Number.natText n, isAsciiDigit c = true := by
  intro c hc
  have hdigit : c.isDigit = true := Nat.isDigit_of_mem_toDigits (by decide) (by decide) hc
  exact hdigit

theorem readSign_natText (n : Nat) :
    Number.readSign (Number.natText n) = (false, Number.natText n) := by
  have hdigits := digits_natText n
  have hne : Number.natText n ≠ [] := Nat.toDigits_ne_nil
  generalize Number.natText n = cs at hdigits hne
  obtain ⟨c, more, rfl⟩ := List.exists_cons_of_ne_nil hne
  exact readSign_of_digit (isDecimalDigit_of_isAsciiDigit (hdigits c List.mem_cons_self)) more

/-- **A numeral is read** as its number. -/
theorem readDigits?_natText (n : Nat) : Number.readDigits? (Number.natText n) = some n := by
  have hempty : (Number.natText n).isEmpty = false := List.isEmpty_eq_false_iff.2 Nat.toDigits_ne_nil
  have hall : (Number.natText n).all isAsciiDigit = true := List.all_eq_true.2 (digits_natText n)
  have hvalue : Number.digitsValue (Number.natText n) = n := Nat.ofDigitChars_ten_toDigits
  rw [Number.readDigits?, hempty, hall, hvalue]
  rfl

/-- **The value of a printed integer.** -/
theorem readWord?_natText {value : Int64} (h : 0 ≤ value.toInt) :
    Number.readWord? (ungrouped (Number.natText value.toInt.toNat)) = some value := by
  have hplain : ungrouped (Number.natText value.toInt.toNat) = Number.natText value.toInt.toNat := by
    refine List.filter_eq_self.2 fun c hc => ?_
    have hscore : c ≠ '_' := by
      rintro rfl
      exact absurd (digits_natText _ '_' hc) (by decide)
    simpa using hscore
  have hword : Number.word? (value.toInt.toNat : Int) = some value := by
    rw [Int.toNat_of_nonneg h]
    exact Number.word?_toInt value
  rw [hplain, Number.readWord?, readSign_natText]
  dsimp only
  rw [readDigits?_natText]
  exact hword

theorem literal?_integer {value : Int64} (h : 0 ≤ value.toInt) (hrest : Gap rest) :
    literal? previous (Number.natText value.toInt.toNat ++ rest) =
      some (.ok ⟨.integer value, Number.natText value.toInt.toNat, rest⟩) := by
  have hdigits := digits_natText value.toInt.toNat
  have hne : Number.natText value.toInt.toNat ≠ [] := Nat.toDigits_ne_nil
  have hvalue := readWord?_natText h
  generalize Number.natText value.toInt.toNat = cs at hdigits hne hvalue
  have hrange : Literal.range? (cs ++ rest) = none := by
    obtain ⟨c, more, rfl⟩ := List.exists_cons_of_ne_nil hne
    refine range?_of_head ?_ _
    rintro rfl
    exact absurd (hdigits '(' List.mem_cons_self) (by decide)
  rw [literal?, hrange, float?_eq_none (Literal.float?_append hne hdigits hrest),
    Literal.grouped?_append hne hdigits hrest]
  dsimp only
  rw [hvalue]

theorem literal?_string {quote : Char} (hquote : quote = '\'' ∨ quote = '"') (text : String)
    (rest : List Char) :
    literal? previous (quote :: Literal.escape quote text.toList ++ [quote] ++ rest) =
      some (.ok ⟨.string text, quote :: Literal.escape quote text.toList ++ [quote], rest⟩) := by
  have hslash : quote ≠ '\\' := by rcases hquote with rfl | rfl <;> decide
  have hdigit : isDecimalDigit quote = false := by rcases hquote with rfl | rfl <;> rfl
  have hparen : quote ≠ '(' := by rcases hquote with rfl | rfl <;> decide
  have hname (cs : List Char) : Literal.name? (quote :: cs) = none := by
    rcases hquote with rfl | rfl <;> rfl
  have hbody := Literal.stringBody?_escape hslash text.toList rest
  have htext : quote :: Literal.escape quote text.toList ++ [quote] ++ rest =
      quote :: (Literal.escape quote text.toList ++ quote :: rest) := by simp
  rw [htext, literal?, range?_of_head hparen, float?_of_head hdigit, grouped?_of_head hdigit, hname]
  dsimp only
  rw [Literal.quoted?, if_pos hquote, hbody, Option.map_some, Option.map_some,
    Literal.unescape_escape hquote, String.ofList_toList]

theorem literal?_range {start stop : List Char} (hstart : Literal.IsBound start)
    (hstop : Literal.IsBound stop) (rest : List Char) :
    literal? previous ('(' :: start ++ ['.', '.'] ++ stop ++ [')'] ++ rest) =
      some (.ok ⟨.range (String.ofList start) (String.ofList stop),
        '(' :: start ++ ['.', '.'] ++ stop ++ [')'], rest⟩) := by
  rw [literal?, Literal.range?_append hstart hstop]

/-- An operator begins with no literal and no bracket. -/
theorem head_of_operator {s : Symbol} (hs : s ∈ operators) : ∃ c more,
    s.spelling.toList = c :: more ∧ Bare c ∧ openingBracket? c = none ∧ closingBracket? c = none := by
  fin_cases hs
  all_goals exact ⟨_, _, rfl, ⟨by decide, by decide, by decide⟩, by decide, by decide⟩

theorem operator?_append {s : Symbol} (hs : s ∈ operators) (hrest : Gap rest) :
    operator? (s.spelling.toList ++ rest) = some (s, rest) := by
  cases rest with
  | nil => fin_cases hs <;> rfl
  | cons c rest =>
    obtain rfl := hrest c rfl
    fin_cases hs <;> rfl

/-- **A printed operator** is taken as a whole. -/
theorem scan_operator {s : Symbol} (hs : s ∈ operators) (hrest : Gap rest) :
    scan previous opened line (s.spelling.toList ++ rest) =
      .ok (⟨.symbol s, s.spelling.toList, rest⟩, opened) := by
  have hoperator := operator?_append hs hrest
  obtain ⟨c, more, hspelling, hbare, hopening, hclosing⟩ := head_of_operator hs
  have hparen : c ≠ '(' := by
    rintro rfl
    cases hopening
  rw [hspelling, List.cons_append] at hoperator ⊢
  rw [scan, literal?_of_bare hbare (range?_of_head hparen _)]
  dsimp only
  rw [symbol, hopening, hclosing]
  dsimp only
  rw [hoperator]
  dsimp only
  rw [hspelling]

theorem eq_of_openingBracket {c : Char} {s : Symbol} (h : openingBracket? c = some s) :
    c = '(' ∨ c = '[' ∨ c = '\x7b' := by
  unfold openingBracket? at h
  split at h
  · exact .inl ‹_›
  · split at h
    · exact .inr (.inl ‹_›)
    · split at h
      · exact .inr (.inr ‹_›)
      · cases h

theorem eq_of_closingBracket {c : Char} {s : Symbol} (h : closingBracket? c = some s) :
    c = ')' ∨ c = ']' ∨ c = '\x7d' := by
  unfold closingBracket? at h
  split at h
  · exact .inl ‹_›
  · split at h
    · exact .inr (.inl ‹_›)
    · split at h
      · exact .inr (.inr ‹_›)
      · cases h

/-- **An opening bracket** is taken where no range literal begins with it. -/
theorem scan_opening {s : Symbol} {c : Char} (hc : openingBracket? c = some s)
    (hrange : Literal.range? (c :: rest) = none) :
    scan previous opened line (c :: rest) = .ok (⟨.symbol s, [c], rest⟩, ⟨c, line⟩ :: opened) := by
  have hbare : Bare c := by
    rcases eq_of_openingBracket hc with rfl | rfl | rfl <;> exact ⟨by decide, by decide, by decide⟩
  rw [scan, literal?_of_bare hbare hrange]
  dsimp only
  rw [symbol, hc]

/-- **A closing bracket** is taken where it fits the innermost open one. -/
theorem scan_closing {s : Symbol} {b : Bracket} (hs : closingBracket? b.closer = some s)
    (rest : List Char) :
    scan previous (b :: opened) line (b.closer :: rest) =
      .ok (⟨.symbol s, [b.closer], rest⟩, opened) := by
  have hplain : Bare b.closer ∧ b.closer ≠ '(' ∧ openingBracket? b.closer = none := by
    rcases eq_of_closingBracket hs with hc | hc | hc <;> rw [hc] <;>
      exact ⟨⟨by decide, by decide, by decide⟩, by decide, by decide⟩
  obtain ⟨hbare, hparen, hopening⟩ := hplain
  rw [scan, literal?_of_bare hbare (range?_of_head hparen rest)]
  dsimp only
  rw [symbol, hopening, hs]
  exact if_pos rfl

end Lexeme

end LiquidTemplate
