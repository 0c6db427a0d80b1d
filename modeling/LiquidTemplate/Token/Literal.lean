import LiquidTemplate.Text.Blank
import LiquidTemplate.Text.Property

/-!
# Literals at the beginning of a text

Each recogniser takes the longest literal of its form from the front of a text and gives its
characters together with the rest.

* `grouped?`: digits, possibly in groups that underscores separate.
* `float?`, `name?`: numbers with a fraction or an exponent; names.
* `quoted?`: a string between quotes, with backslashes before characters that do not end it.
* `range?`: two bounds between parentheses and dots.
* `unescape`: the text that the inside of a string literal stands for.
* `grouped?_eq`, `float?_eq`, `name?_eq`, `quoted?_eq`, `range?_eq`: nothing is lost, and the
  literal is not empty.
-/

namespace LiquidTemplate.Literal

open Text

/-- The longest beginning of characters that satisfy `p`, in groups between single separators. It
follows a character that satisfies `p`. -/
def groups (separator : Char) (p : Char → Bool) : List Char → List Char × List Char
  | [] => ([], [])
  | c :: cs =>
    if p c then
      let (taken, rest) := groups separator p cs
      (c :: taken, rest)
    else
      match cs with
      | d :: ds =>
        if c = separator ∧ p d then
          let (taken, rest) := groups separator p ds
          (c :: d :: taken, rest)
        else ([], c :: d :: ds)
      | [] => ([], [c])

theorem groups_eq (separator : Char) (p : Char → Bool) (cs : List Char) :
    (groups separator p cs).1 ++ (groups separator p cs).2 = cs := by
  fun_induction groups separator p cs <;> simp_all

/-- **Digits in groups**: `1_000`. -/
def grouped? : List Char → Option (List Char × List Char)
  | [] => none
  | c :: cs =>
    if isDecimalDigit c then
      let (taken, rest) := groups '_' isDecimalDigit cs
      some (c :: taken, rest)
    else none

theorem grouped?_eq {cs taken rest : List Char} (h : grouped? cs = some (taken, rest)) :
    cs = taken ++ rest ∧ taken ≠ [] := by
  unfold grouped? at h
  split at h
  · simp at h
  · next c cs =>
    split at h
    · obtain ⟨rfl, rfl⟩ := by simpa using h
      simp [groups_eq]
    · simp at h

/-- Digits without groups. -/
def digits? (cs : List Char) : Option (List Char × List Char) :=
  let taken := cs.takeWhile isDecimalDigit
  if taken.isEmpty then none else some (taken, cs.dropWhile isDecimalDigit)

theorem digits?_eq {cs taken rest : List Char} (h : digits? cs = some (taken, rest)) :
    cs = taken ++ rest ∧ taken ≠ [] := by
  simp only [digits?] at h
  split at h
  · simp at h
  · next hne =>
    obtain ⟨rfl, rfl⟩ := by simpa using h
    exact ⟨List.takeWhile_append_dropWhile.symm, by simpa using hne⟩

/-- A fraction: a point and digits in groups. -/
def fraction? : List Char → Option (List Char × List Char)
  | '.' :: cs => (grouped? cs).map fun (taken, rest) => ('.' :: taken, rest)
  | _ => none

theorem fraction?_eq {cs taken rest : List Char} (h : fraction? cs = some (taken, rest)) :
    cs = taken ++ rest := by
  unfold fraction? at h
  split at h
  · obtain ⟨⟨t, r⟩, ht, hr⟩ := Option.map_eq_some_iff.1 h
    obtain ⟨rfl, rfl⟩ := by simpa using hr
    simp [(grouped?_eq ht).1]
  · simp at h

/-- A sign at the beginning. -/
def sign : List Char → List Char × List Char
  | '+' :: cs => (['+'], cs)
  | '-' :: cs => (['-'], cs)
  | cs => ([], cs)

theorem sign_eq (cs : List Char) : (sign cs).1 ++ (sign cs).2 = cs := by
  unfold sign
  split <;> rfl

/-- An exponent: a mark, an optional sign and digits. -/
def exponent? : List Char → Option (List Char × List Char)
  | [] => none
  | c :: cs =>
    if c = 'e' ∨ c = 'E' then
      (digits? (sign cs).2).map fun (taken, rest) => (c :: (sign cs).1 ++ taken, rest)
    else none

theorem exponent?_eq {cs taken rest : List Char} (h : exponent? cs = some (taken, rest)) :
    cs = taken ++ rest := by
  unfold exponent? at h
  split at h
  · simp at h
  · next c cs =>
    split at h
    · obtain ⟨⟨t, r⟩, ht, hr⟩ := Option.map_eq_some_iff.1 h
      obtain ⟨rfl, rfl⟩ := by simpa using hr
      have := sign_eq cs
      rw [(digits?_eq ht).1] at this
      simpa using this.symm
    · simp at h

/-- An exponent if there is one. -/
def optionalExponent (cs : List Char) : List Char × List Char :=
  (exponent? cs).getD ([], cs)

theorem optionalExponent_eq (cs : List Char) :
    (optionalExponent cs).1 ++ (optionalExponent cs).2 = cs := by
  unfold optionalExponent
  cases h : exponent? cs with
  | none => rfl
  | some p => exact (exponent?_eq h).symm

/-- **Number with a fraction or an exponent**: `2.5`, `1_000.0e-3`, `1e9`. -/
def float? (cs : List Char) : Option (List Char × List Char) :=
  (grouped? cs).bind fun (whole, rest) =>
    match fraction? rest with
    | some (fraction, rest) =>
      some (whole ++ fraction ++ (optionalExponent rest).1, (optionalExponent rest).2)
    | none => (exponent? rest).map fun (exponent, rest) => (whole ++ exponent, rest)

theorem float?_eq {cs taken rest : List Char} (h : float? cs = some (taken, rest)) :
    cs = taken ++ rest ∧ taken ≠ [] := by
  unfold float? at h
  obtain ⟨⟨whole, r⟩, hw, hm⟩ := Option.bind_eq_some_iff.1 h
  obtain ⟨rfl, hne⟩ := grouped?_eq hw
  clear h
  dsimp only at hm
  split at hm
  · next f r' hf =>
    obtain ⟨rfl, rfl⟩ := by simpa using hm
    rw [fraction?_eq hf]
    have he := optionalExponent_eq r'
    refine ⟨?_, by simp [hne]⟩
    simp [he]
  · have h := hm
    obtain ⟨⟨e, r'⟩, he, hr⟩ := Option.map_eq_some_iff.1 h
    obtain ⟨rfl, rfl⟩ := by simpa using hr
    rw [exponent?_eq he]
    simp [hne]

/-- **Name**: ASCII letters, digits and underscores, not beginning with a digit. -/
def name? : List Char → Option (List Char × List Char)
  | [] => none
  | c :: cs =>
    if isNameStart c then some (c :: cs.takeWhile isNameChar, cs.dropWhile isNameChar) else none

theorem name?_eq {cs taken rest : List Char} (h : name? cs = some (taken, rest)) :
    cs = taken ++ rest ∧ taken ≠ [] := by
  unfold name? at h
  split at h
  · simp at h
  · split at h
    · obtain ⟨rfl, rfl⟩ := by simpa using h
      simp
    · simp at h

/-- The inside of a string up to the closing quote, and what follows the quote. -/
def stringBody? (quote : Char) : List Char → Option (List Char × List Char)
  | [] => none
  | c :: cs =>
    if c = quote then some ([], cs)
    else if c = '\\' then
      match cs with
      | [] => none
      | d :: ds => (stringBody? quote ds).map fun (body, rest) => (c :: d :: body, rest)
    else (stringBody? quote cs).map fun (body, rest) => (c :: body, rest)

theorem stringBody?_eq {quote : Char} {cs body rest : List Char}
    (h : stringBody? quote cs = some (body, rest)) : cs = body ++ quote :: rest := by
  fun_induction stringBody? quote cs generalizing body rest with
  | case1 => simp at h
  | case2 cs =>
    obtain ⟨rfl, rfl⟩ := by simpa using h
    rfl
  | case3 => simp at h
  | case4 d ds hc ih =>
    obtain ⟨⟨b, r⟩, hb, hr⟩ := Option.map_eq_some_iff.1 h
    obtain ⟨rfl, rfl⟩ := by simpa using hr
    simp [ih hb]
  | case5 c cs hc hd ih =>
    obtain ⟨⟨b, r⟩, hb, hr⟩ := Option.map_eq_some_iff.1 h
    obtain ⟨rfl, rfl⟩ := by simpa using hr
    simp [ih hb]

/-- **String between quotes**: the quote, the inside and the rest. -/
def quoted? : List Char → Option (Char × List Char × List Char)
  | [] => none
  | c :: cs =>
    if c = '\'' ∨ c = '"' then (stringBody? c cs).map fun (body, rest) => (c, body, rest) else none

theorem quoted?_eq {cs body rest : List Char} {quote : Char}
    (h : quoted? cs = some (quote, body, rest)) : cs = quote :: body ++ quote :: rest := by
  unfold quoted? at h
  split at h
  · simp at h
  · split at h
    · obtain ⟨⟨b, r⟩, hb, hr⟩ := Option.map_eq_some_iff.1 h
      obtain ⟨rfl, rfl, rfl⟩ := by simpa using hr
      simp [stringBody?_eq hb]
    · simp at h

/-- **Unescaped text.** The escapes of control characters, quotes and backslashes are resolved; any
other backslash stays. -/
def unescape : List Char → List Char
  | [] => []
  | [c] => [c]
  | c :: d :: cs =>
    if c = '\\' then
      if d = 'n' then '\n' :: unescape cs
      else if d = 't' then '\t' :: unescape cs
      else if d = 'r' then '\r' :: unescape cs
      else if d = '0' then '\x00' :: unescape cs
      else if d = '\\' ∨ d = '\'' ∨ d = '"' then d :: unescape cs
      else c :: d :: unescape cs
    else c :: unescape (d :: cs)

/-- A bound of a range that is a number: an optional minus and digits. -/
def numberBound? : List Char → Option (List Char × List Char)
  | [] => none
  | c :: cs =>
    if c = '-' then (digits? cs).map fun (taken, rest) => (c :: taken, rest) else digits? (c :: cs)

theorem numberBound?_eq {cs taken rest : List Char} (h : numberBound? cs = some (taken, rest)) :
    cs = taken ++ rest := by
  unfold numberBound? at h
  split at h
  · simp at h
  · split at h
    · obtain ⟨⟨t, r⟩, ht, hr⟩ := Option.map_eq_some_iff.1 h
      obtain ⟨rfl, rfl⟩ := by simpa using hr
      simp [(digits?_eq ht).1]
    · exact (digits?_eq h).1

/-- A bound of a range that is a path of names. -/
def pathBound? : List Char → Option (List Char × List Char)
  | [] => none
  | c :: cs =>
    if isNameStart c then
      let (taken, rest) := groups '.' isWordChar cs
      some (c :: taken, rest)
    else none

theorem pathBound?_eq {cs taken rest : List Char} (h : pathBound? cs = some (taken, rest)) :
    cs = taken ++ rest := by
  unfold pathBound? at h
  split at h
  · simp at h
  · split at h
    · obtain ⟨rfl, rfl⟩ := by simpa using h
      simp [groups_eq]
    · simp at h

/-- A bound of a range. -/
def bound? (cs : List Char) : Option (List Char × List Char) :=
  numberBound? cs <|> pathBound? cs

theorem bound?_eq {cs taken rest : List Char} (h : bound? cs = some (taken, rest)) :
    cs = taken ++ rest := by
  unfold bound? at h
  cases hn : numberBound? cs with
  | none => exact pathBound?_eq (by simpa [hn] using h)
  | some p => exact numberBound?_eq (by simpa [hn] using h)

/-- **A range literal** taken apart. -/
structure Range where
  start : List Char
  stop : List Char
  /-- All characters of the literal. -/
  lexeme : List Char
  rest : List Char

/-- The blanks at the beginning. -/
def blanks (cs : List Char) : List Char :=
  cs.takeWhile isBlank

/-- **Range literal**: `(1..n.size)`, with blanks around the bounds. -/
def range? (cs : List Char) : Option Range := do
  let afterOpen ← after? ['('] cs
  let (start, afterStart) ← bound? (trimStart afterOpen)
  let afterDots ← after? ['.', '.'] (trimStart afterStart)
  let (stop, afterStop) ← bound? (trimStart afterDots)
  let rest ← after? [')'] (trimStart afterStop)
  let lexeme := '(' :: blanks afterOpen ++ start ++ blanks afterStart ++ ['.', '.'] ++
    blanks afterDots ++ stop ++ blanks afterStop ++ [')']
  pure ⟨start, stop, lexeme, rest⟩

theorem range?_eq {cs : List Char} {r : Range} (h : range? cs = some r) :
    cs = r.lexeme ++ r.rest ∧ r.lexeme ≠ [] := by
  simp only [range?, bind, Option.bind_eq_some_iff, Prod.exists, pure, Option.some.injEq] at h
  obtain ⟨a, ha, start, b, hb, c, hc, stop, d, hd, rest, hr, rfl⟩ := h
  have key : ∀ ds : List Char, blanks ds ++ trimStart ds = ds := trimStart_eq
  have e₁ := after?_eq_some_iff.1 ha
  have e₂ := bound?_eq hb
  have e₃ := after?_eq_some_iff.1 hc
  have e₄ := bound?_eq hd
  have e₅ := after?_eq_some_iff.1 hr
  have k₁ := key a
  have k₂ := key b
  have k₃ := key c
  have k₄ := key d
  rw [e₂] at k₁
  rw [e₃] at k₂
  rw [e₄] at k₃
  rw [e₅] at k₄
  refine ⟨?_, by simp⟩
  rw [← k₄] at k₃
  rw [← k₃] at k₂
  rw [← k₂] at k₁
  simp only [List.cons_append, List.nil_append] at k₁
  simp only [e₁, List.cons_append, List.append_assoc, List.nil_append, k₁]

end LiquidTemplate.Literal
