import LiquidTemplate.Token.Lexeme

/-!
# Lexemes before the end of a tag

A blank and a closing delimiter behind a text change no lexeme of it: each recogniser takes the same
characters, and leaves what stands behind them.

* `tagEnd`: a blank and the delimiter that closes a print tag.
* `Literal.range?_tagEnd` and its like: the recognisers.
* `Lexeme.scan_tagEnd`: any lexeme.
-/

namespace LiquidTemplate

open Text

/-- **The end of a print tag** behind a blank. -/
def tagEnd : List Char :=
  [' ', '\x7d', '\x7d']

/-- A result whose rest has **the end of a tag behind it**. -/
def extended {α : Type} : α × List Char → α × List Char
  | (x, rest) => (x, rest ++ tagEnd)

variable {p : Char → Bool} {cs : List Char}

theorem takeWhile_tagEnd (hp : p ' ' = false) : (cs ++ tagEnd).takeWhile p = cs.takeWhile p := by
  induction cs with
  | nil => simp [tagEnd, hp]
  | cons c cs ih => simp [List.takeWhile_cons, ih]

theorem dropWhile_tagEnd (hp : p ' ' = false) :
    (cs ++ tagEnd).dropWhile p = cs.dropWhile p ++ tagEnd := by
  induction cs with
  | nil => simp [tagEnd, hp]
  | cons c cs ih =>
    simp only [List.cons_append, List.dropWhile_cons, ih]
    split <;> rfl

/-- A beginning without blanks does not reach into the end of the tag. -/
theorem after?_tagEnd (start : List Char) (h : ' ' ∉ start) :
    after? start (cs ++ tagEnd) = (after? start cs).map (· ++ tagEnd) := by
  induction start generalizing cs with
  | nil => rfl
  | cons s start ih =>
    obtain ⟨hs, hstart⟩ := not_or.1 (mt List.mem_cons.2 h)
    cases cs with
    | nil => simp [after?, tagEnd, Ne.symm hs]
    | cons c cs =>
      simp only [List.cons_append, after?, ih hstart]
      split <;> rfl

namespace Literal

/-! ### Numbers and names -/

theorem groups_tagEnd {separator : Char} (hs : ' ' ≠ separator) (hp : p ' ' = false) :
    groups separator p (cs ++ tagEnd) = extended (groups separator p cs) := by
  fun_induction groups separator p cs
  case case1 => simp [groups, tagEnd, extended, hp, hs]
  case case2 c cs hc taken rest htaken ih =>
    rw [List.cons_append, groups.eq_def]
    dsimp only
    rw [if_pos hc, ih, htaken]
    rfl
  case case3 c hc d ds hd taken rest htaken ih =>
    rw [List.cons_append, List.cons_append, groups.eq_def]
    dsimp only
    rw [if_neg hc, if_pos hd, ih, htaken]
    rfl
  case case4 c hc d ds hd =>
    rw [List.cons_append, List.cons_append, groups.eq_def]
    dsimp only
    rw [if_neg hc, if_neg hd]
    rfl
  case case5 c hc =>
    rw [List.cons_append, groups.eq_def]
    simp [hc, tagEnd, hp, extended]

theorem grouped?_tagEnd : grouped? (cs ++ tagEnd) = (grouped? cs).map extended := by
  cases cs with
  | nil => rfl
  | cons c cs =>
    have hgroups : groups '_' isDecimalDigit (cs ++ tagEnd) =
      extended (groups '_' isDecimalDigit cs) := groups_tagEnd (by decide) rfl
    rw [List.cons_append, grouped?, grouped?, hgroups]
    split <;> rfl

theorem digits?_tagEnd : digits? (cs ++ tagEnd) = (digits? cs).map extended := by
  have hblank : isDecimalDigit ' ' = false := rfl
  simp only [digits?, takeWhile_tagEnd hblank, dropWhile_tagEnd hblank]
  split <;> rfl

theorem fraction?_tagEnd : fraction? (cs ++ tagEnd) = (fraction? cs).map extended := by
  fun_cases fraction? cs
  case case1 cs =>
    rw [List.cons_append, fraction?, grouped?_tagEnd]
    cases grouped? cs <;> rfl
  case case2 hpoint =>
    cases cs with
    | nil => rfl
    | cons c cs =>
      rw [List.cons_append, fraction?]
      · rfl
      · rintro _ ⟨rfl, -⟩
        exact hpoint cs rfl

theorem sign_tagEnd : sign (cs ++ tagEnd) = extended (sign cs) := by
  fun_cases sign cs
  case case1 => rfl
  case case2 => rfl
  case case3 hplus hminus =>
    cases cs with
    | nil => rfl
    | cons c cs =>
      rw [List.cons_append, sign]
      · rfl
      · rintro _ ⟨rfl, -⟩
        exact hplus cs rfl
      · rintro _ ⟨rfl, -⟩
        exact hminus cs rfl

theorem exponent?_tagEnd : exponent? (cs ++ tagEnd) = (exponent? cs).map extended := by
  cases cs with
  | nil => rfl
  | cons c cs =>
    rw [List.cons_append, exponent?, exponent?, sign_tagEnd]
    split
    · have hdigits : digits? (extended (sign cs)).2 = (digits? (sign cs).2).map extended :=
        digits?_tagEnd
      rw [hdigits]
      cases digits? (sign cs).2 <;> rfl
    · rfl

theorem optionalExponent_tagEnd :
    optionalExponent (cs ++ tagEnd) = extended (optionalExponent cs) := by
  rw [optionalExponent, optionalExponent, exponent?_tagEnd]
  cases exponent? cs <;> rfl

theorem float?_tagEnd : float? (cs ++ tagEnd) = (float? cs).map extended := by
  rw [float?, float?, grouped?_tagEnd]
  cases grouped? cs with
  | none => rfl
  | some found =>
    obtain ⟨whole, rest⟩ := found
    simp only [Option.map_some, Option.bind_some, extended, fraction?_tagEnd]
    cases fraction? rest with
    | none =>
      simp only [Option.map_none, exponent?_tagEnd]
      cases exponent? rest <;> rfl
    | some found =>
      simp only [Option.map_some, extended, optionalExponent_tagEnd]

theorem name?_tagEnd : name? (cs ++ tagEnd) = (name? cs).map extended := by
  cases cs with
  | nil => rfl
  | cons c cs =>
    have hblank : isNameChar ' ' = false := rfl
    rw [List.cons_append, name?, name?, takeWhile_tagEnd hblank, dropWhile_tagEnd hblank]
    split <;> rfl

/-! ### Strings -/

theorem stringBody?_tagEnd {quote : Char} (hquote : quote ∉ tagEnd) :
    stringBody? quote (cs ++ tagEnd) = (stringBody? quote cs).map extended := by
  simp only [tagEnd, List.mem_cons, List.not_mem_nil, or_false, not_or] at hquote
  obtain ⟨hblank, hbrace, -⟩ := hquote
  have hbraces : stringBody? quote ['\x7d', '\x7d'] = none := by
    simp [stringBody?, Ne.symm hbrace]
  fun_induction stringBody? quote cs
  case case1 => simp [tagEnd, stringBody?, Ne.symm hblank, Ne.symm hbrace]
  case case2 cs =>
    rw [List.cons_append, stringBody?.eq_def]
    simp [extended]
  case case3 hc =>
    rw [List.cons_append, stringBody?.eq_def]
    simp only [hc, ↓reduceIte, List.nil_append, tagEnd, hbraces]
    rfl
  case case4 d ds hc ih =>
    rw [List.cons_append, List.cons_append, stringBody?.eq_def]
    simp only [hc, ↓reduceIte, ih]
    cases stringBody? quote ds <;> rfl
  case case5 c cs hc hd ih =>
    rw [List.cons_append, stringBody?.eq_def]
    simp only [hc, hd, ↓reduceIte, ih]
    cases stringBody? quote cs <;> rfl

theorem quoted?_tagEnd : quoted? (cs ++ tagEnd) =
    (quoted? cs).map fun (quote, body, rest) => (quote, body, rest ++ tagEnd) := by
  cases cs with
  | nil => rfl
  | cons c cs =>
    rw [List.cons_append, quoted?, quoted?]
    split
    · next hc =>
      have hquote : c ∉ tagEnd := by
        rcases hc with rfl | rfl <;> decide
      rw [stringBody?_tagEnd hquote]
      cases stringBody? c cs <;> rfl
    · rfl

/-! ### Range literals -/

theorem numberBound?_tagEnd : numberBound? (cs ++ tagEnd) = (numberBound? cs).map extended := by
  cases cs with
  | nil => rfl
  | cons c cs =>
    rw [List.cons_append, numberBound?, numberBound?, digits?_tagEnd, ← List.cons_append,
      digits?_tagEnd]
    split
    · cases digits? cs <;> rfl
    · rfl

theorem pathBound?_tagEnd : pathBound? (cs ++ tagEnd) = (pathBound? cs).map extended := by
  cases cs with
  | nil => rfl
  | cons c cs =>
    have hgroups : groups '.' isWordChar (cs ++ tagEnd) = extended (groups '.' isWordChar cs) :=
      groups_tagEnd (by decide) (by decide +kernel)
    rw [List.cons_append, pathBound?, pathBound?, hgroups]
    split <;> rfl

theorem bound?_tagEnd : bound? (cs ++ tagEnd) = (bound? cs).map extended := by
  rw [bound?, bound?, numberBound?_tagEnd, pathBound?_tagEnd]
  cases numberBound? cs <;> rfl

/-- Behind the last blanks of a text there is the closing delimiter. -/
theorem trimStart_tagEnd (h : trimStart cs = []) : trimStart (cs ++ tagEnd) = ['\x7d', '\x7d'] := by
  induction cs with
  | nil => rfl
  | cons c cs ih =>
    unfold trimStart at ih h ⊢
    rw [List.cons_append, List.dropWhile_cons] at *
    split at h
    · next hc =>
      rw [if_pos hc]
      exact ih h
    · nomatch h

/-- The blanks before something else are the same. -/
theorem blanks_tagEnd (h : trimStart cs ≠ []) : trimStart (cs ++ tagEnd) = trimStart cs ++ tagEnd ∧
    blanks (cs ++ tagEnd) = blanks cs := by
  induction cs with
  | nil => exact absurd rfl h
  | cons c cs ih =>
    unfold trimStart blanks at *
    rw [List.cons_append, List.dropWhile_cons, List.takeWhile_cons, List.takeWhile_cons]
    rw [List.dropWhile_cons] at h ⊢
    split at h
    · next hc =>
      obtain ⟨hrest, hblanks⟩ := ih h
      simp [hc, hrest, hblanks]
    · next hc => simp [hc]

/-- A recogniser that takes nothing of the closing delimiter takes the same behind blanks, and the
blanks are the same. -/
theorem behindBlanks_tagEnd {α : Type} {f : List Char → Option α} {g : α → α}
    (hf : ∀ cs, f (cs ++ tagEnd) = (f cs).map g) (hnil : f [] = none)
    (hbraces : f ['\x7d', '\x7d'] = none) (cs : List Char) :
    f (trimStart (cs ++ tagEnd)) = (f (trimStart cs)).map g ∧
      ((f (trimStart cs)).isSome → blanks (cs ++ tagEnd) = blanks cs) := by
  by_cases h : trimStart cs = []
  · rw [h, trimStart_tagEnd h, hnil, hbraces]
    exact ⟨rfl, nofun⟩
  · obtain ⟨hrest, hblanks⟩ := blanks_tagEnd h
    rw [hrest, hf]
    exact ⟨rfl, fun _ => hblanks⟩

/-- A range literal with the end of a tag behind it. -/
def Range.extended (r : Range) : Range :=
  { r with rest := r.rest ++ tagEnd }

theorem range?_tagEnd : range? (cs ++ tagEnd) = (range? cs).map Range.extended := by
  have hbound := behindBlanks_tagEnd (fun _ => bound?_tagEnd) rfl rfl
  have hdots := behindBlanks_tagEnd (fun _ => after?_tagEnd ['.', '.'] (by decide)) rfl rfl
  have hclose := behindBlanks_tagEnd (fun _ => after?_tagEnd [')'] (by decide)) rfl rfl
  simp only [range?, bind, pure, after?_tagEnd ['('] (by decide)]
  cases after? ['('] cs with
  | none => rfl
  | some a =>
    simp only [Option.map_some, Option.bind_some, (hbound a).1]
    cases ha : bound? (trimStart a) with
    | none => rfl
    | some found =>
      obtain ⟨start, b⟩ := found
      simp only [Option.map_some, Option.bind_some, LiquidTemplate.extended, (hdots b).1,
        (hbound a).2 (by rw [ha]; rfl)]
      cases hb : after? ['.', '.'] (trimStart b) with
      | none => rfl
      | some c =>
        simp only [Option.map_some, Option.bind_some, (hbound c).1, (hdots b).2 (by rw [hb]; rfl)]
        cases hc : bound? (trimStart c) with
        | none => rfl
        | some found =>
          obtain ⟨stop, d⟩ := found
          simp only [Option.map_some, Option.bind_some, LiquidTemplate.extended, (hclose d).1,
            (hbound c).2 (by rw [hc]; rfl)]
          cases hd : after? [')'] (trimStart d) with
          | none => rfl
          | some rest =>
            simp only [Option.map_some, Option.bind_some, (hclose d).2 (by rw [hd]; rfl)]
            rfl

end Literal

namespace Lexeme

variable {previous : Option TokenType}

/-- A lexeme with the end of a tag behind it. -/
def extended (l : Lexeme) : Lexeme :=
  { l with rest := l.rest ++ tagEnd }

theorem float?_tagEnd :
    float? previous (cs ++ tagEnd) = (float? previous cs).map LiquidTemplate.extended := by
  rw [float?, float?, Literal.float?_tagEnd]
  split <;> rfl

/-- **The same literal**, if it is one, and no literal otherwise. -/
theorem literal?_tagEnd : literal? previous (cs ++ tagEnd) =
    (literal? previous cs).map fun result => result.map extended := by
  rw [literal?, literal?, Literal.range?_tagEnd]
  cases Literal.range? cs with
  | some r => rfl
  | none =>
    simp only [Option.map_none, float?_tagEnd]
    cases float? previous cs with
    | some found =>
      obtain ⟨chars, rest⟩ := found
      simp only [Option.map_some, LiquidTemplate.extended]
      split <;> rfl
    | none =>
      simp only [Option.map_none, Literal.grouped?_tagEnd]
      cases Literal.grouped? cs with
      | some found =>
        obtain ⟨chars, rest⟩ := found
        simp only [Option.map_some, LiquidTemplate.extended]
        split <;> rfl
      | none =>
        simp only [Option.map_none, Literal.name?_tagEnd, Literal.quoted?_tagEnd]
        cases Literal.name? cs with
        | some found => rfl
        | none =>
          simp only [Option.map_none]
          cases Literal.quoted? cs <;> rfl

theorem operator?_tagEnd : operator? (cs ++ tagEnd) = (operator? cs).map LiquidTemplate.extended := by
  have hblank : ∀ s : Symbol, ' ' ∉ s.spelling.toList := by
    intro s
    cases s <;> decide
  unfold operator?
  induction operators with
  | nil => rfl
  | cons s more ih =>
    simp only [List.findSome?_cons, after?_tagEnd _ (hblank s), ih]
    cases after? s.spelling.toList cs <;> rfl

/-- **The same lexeme** before the end of a tag. -/
theorem scan_tagEnd {opened after : List Bracket} {line : Nat} {l : Lexeme}
    (h : scan previous opened line cs = .ok (l, after)) :
    scan previous opened line (cs ++ tagEnd) = .ok (l.extended, after) := by
  unfold scan at h ⊢
  rw [literal?_tagEnd]
  split at h
  · next l' hl =>
    obtain ⟨rfl, rfl⟩ := by simpa using h
    rw [hl]
    rfl
  · nomatch h
  · next hl =>
    rw [hl]
    cases cs with
    | nil => nomatch h
    | cons c cs =>
      dsimp only [Option.map_none, List.cons_append] at h ⊢
      unfold symbol at h ⊢
      split at h
      · obtain ⟨rfl, rfl⟩ := by simpa using h
        rfl
      · split at h
        · split at h
          · nomatch h
          · split at h
            · next hc =>
              obtain ⟨rfl, rfl⟩ := by simpa using h
              exact if_pos hc
            · nomatch h
        · rw [← List.cons_append, operator?_tagEnd]
          split at h
          · next s rest ho =>
            obtain ⟨rfl, rfl⟩ := by simpa using h
            rw [ho]
            rfl
          · split at h <;> nomatch h

/-- **The beginning of a print tag** has no part in the lexeme behind it. -/
theorem scan_variableBegin {opened : List Bracket} {line : Nat} :
    scan (some (.mark .variableBegin)) opened line cs = scan none opened line cs := by
  have hname : nameKind (some (.mark .variableBegin)) = nameKind none := by
    funext chars
    simp [nameKind]
  have hfloat : float? (some (.mark .variableBegin)) cs = float? none cs := rfl
  unfold scan literal?
  rw [hname, hfloat]

end Lexeme

end LiquidTemplate
