import Mathlib
import LiquidTemplate.Proofs.Scanning.Printed
import LiquidTemplate.Proofs.Scanning.Shape

/-!
# Printed tokens with blanks between them

The printed forms of tokens, with a blank between any two of them, are read as these tokens: no form
runs into the next one, and no opening parenthesis begins a range literal with what stands behind it.

* `spaced`: texts with a blank before each of them.
* `range?_spaced`: no range literal out of several printed tokens.
* `Advances`: some tokens on the way through a text.
* `advances_balanced`: the printed forms of balanced tokens.
* `kinds_of_printed`: lexing undoes printing.
-/

namespace LiquidTemplate

open Text

variable {k : Token.Kind} {p rest : List Char} {ps : List (List Char)}

/-! ### Texts and gaps -/

/-- Texts with a blank before each of them. -/
def spaced (ps : List (List Char)) : List Char :=
  ps.flatMap (' ' :: ·)

/-- A printed form of some token. -/
def Printed (p : List Char) : Prop :=
  ∃ k : Token.Kind, k.Prints p

theorem joined_cons (p : List Char) (ps : List (List Char)) :
    [' '].intercalate (p :: ps) = p ++ spaced ps := by
  induction ps generalizing p with
  | nil => simp [spaced]
  | cons q ps ih =>
    rw [List.intercalate_cons_cons, ih]
    simp [spaced]

theorem gap_spaced (ps : List (List Char)) : Gap (spaced ps) := by
  intro c hc
  cases ps with
  | nil => cases hc
  | cons p ps => exact (Option.some.inj hc).symm

/-- **How a printed form begins**: with no blank, and with a dot only where it is one. -/
theorem Token.Kind.Prints.head (h : k.Prints p) :
    ∃ c more, p = c :: more ∧ isBlank c = false ∧ (c = '.' → more = []) := by
  have hname {cs : List Char} (hcs : ∃ c ∈ cs.head?, isNameChar c = true) :
      ∃ c more, cs = c :: more ∧ isBlank c = false ∧ (c = '.' → more = []) := by
    obtain ⟨c, hhead, hc⟩ := hcs
    obtain ⟨more, rfl⟩ := List.head?_eq_some_iff.1 hhead
    refine ⟨c, more, rfl, isBlank_of_isNameChar hc, ?_⟩
    rintro rfl
    exact absurd hc (by decide)
  cases h with
  | name h =>
    obtain ⟨c, hhead, hc⟩ := h.1
    exact hname ⟨c, hhead, Bool.or_eq_true_iff.2 (.inl hc)⟩
  | @integer value h =>
    have hdigits := Lexeme.digits_natText value.toInt.toNat
    have hne : Number.natText value.toInt.toNat ≠ [] := Nat.toDigits_ne_nil
    obtain ⟨c, more, hcs⟩ := List.exists_cons_of_ne_nil hne
    rw [hcs] at hdigits ⊢
    exact hname ⟨c, rfl, Bool.or_eq_true_iff.2 (.inr (hdigits c List.mem_cons_self))⟩
  | string hquote text =>
    refine ⟨_, _, rfl, ?_, ?_⟩
    · rcases hquote with rfl | rfl <;> rfl
    · rcases hquote with rfl | rfl <;> nofun
  | range _ _ => exact ⟨'(', _, rfl, rfl, nofun⟩
  | symbol s =>
    cases s <;> exact ⟨_, _, rfl, rfl, by decide⟩

/-- Behind a blank the next text begins. -/
theorem trimStart_joined (hps : ∀ p ∈ ps, Printed p) :
    trimStart ([' '].intercalate ps) = [' '].intercalate ps ∧
      trimStart (spaced ps) = [' '].intercalate ps := by
  cases ps with
  | nil => exact ⟨rfl, rfl⟩
  | cons p ps =>
    obtain ⟨k, hp⟩ := hps p List.mem_cons_self
    obtain ⟨c, more, rfl, hc, -⟩ := hp.head
    have hc : ¬ isBlank c = true := by simp [hc]
    have hhere : trimStart ([' '].intercalate ((c :: more) :: ps)) =
        [' '].intercalate ((c :: more) :: ps) := by
      rw [joined_cons]
      exact List.dropWhile_cons_of_neg hc
    refine ⟨hhere, ?_⟩
    rw [← hhere, joined_cons]
    rfl

/-! ### Range literals -/

namespace Literal

/-- What no bound begins with. -/
theorem bound?_eq_none {c : Char} (hdash : c ≠ '-') (hdigit : isDecimalDigit c = false)
    (hname : isNameStart c = false) (cs : List Char) : bound? (c :: cs) = none := by
  have hdigit : ¬ isDecimalDigit c = true := by simp [hdigit]
  have hname : ¬ isNameStart c = true := by simp [hname]
  rw [bound?, numberBound?, if_neg hdash, digits?, List.takeWhile_cons_of_neg hdigit, pathBound?,
    if_neg hname]
  rfl

theorem endsBound_gap (hrest : Gap rest) : EndsBound rest :=
  ⟨groups_gap hrest (by decide) (by decide +kernel), hrest.head rfl⟩

/-- **A bound out of printed tokens** is one of them as a whole. -/
theorem bound?_of_prints (h : k.Prints p) (hrest : Gap rest) :
    bound? (p ++ rest) = none ∨ bound? (p ++ rest) = some (p, rest) := by
  have hends := endsBound_gap hrest
  cases h with
  | name h =>
    have hpath : IsBound (p ++ [].flatMap ('.' :: ·)) := .path h nofun
    rw [List.flatMap_nil, List.append_nil] at hpath
    exact .inr (bound?_append hpath hends)
  | integer h =>
    exact .inr (bound?_append (.digits Nat.toDigits_ne_nil (Lexeme.digits_natText _)) hends)
  | string hquote text =>
    left
    rcases hquote with rfl | rfl <;> exact bound?_eq_none (by decide) (by decide) (by decide) _
  | range _ _ =>
    left
    simp only [List.cons_append]
    exact bound?_eq_none (by decide) (by decide) (by decide) _
  | symbol s =>
    left
    by_cases hs : s = .sub
    · subst hs
      cases rest with
      | nil => rfl
      | cons c rest =>
        obtain rfl := hrest c rfl
        rfl
    · cases s with
      | sub => exact absurd rfl hs
      | _ => exact bound?_eq_none (by decide) (by decide) (by decide) _

/-- Two dots with a blank between them do not stand for a range. -/
theorem after?_dots_joined (hps : ∀ p ∈ ps, Printed p) :
    after? ['.', '.'] ([' '].intercalate ps) = none := by
  cases ps with
  | nil => rfl
  | cons p ps =>
    obtain ⟨k, hp⟩ := hps p List.mem_cons_self
    obtain ⟨c, more, rfl, -, hdot⟩ := hp.head
    rw [joined_cons, List.cons_append, after?]
    split
    · next hc =>
      rw [hdot hc.symm, List.nil_append]
      cases ps <;> rfl
    · rfl

/-- **No range literal** begins with a parenthesis that stands alone. -/
theorem range?_spaced (hps : ∀ p ∈ ps, Printed p) : range? ('(' :: spaced ps) = none := by
  have hopen : after? ['('] ('(' :: spaced ps) = some (spaced ps) := rfl
  rw [range?, hopen]
  simp only [bind, Option.bind_some, (trimStart_joined hps).2]
  cases ps with
  | nil => rfl
  | cons p ps =>
    obtain ⟨k, hp⟩ := hps p List.mem_cons_self
    have hmore : ∀ q ∈ ps, Printed q := fun q hq => hps q (List.mem_cons_of_mem _ hq)
    rw [joined_cons]
    rcases bound?_of_prints hp (gap_spaced ps) with hnone | hsome
    · rw [hnone, Option.bind_none]
    · rw [hsome, Option.bind_some]
      dsimp only
      rw [(trimStart_joined hmore).2, after?_dots_joined hmore, Option.bind_none]

end Literal

/-! ### Lexemes -/

/-- **A printed token** other than a bracket is taken as a whole. -/
theorem Lexeme.scan_of_prints {previous : Option TokenType} {opened : List Bracket} {line : Nat}
    (h : k.Prints p) (hk : k.isBracket = false) (hrest : Gap rest)
    (hprevious : previous ≠ some (.mark .blockBegin)) :
    scan previous opened line (p ++ rest) = .ok (⟨k, p, rest⟩, opened) := by
  have hliteral (hl : literal? previous (p ++ rest) = some (.ok ⟨k, p, rest⟩)) :
      scan previous opened line (p ++ rest) = .ok (⟨k, p, rest⟩, opened) := by
    unfold scan
    rw [hl]
  cases h with
  | name h => exact hliteral (literal?_name h hrest hprevious)
  | integer h => exact hliteral (literal?_integer h hrest)
  | string hquote text => exact hliteral (literal?_string hquote text rest)
  | range hstart hstop => exact hliteral (literal?_range hstart hstop rest)
  | symbol s =>
    have hs : s ∈ operators := by
      cases s <;> first | decide | cases hk
    exact scan_operator hs hrest

/-- The two brackets of a pair. -/
theorem brackets_of_closer {s closer : Symbol} (h : s.closer? = some closer) :
    ∃ c : Char, s.spelling.toList = [c] ∧ openingBracket? c = some s ∧ ∀ line,
      closingBracket? (Bracket.closer ⟨c, line⟩) = some closer ∧
        closer.spelling.toList = [Bracket.closer ⟨c, line⟩] := by
  cases s <;> cases h <;> exact ⟨_, rfl, rfl, fun _ => ⟨rfl, rfl⟩⟩

theorem Token.Kind.Prints.of_symbol {s : Symbol} (h : (Token.Kind.symbol s).Prints p) :
    p = s.spelling.toList := by
  cases h
  rfl

theorem Token.Kind.Prints.type_ne (h : k.Prints p) : some k.type ≠ some (.mark .blockBegin) := by
  cases h <;> nofun

/-! ### The way through a text -/

namespace TagTokens

/-- **Advance**: on the way from the cursor `c` to the cursor `d` tokens of the given kinds are read,
with the token before and the open brackets at both places. -/
structure Advances (kinds : List Token.Kind) (previous : Option TokenType) (opened : List Bracket)
    (c : Cursor) (previous' : Option TokenType) (opened' : List Bracket) (d : Cursor) : Prop where
  tokens : ∃ ts : List Token, ts.map Token.kind = kinds ∧
    read none previous opened c = (read none previous' opened' d).map fun tag =>
      { tag with tokens := ts ++ tag.tokens }

variable {kinds kinds' : List Token.Kind} {previous previous' previous'' : Option TokenType}
  {opened opened' opened'' : List Bracket} {c c' c'' : Cursor}

theorem Advances.refl (previous : Option TokenType) (opened : List Bracket) (c : Cursor) :
    Advances [] previous opened c previous opened c := by
  refine ⟨[], rfl, ?_⟩
  cases read none previous opened c <;> rfl

theorem Advances.trans (h : Advances kinds previous opened c previous' opened' c')
    (h' : Advances kinds' previous' opened' c' previous'' opened'' c'') :
    Advances (kinds ++ kinds') previous opened c previous'' opened'' c'' := by
  obtain ⟨ts, rfl, hread⟩ := h
  obtain ⟨ts', rfl, hread'⟩ := h'
  refine ⟨ts ++ ts', List.map_append, ?_⟩
  rw [hread, hread']
  cases read none previous'' opened'' c'' with
  | error e => rfl
  | ok tag => simp [Except.map, List.append_assoc]

/-- **One printed token** behind the blanks at a cursor, with others behind it. -/
theorem advances_print (hps : ∀ q ∈ ps, Printed q)
    (hrest : c.skipBlanks.rest = [' '].intercalate (p :: ps))
    (hscan : Lexeme.scan previous opened c.skipBlanks.line (p ++ spaced ps) =
      .ok (⟨k, p, spaced ps⟩, opened')) :
    ∃ d, d.skipBlanks.rest = [' '].intercalate ps ∧
      Advances [k] previous opened c (some k.type) opened' d := by
  rw [joined_cons] at hrest
  have hne : p ≠ [] := (Lexeme.scan_eq hscan).2
  have hmore : c.skipBlanks.rest ≠ [] := by
    rw [hrest]
    exact List.append_ne_nil_of_left_ne_nil hne _
  have hnext : nextToken previous opened c.skipBlanks =
      .ok (c.skipBlanks.tokenTo k (c.skipBlanks.past p (spaced ps)), opened',
        c.skipBlanks.past p (spaced ps)) := by
    rw [nextToken, hrest, hscan]
  exact ⟨c.skipBlanks.past p (spaced ps), (trimStart_joined hps).2, [_], rfl,
    read_of_token hmore rfl hnext⟩

theorem printed_of_forall₂ {ts : List Token} (h : List.Forall₂ (fun p t => t.kind.Prints p) ps ts) :
    ∀ p ∈ ps, Printed p := by
  induction h with
  | nil => exact nofun
  | cons hp _ ih => exact List.forall_mem_cons.2 ⟨⟨_, hp⟩, ih⟩

theorem forall₂_append_right {α β : Type} {r : α → β → Prop} {xs : List α} {as bs : List β}
    (h : List.Forall₂ r xs (as ++ bs)) : ∃ front back, xs = front ++ back ∧
      List.Forall₂ r front as ∧ List.Forall₂ r back bs :=
  ⟨_, _, (List.take_append_drop as.length xs).symm, List.forall₂_take_append _ _ _ h,
    List.forall₂_drop_append _ _ _ h⟩

/-- **Balanced tokens** in their printed forms are read one after the other, and leave the open
brackets as they are. -/
theorem advances_balanced {ts : List Token} (h : Balanced ts) {prints more : List (List Char)}
    (hprints : List.Forall₂ (fun p t => t.kind.Prints p) prints ts) (hmore : ∀ p ∈ more, Printed p)
    (hprevious : previous ≠ some (.mark .blockBegin))
    (hrest : c.skipBlanks.rest = [' '].intercalate (prints ++ more)) :
    ∃ previous' d, previous' ≠ some (.mark .blockBegin) ∧
      d.skipBlanks.rest = [' '].intercalate more ∧
      Advances (ts.map Token.kind) previous opened c previous' opened d := by
  induction h generalizing prints more previous opened c with
  | nil =>
    obtain rfl := List.forall₂_nil_right_iff.1 hprints
    exact ⟨previous, c, hprevious, hrest, .refl ..⟩
  | @other t ts ht _ ih =>
    obtain ⟨p, ps, hp, hps, rfl⟩ := List.forall₂_cons_right_iff.1 hprints
    have hall : ∀ q ∈ ps ++ more, Printed q :=
      List.forall_mem_append.2 ⟨printed_of_forall₂ hps, hmore⟩
    obtain ⟨d, hd, hfirst⟩ := advances_print hall hrest
      (Lexeme.scan_of_prints hp ht (gap_spaced _) hprevious)
    obtain ⟨previous', d', hprevious', hd', hothers⟩ := ih hps hmore hp.type_ne hd
    exact ⟨previous', d', hprevious', hd', hfirst.trans hothers⟩
  | @enclosed t u s closer inside outside ht hu hs _ _ ihinside ihoutside =>
    obtain ⟨front, back, rfl, hfront, hback⟩ := forall₂_append_right hprints
    obtain ⟨p, ps, hp, hps, rfl⟩ := List.forall₂_cons_right_iff.1 hfront
    obtain ⟨q, qs, hq, hqs, rfl⟩ := List.forall₂_cons_right_iff.1 hback
    have hqmore : ∀ x ∈ q :: (qs ++ more), Printed x :=
      List.forall_mem_cons.2 ⟨⟨_, hq⟩, List.forall_mem_append.2 ⟨printed_of_forall₂ hqs, hmore⟩⟩
    have hpmore : ∀ x ∈ ps ++ q :: (qs ++ more), Printed x :=
      List.forall_mem_append.2 ⟨printed_of_forall₂ hps, hqmore⟩
    obtain ⟨b, hspelling, hopening, hpair⟩ := brackets_of_closer hs
    obtain ⟨hclosing, hspelling'⟩ := hpair c.skipBlanks.line
    rw [ht] at hp
    rw [hu] at hq
    obtain rfl : p = [b] := hp.of_symbol.trans hspelling
    have hcloser : q = [Bracket.closer ⟨b, c.skipBlanks.line⟩] := hq.of_symbol.trans hspelling'
    have hrange : Literal.range? (b :: spaced (ps ++ q :: (qs ++ more))) = none := by
      by_cases hb : b = '('
      · rw [hb]
        exact Literal.range?_spaced hpmore
      · exact Lexeme.range?_of_head hb _
    have hrest : c.skipBlanks.rest = [' '].intercalate ([b] :: (ps ++ q :: (qs ++ more))) := by
      rw [hrest]
      simp
    have hscan : Lexeme.scan previous opened c.skipBlanks.line
        ([b] ++ spaced (ps ++ q :: (qs ++ more))) =
          .ok (⟨.symbol s, [b], spaced (ps ++ q :: (qs ++ more))⟩,
            ⟨b, c.skipBlanks.line⟩ :: opened) := Lexeme.scan_opening hopening hrange
    have hscan' (previous₂ : Option TokenType) (line : Nat) :
        Lexeme.scan previous₂ (⟨b, c.skipBlanks.line⟩ :: opened) line (q ++ spaced (qs ++ more)) =
          .ok (⟨.symbol closer, q, spaced (qs ++ more)⟩, opened) := by
      rw [hcloser]
      exact Lexeme.scan_closing hclosing _
    -- The opening bracket, what is enclosed, the closing bracket and what stands behind it.
    obtain ⟨c₁, hc₁, hopen⟩ := advances_print hpmore hrest hscan
    obtain ⟨previous₂, c₂, hprevious₂, hc₂, henclosed⟩ := ihinside hps hqmore hp.type_ne hc₁
    obtain ⟨c₃, hc₃, hclose⟩ := advances_print (List.forall_mem_cons.1 hqmore).2 hc₂ (hscan' _ _)
    obtain ⟨previous', d, hprevious', hd, hbehind⟩ := ihoutside hqs hmore hq.type_ne hc₃
    refine ⟨previous', d, hprevious', hd, ?_⟩
    have hadvances := hopen.trans (henclosed.trans (hclose.trans hbehind))
    rw [← ht, ← hu] at hadvances
    simpa using hadvances

end TagTokens

/-- **Lexing undoes printing.** Tokens of an expression whose brackets are balanced are read again from
their printed forms with blanks between them, wherever the text stands. -/
theorem kinds_of_printed {ts : List Token} {prints : List (List Char)}
    (hprints : List.Forall₂ (fun p t => t.kind.Prints p) prints ts) (hbalanced : Balanced ts)
    (line offset : Nat) : ∃ tokens,
      Token.ofExpression (String.ofList ([' '].intercalate prints)) line offset = .ok tokens ∧
        tokens.map Token.kind = ts.map Token.kind := by
  have hprinted := TagTokens.printed_of_forall₂ hprints
  let start : Cursor := ⟨[' '].intercalate prints, offset, line⟩
  have hrest : start.skipBlanks.rest = [' '].intercalate (prints ++ []) := by
    rw [List.append_nil]
    exact (trimStart_joined hprinted).1
  have hway : ∃ previous d, previous ≠ some (.mark .blockBegin) ∧
      d.skipBlanks.rest = [' '].intercalate [] ∧
      TagTokens.Advances (ts.map Token.kind) none [] start previous [] d :=
    TagTokens.advances_balanced hbalanced hprints nofun nofun hrest
  obtain ⟨previous, d, -, hd, tokens, hkinds, hread⟩ := hway
  have hend : TagTokens.read none previous [] d = .ok ⟨[], d.skipBlanks, false⟩ :=
    TagTokens.read_of_empty hd
  rw [hend] at hread
  refine ⟨tokens, ofExpression_eq_ok.2 ⟨⟨tokens ++ [], d.skipBlanks, false⟩, ?_, ?_⟩, hkinds⟩
  · rw [String.toList_ofList]
    exact hread
  · exact List.append_nil tokens

/-- A dictionary with a quote in a string and a range literal, and an index behind a dot. -/
theorem kinds_of_printed_dictionary :
    let kinds : List Token.Kind := [.symbol .lBrace, .string "it's", .symbol .colon,
      .range "-1" "n.up", .symbol .rBrace, .symbol .dot, .integer 7]
    ∃ tokens, Token.ofExpression "\x7b 'it\\'s' : (-1..n.up) \x7d . 7" 1 0 = .ok tokens ∧
      tokens.map Token.kind = kinds := by
  intro kinds
  let ts : List Token := kinds.map fun k => ⟨k, 0, ⟨0, 0⟩⟩
  have hstring : (Token.Kind.string "it's").Prints "'it\\'s'".toList :=
    .string (.inl rfl) "it's"
  have hname : Literal.IsName ['n'] := ⟨⟨'n', rfl, rfl⟩, List.all_eq_true.1 rfl⟩
  have hothers : ∀ name ∈ [['u', 'p']], Literal.IsName name :=
    List.forall_mem_singleton.2 ⟨⟨'u', rfl, rfl⟩, List.all_eq_true.1 rfl⟩
  have hstart : Literal.IsBound ['-', '1'] :=
    .negative (List.cons_ne_nil '1' []) (List.all_eq_true.1 rfl)
  have hrange := Token.Kind.Prints.range hstart (.path hname hothers)
  have hseven : (Token.Kind.integer 7).Prints ['7'] := .integer (by decide)
  have hprints : List.Forall₂ (fun p t => t.kind.Prints p) [['\x7b'], "'it\\'s'".toList, [':'],
      ['(', '-', '1', '.', '.', 'n', '.', 'u', 'p', ')'], ['\x7d'], ['.'], ['7']] ts :=
    .cons (.symbol .lBrace) (.cons hstring (.cons (.symbol .colon) (.cons hrange
      (.cons (.symbol .rBrace) (.cons (.symbol .dot) (.cons hseven .nil))))))
  have hinside : Balanced (ts.take 4).tail := .other rfl (.other rfl (.other rfl .nil))
  have hbalanced : Balanced ts := .enclosed rfl rfl rfl hinside (.other rfl (.other rfl .nil))
  exact kinds_of_printed hprints hbalanced 1 0

end LiquidTemplate
