import LiquidTemplate.Proofs.Exchange.Streams
import LiquidTemplate.Proofs.Scanning.Course

/-!
# Expressions that stand alone

The bounds of a range literal are texts of their own. Where such a text stands changes nothing but
the places of its tokens, and what its tokens weigh is bounded by its length.

* `read_eq`, `seen_ofExpression`: the rounds of a tag, and the same tokens at another place.
* `weight_ofExpression`: a character weighs at most three.
* `inner_ofExpression`, `not_end_ofExpression`: the stream of such tokens ends behind them.
-/

namespace LiquidTemplate

open Text

variable {previous : Option TokenType} {lines : Bool}

/-! ### The same tokens at another place -/

/-- A lexeme depends neither on its line nor on those of the open brackets. -/
theorem Lexeme.scan_of_chars {opened opened' after : List Bracket} {line : Nat} (line' : Nat)
    {cs : List Char} {l : Lexeme} (hopened : opened.map Bracket.char = opened'.map Bracket.char)
    (h : Lexeme.scan previous opened line cs = .ok (l, after)) :
    ∃ after', Lexeme.scan previous opened' line' cs = .ok (l, after') ∧
      after.map Bracket.char = after'.map Bracket.char := by
  unfold scan at h ⊢
  split at h
  · obtain ⟨rfl, rfl⟩ := by simpa using h
    exact ⟨opened', rfl, hopened⟩
  · cases h
  · split at h
    · cases h
    · unfold symbol at h ⊢
      split at h
      · obtain ⟨rfl, rfl⟩ := by simpa using h
        exact ⟨_, rfl, by simp [hopened]⟩
      · split at h
        · cases opened with
          | nil => cases h
          | cons b outer =>
            obtain ⟨b', outer', rfl, hb, houter⟩ := List.map_eq_cons_iff.1 hopened.symm
            have hcloser : b.closer = b'.closer := by
              rw [Bracket.closer, Bracket.closer, hb]
            dsimp only at h ⊢
            rw [hcloser] at h
            split at h
            · next hc =>
              obtain ⟨rfl, rfl⟩ := by simpa using h
              exact ⟨outer', if_pos hc, houter.symm⟩
            · cases h
        · split at h
          · obtain ⟨rfl, rfl⟩ := by simpa using h
            exact ⟨opened', rfl, hopened⟩
          · split at h <;> cases h

theorem seenLine_add {m n : Nat} (h : seenLine lines m = seenLine lines n) (k : Nat) :
    seenLine lines (m + k) = seenLine lines (n + k) := by
  cases lines with
  | false => rfl
  | true => exact congrArg (· + k) h

namespace TagTokens

variable {closing : Option Closing} {opened opened' : List Bracket} {c c' : Cursor} {tag : TagTokens}

/-! #### Rounds of a tag -/

/-- A round: the end of the text, the end of the tag, or a token and the rounds behind it. -/
theorem read_eq (closing : Option Closing) (previous : Option TokenType) (opened : List Bracket)
    (c : Cursor) : read closing previous opened c =
    if c.skipBlanks.rest = [] then atEnd closing opened c.skipBlanks
    else
      match close? closing opened c.skipBlanks with
      | some tag => .ok tag
      | none =>
        match nextToken previous opened c.skipBlanks with
        | .error e => .error e
        | .ok (t, after, d) => (read closing (some t.type) after d).map fun tag =>
            { tag with tokens := t :: tag.tokens } := by
  rw [read]
  simp only [List.isEmpty_iff]
  split
  · rfl
  · cases close? closing opened c.skipBlanks with
    | some tag => rfl
    | none =>
      dsimp only
      split <;> next hnext => rw [hnext]

theorem read_of_empty (h : c.skipBlanks.rest = []) :
    read closing previous opened c = atEnd closing opened c.skipBlanks := by
  rw [read_eq, if_pos h]

theorem read_of_close (hne : c.skipBlanks.rest ≠ [])
    (h : close? closing opened c.skipBlanks = some tag) :
    read closing previous opened c = .ok tag := by
  rw [read_eq, if_neg hne, h]

theorem read_of_token {t : Token} {after : List Bracket} {d : Cursor}
    (hne : c.skipBlanks.rest ≠ []) (hopen : close? closing opened c.skipBlanks = none)
    (h : nextToken previous opened c.skipBlanks = .ok (t, after, d)) :
    read closing previous opened c = (read closing (some t.type) after d).map fun tag =>
      { tag with tokens := t :: tag.tokens } := by
  rw [read_eq, if_neg hne, hopen, h]

/-- The same text behind the blanks. -/
theorem skipBlanks_congr (hrest : c.rest = c'.rest)
    (hline : seenLine lines c.line = seenLine lines c'.line) :
    c.skipBlanks.rest = c'.skipBlanks.rest ∧
      seenLine lines c.skipBlanks.line = seenLine lines c'.skipBlanks.line := by
  unfold Cursor.skipBlanks Cursor.past
  rw [hrest]
  exact ⟨rfl, seenLine_add hline _⟩

/-- No closing delimiter at another place. -/
theorem close?_congr_none (hrest : c.rest = c'.rest)
    (hopened : opened.map Bracket.char = opened'.map Bracket.char)
    (h : close? closing opened c = none) : close? closing opened' c' = none := by
  match opened, opened', hopened with
  | _ :: _, _ :: _, _ => cases closing <;> rfl
  | [], [], _ =>
    cases closing with
    | none => rfl
    | some y =>
      have hmatch := Option.map_eq_none_iff.1 h
      exact Option.map_eq_none_iff.2 (hrest ▸ hmatch)

/-- A closing delimiter at another place. -/
theorem seen_close (hrest : c.rest = c'.rest)
    (hline : seenLine lines c.line = seenLine lines c'.line)
    (hopened : opened.map Bracket.char = opened'.map Bracket.char)
    (h : close? closing opened c = some tag) : ∃ tag', close? closing opened' c' = some tag' ∧
      tag.tokens.map (Token.seen lines) = tag'.tokens.map (Token.seen lines) := by
  match opened, opened', hopened with
  | _ :: _, _ :: _, _ => cases closing <;> nomatch h
  | [], [], _ =>
    cases closing with
    | none => nomatch h
    | some y =>
      obtain ⟨found, hfound, rfl⟩ := Option.map_eq_some_iff.1 h
      refine ⟨_, Option.map_eq_some_iff.2 ⟨found, hrest ▸ hfound, rfl⟩, ?_⟩
      simp [Token.seen, Cursor.tokenTo, hline]

/-- A token at another place. -/
theorem seen_nextToken {t : Token} {after : List Bracket} {d : Cursor} (hrest : c.rest = c'.rest)
    (hline : seenLine lines c.line = seenLine lines c'.line)
    (hopened : opened.map Bracket.char = opened'.map Bracket.char)
    (h : nextToken previous opened c = .ok (t, after, d)) :
    ∃ t' after' d', nextToken previous opened' c' = .ok (t', after', d') ∧
      t.seen lines = t'.seen lines ∧ after.map Bracket.char = after'.map Bracket.char ∧
      d.rest = d'.rest ∧ seenLine lines d.line = seenLine lines d'.line := by
  obtain ⟨l, hl, rfl, rfl⟩ := exists_of_nextToken h
  obtain ⟨after', hl', hafter⟩ := Lexeme.scan_of_chars c'.line hopened hl
  refine ⟨c'.tokenTo l.kind (c'.past l.chars l.rest), after', c'.past l.chars l.rest, ?_, ?_, hafter,
    rfl, seenLine_add hline _⟩
  · rw [nextToken, ← hrest, hl']
  · exact Prod.ext rfl hline

/-- **The same tokens**, wherever a text stands. -/
theorem seen_read (hrest : c.rest = c'.rest)
    (hline : seenLine lines c.line = seenLine lines c'.line)
    (hopened : opened.map Bracket.char = opened'.map Bracket.char)
    (h : read closing previous opened c = .ok tag) :
    ∃ tag', read closing previous opened' c' = .ok tag' ∧
      tag.tokens.map (Token.seen lines) = tag'.tokens.map (Token.seen lines) := by
  fun_induction read closing previous opened c generalizing opened' c' tag
  case case1 previous opened c d hend =>
    obtain ⟨hrest, hline⟩ := skipBlanks_congr hrest hline
    rw [read_of_empty (hrest ▸ List.isEmpty_iff.1 hend)]
    cases opened with
    | cons => cases h
    | nil =>
      obtain rfl := List.map_eq_nil_iff.1 hopened.symm
      cases closing with
      | some y => cases h
      | none =>
        obtain rfl := Except.ok.inj h
        exact ⟨_, rfl, rfl⟩
  case case2 previous opened c d hne found hfound =>
    obtain ⟨hrest, hline⟩ := skipBlanks_congr hrest hline
    obtain rfl := Except.ok.inj h
    obtain ⟨tag', htag', hsame⟩ := seen_close hrest hline hopened hfound
    exact ⟨tag', read_of_close (by simpa [← hrest] using hne) htag', hsame⟩
  case case3 => cases h
  case case4 previous opened c d hne hopen t after c₂ hnext ih =>
    obtain ⟨hrest, hline⟩ := skipBlanks_congr hrest hline
    obtain ⟨t', after', d', hnext', ht, hafter, hrest', hline'⟩ :=
      seen_nextToken hrest hline hopened hnext
    have htype : t.type = t'.type := congrArg (fun y => y.1.type) ht
    obtain ⟨more, hread, rfl⟩ := exists_of_map_eq_ok h
    obtain ⟨more', hmore', hsame⟩ := ih hrest' hline' hafter hread
    refine ⟨{ more' with tokens := t' :: more'.tokens }, ?_, ?_⟩
    · rw [read_of_token (by simpa [← hrest] using hne) (close?_congr_none hrest hopened hopen)
        hnext', ← htype, hmore']
      rfl
    · rw [List.map_cons, List.map_cons, ht, hsame]

end TagTokens

theorem ofExpression_eq_ok {text : String} {line offset : Nat} {ts : List Token} :
    Token.ofExpression text line offset = .ok ts ↔
      ∃ tag, TagTokens.read none none [] ⟨text.toList, offset, line⟩ = .ok tag ∧ tag.tokens = ts := by
  unfold Token.ofExpression
  cases TagTokens.read none none [] ⟨text.toList, offset, line⟩ with
  | error e => exact ⟨nofun, fun ⟨_, h, _⟩ => nomatch h⟩
  | ok tag => exact ⟨fun h => ⟨tag, rfl, Except.ok.inj h⟩, fun ⟨_, h, ht⟩ => by
      rw [← ht, ← Except.ok.inj h]
      rfl⟩

/-- **The same tokens** of an expression, wherever it stands. -/
theorem seen_ofExpression {text : String} {line line' offset : Nat} (offset' : Nat) {ts : List Token}
    (hline : seenLine lines line = seenLine lines line')
    (h : Token.ofExpression text line offset = .ok ts) :
    ∃ ts', Token.ofExpression text line' offset' = .ok ts' ∧
      ts.map (Token.seen lines) = ts'.map (Token.seen lines) := by
  obtain ⟨tag, hread, rfl⟩ := ofExpression_eq_ok.1 h
  have hrest : (⟨text.toList, offset, line⟩ : Cursor).rest =
      (⟨text.toList, offset', line'⟩ : Cursor).rest := rfl
  obtain ⟨tag', htag', hsame⟩ := TagTokens.seen_read hrest hline rfl hread
  exact ⟨tag'.tokens, ofExpression_eq_ok.2 ⟨tag', htag', rfl⟩, hsame⟩

/-! ### What the tokens weigh -/

/-- The bounds of a range literal stand between its parentheses and dots. -/
theorem range?_byteSize {cs : List Char} {r : Literal.Range} (h : Literal.range? cs = some r) :
    byteSize r.start + byteSize r.stop + 4 ≤ byteSize r.lexeme := by
  simp only [Literal.range?, bind, Option.bind_eq_some_iff, Prod.exists, pure,
    Option.some.injEq] at h
  obtain ⟨a, _, start, b, _, c, _, stop, e, _, rest, _, rfl⟩ := h
  have hopen : Char.utf8Size '(' = 1 := rfl
  have hclose : Char.utf8Size ')' = 1 := rfl
  have hdot : Char.utf8Size '.' = 1 := rfl
  simp only [byteSize_append, byteSize_cons, byteSize_nil, List.cons_append, hopen, hclose, hdot]
  omega

namespace Lexeme

theorem literal?_weight {cs : List Char} {l : Lexeme} (h : literal? previous cs = some (.ok l)) :
    l.kind.weight ≤ 3 * byteSize l.chars := by
  have hpos : 0 < byteSize l.chars := by
    have := length_le_byteSize l.chars
    have := List.length_pos_iff.2 (literal?_eq h).2
    omega
  unfold literal? at h
  split at h
  · next r hr =>
    obtain rfl := by simpa using h
    have := range?_byteSize hr
    simp only [Token.Kind.weight, utf8ByteSize_ofList]
    omega
  · have hlight : l.kind.weight = 1 := by
      split at h
      · split at h
        · obtain rfl := by simpa using h
          rfl
        · cases h
      · split at h
        · split at h
          · obtain rfl := by simpa using h
            rfl
          · cases h
        · split at h
          · obtain rfl := by simpa using h
            unfold nameKind
            split <;> rfl
          · obtain ⟨found, _, hl⟩ := Option.map_eq_some_iff.1 h
            obtain rfl := by simpa using hl
            rfl
    omega

/-- **A character of a lexeme** weighs at most three. -/
theorem weight_le {opened after : List Bracket} {line : Nat} {cs : List Char} {l : Lexeme}
    (h : scan previous opened line cs = .ok (l, after)) : l.kind.weight ≤ 3 * byteSize l.chars := by
  have hpos : 0 < byteSize l.chars := by
    have := length_le_byteSize l.chars
    have := List.length_pos_iff.2 (scan_eq h).2
    omega
  unfold scan at h
  split at h
  · next l' hl =>
    obtain ⟨rfl, rfl⟩ := by simpa using h
    exact literal?_weight hl
  · cases h
  · split at h
    · cases h
    · have hlight : l.kind.weight = 1 := by
        unfold symbol at h
        split at h
        · obtain ⟨rfl, -⟩ := by simpa using h
          rfl
        · split at h
          · split at h
            · cases h
            · split at h
              · obtain ⟨rfl, -⟩ := by simpa using h
                rfl
              · cases h
          · split at h
            · obtain ⟨rfl, -⟩ := by simpa using h
              rfl
            · split at h <;> cases h
      omega

end Lexeme

/-- **The tokens of a text** weigh at most three for each of its bytes. -/
theorem TagTokens.read_weight {opened : List Bracket} {c : Cursor} {tag : TagTokens}
    (h : read none previous opened c = .ok tag) :
    weightOf (tag.tokens.map Token.kind) ≤ 3 * byteSize c.rest := by
  fun_induction read none previous opened c generalizing tag
  case case1 previous opened c d hend =>
    cases opened with
    | cons => cases h
    | nil =>
      obtain rfl := Except.ok.inj h
      exact Nat.zero_le _
  case case2 previous opened c d hne found hfound => cases hfound
  case case3 => cases h
  case case4 previous opened c d hne hopen t after c₂ hnext ih =>
    obtain ⟨more, hread, rfl⟩ := exists_of_map_eq_ok h
    have hmore := ih hread
    obtain ⟨l, hl, rfl, rfl⟩ := exists_of_nextToken hnext
    have htext := (Lexeme.scan_eq hl).1
    have hl := Lexeme.weight_le hl
    have hblanks : byteSize (c.rest.takeWhile isBlank) + byteSize d.rest = byteSize c.rest := by
      rw [← byteSize_append]
      exact congrArg byteSize (trimStart_eq c.rest)
    have hbytes : byteSize d.rest = byteSize l.chars + byteSize l.rest := by
      rw [htext, byteSize_append]
    simp only [List.map_cons, weightOf]
    have hmore : weightOf (more.tokens.map Token.kind) ≤ 3 * byteSize l.rest := hmore
    have hkind : (d.tokenTo l.kind (d.past l.chars l.rest)).kind = l.kind := rfl
    rw [hkind]
    omega

theorem weight_ofExpression {text : String} {line offset : Nat} {ts : List Token}
    (h : Token.ofExpression text line offset = .ok ts) :
    weightOf (ts.map Token.kind) ≤ 3 * text.utf8ByteSize := by
  obtain ⟨tag, hread, rfl⟩ := ofExpression_eq_ok.1 h
  rw [← byteSize_toList]
  exact TagTokens.read_weight hread

/-! ### The stream of the tokens -/

/-- The tokens of a text without tags are those of the inside of a tag. -/
theorem TagCourse.inner {opened : List Bracket} {c : Cursor} {tag : TagTokens}
    (h : TagCourse none previous opened c tag) : ∀ t ∈ tag.tokens, t.kind.Inner := by
  induction h with
  | finish => exact nofun
  | close hx => nomatch hx
  | token _ _ hs _ ih =>
    intro t ht
    rcases List.mem_cons.1 ht with rfl | ht
    · exact hs.inner
    · exact ih t ht

theorem inner_ofExpression {text : String} {line offset : Nat} {ts : List Token}
    (h : Token.ofExpression text line offset = .ok ts) : ∀ t ∈ ts, t.kind.Inner := by
  obtain ⟨tag, hread, rfl⟩ := ofExpression_eq_ok.1 h
  exact (tagCourse_of_ok hread).inner

/-- Inner tokens are no marks. -/
theorem Token.not_mark_of_inner {t : Token} (h : t.kind.Inner) : ¬ t.IsMark := by
  rintro ⟨m, hm⟩
  rw [hm] at h
  exact h

/-- No token of an expression is the end of the template. -/
theorem not_end_ofExpression {text : String} {line offset : Nat} {ts : List Token}
    (h : Token.ofExpression text line offset = .ok ts) : ∀ t ∈ ts, t.isEnd = false := by
  intro t ht
  refine Bool.eq_false_iff.2 fun hend => ?_
  exact Token.not_mark_of_inner (inner_ofExpression h t ht) ⟨_, Token.isEnd_iff.1 hend⟩

/-- A list that does not end with the end of the template gets it. -/
theorem close_eq_append {ts : List Token} (h : ∀ t ∈ ts, t.isEnd = false) :
    TokenStream.close ts = ts ++ [TokenStream.endAfter ts] := by
  rw [TokenStream.close, if_neg]
  cases hlast : ts.getLast? with
  | none => simp
  | some t => simp [h t (List.mem_of_getLast? hlast)]

end LiquidTemplate
