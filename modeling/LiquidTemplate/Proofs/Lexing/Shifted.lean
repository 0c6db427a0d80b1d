import LiquidTemplate.Proofs.Lexing.Elsewhere

/-!
# Templates at other places

The rest of a template has the same tokens wherever it stands, but for their places: a text that begins
at another line and another offset has its tokens and its errors there.

* `dataToken_shift`, `readMarked_shift`, `readRaw_shift`: stretches of text, tags and raw blocks.
* `readTag_shift`: whatever an opening delimiter opens.
* `templateTokens_shift`: all tokens from a cursor on.
-/

namespace LiquidTemplate

open Text

variable {first offset : Nat} {d : Delimiters} {c : Cursor} {strip : Bool}

/-- What a tag of a text that begins at another place gives. -/
def TagResult.shift (first offset : Nat) (tag : TagResult) : TagResult :=
  ⟨tag.tokens.map (Token.shift first offset), tag.after.shift first offset, tag.strip⟩

theorem dataToken_shift (hc : 1 ≤ c.line) (text : List Char) (stripStart stripEnd : Bool) :
    dataToken (c.shift first offset) text stripStart stripEnd =
      (dataToken c text stripStart stripEnd).map (Token.shift first offset) := by
  unfold dataToken
  extract_lets kept start shown start'
  have hstart : start = start'.shift first offset := Cursor.shift_past hc _ _
  have hline : 1 ≤ start'.line := Cursor.line_le_past hc _ _
  split
  · rfl
  · rw [hstart, Cursor.shift_past hline, Cursor.shift_tokenTo]
    rfl

/-! ### Tags -/

/-- A tag is read behind its opening delimiter and a dash. -/
theorem readMarked_eq (opening closing : Mark) (closer delimiter : List Char) (c : Cursor)
    (after : List Char) :
    readMarked opening closing closer delimiter c after =
      (TagTokens.read (some ⟨closer, closing⟩) (some (.mark opening)) []
        (c.past (delimiter ++ dash (optionalDash after).1) (optionalDash after).2)).map fun tag =>
          ⟨c.tokenTo (.mark opening) (c.past delimiter after) :: tag.tokens, tag.after, tag.dashed⟩ := by
  have hstart :
      (if (optionalDash after).1 then (c.past delimiter after).past ['-'] (optionalDash after).2
      else c.past delimiter after) =
        c.past (delimiter ++ dash (optionalDash after).1) (optionalDash after).2 := by
    have hafter := (optionalDash_eq after).1
    cases hdash : (optionalDash after).1 with
    | true => exact Cursor.past_past ..
    | false =>
      rw [hdash] at hafter
      obtain hafter : (optionalDash after).2 = after := hafter
      simp [dash, hafter]
  unfold readMarked
  dsimp only
  rw [hstart]
  cases TagTokens.read (some ⟨closer, closing⟩) (some (.mark opening)) []
    (c.past (delimiter ++ dash (optionalDash after).1) (optionalDash after).2) <;> rfl

theorem readMarked_shift (hc : 1 ≤ c.line) (opening closing : Mark)
    (closer delimiter after : List Char) :
    readMarked opening closing closer delimiter (c.shift first offset) after =
      shiftResult first offset (TagResult.shift first offset)
        (readMarked opening closing closer delimiter c after) := by
  have hread :
      TagTokens.read (some ⟨closer, closing⟩) (some (.mark opening)) ([].map (Bracket.shift first))
        ((c.past (delimiter ++ dash (optionalDash after).1) (optionalDash after).2).shift first
          offset) = _ :=
    TagTokens.read_shift (Cursor.line_le_past hc _ _)
  rw [List.map_nil] at hread
  rw [readMarked_eq, readMarked_eq, Cursor.shift_past hc, Cursor.shift_past hc, hread]
  cases TagTokens.read (some ⟨closer, closing⟩) (some (.mark opening)) []
    (c.past (delimiter ++ dash (optionalDash after).1) (optionalDash after).2) <;> rfl

theorem readComment_shift (hc : 1 ≤ c.line) (delimiter after : List Char) :
    readComment d delimiter (c.shift first offset) after =
      shiftResult first offset (TagResult.shift first offset) (readComment d delimiter c after) := by
  unfold readComment
  cases cut? d.commentEnd.toList after with
  | none => rfl
  | some found =>
    dsimp only
    rw [Cursor.shift_past hc]
    rfl

theorem readRaw_shift (hc : 1 ≤ c.line) (line : Nat) :
    readRaw d (lineFrom first line) strip (c.shift first offset) =
      shiftResult first offset (TagResult.shift first offset) (readRaw d line strip c) := by
  have hrest : (c.shift first offset).rest = c.rest := rfl
  unfold readRaw
  rw [hrest]
  cases rawEnd? d c.rest with
  | none => rfl
  | some found =>
    dsimp only
    rw [dataToken_shift hc, Cursor.shift_past hc]
    rfl

theorem skipNewline_shift (hc : 1 ≤ c.line) :
    (c.shift first offset).skipNewline = c.skipNewline.shift first offset := by
  have hrest : (c.shift first offset).rest = c.rest := rfl
  unfold Cursor.skipNewline
  rw [hrest]
  cases after? ['\r', '\n'] c.rest with
  | some rest => exact Cursor.shift_past hc _ _
  | none =>
    cases after? ['\n'] c.rest with
    | some rest => exact Cursor.shift_past hc _ _
    | none => rfl

/-- The lines of what is behind a tag are counted on. -/
theorem line_le_readMarked {opening closing : Mark} {closer delimiter after : List Char}
    {tag : TagResult}
    (hc : 1 ≤ c.line) (h : readMarked opening closing closer delimiter c after = .ok tag) :
    1 ≤ tag.after.line := by
  rw [readMarked_eq] at h
  obtain ⟨inner, hinner, rfl⟩ := exists_of_map_eq_ok h
  exact Nat.le_trans (Cursor.line_le_past hc _ _) (tagCourse_of_ok hinner).leads.line_le

theorem readBlock_shift (hc : 1 ≤ c.line) (delimiter after : List Char) :
    readBlock d delimiter (c.shift first offset) after =
      shiftResult first offset (TagResult.shift first offset) (readBlock d delimiter c after) := by
  have hline : (c.shift first offset).line = lineFrom first c.line := rfl
  unfold readBlock
  cases rawTag? "raw" d.blockEnd.toList after with
  | some found =>
    obtain ⟨_, strip, rest⟩ := found
    dsimp only
    rw [Cursor.shift_past hc, Cursor.shift_past (Cursor.line_le_past hc _ _), hline]
    exact readRaw_shift (Cursor.line_le_past (Cursor.line_le_past hc _ _) _ _) _
  | none =>
    dsimp only
    rw [readMarked_shift hc]
    cases hread : readMarked .blockBegin .blockEnd d.blockEnd.toList delimiter c after with
    | error e => rfl
    | ok tag =>
      have hafter :
          (tag.after.shift first offset).skipNewline = tag.after.skipNewline.shift first offset :=
        skipNewline_shift (line_le_readMarked hc hread)
      have htrim : (if d.trimBlocks && !(tag.shift first offset).strip then
          { tag.shift first offset with after := (tag.shift first offset).after.skipNewline }
            else tag.shift first offset) =
          (if d.trimBlocks && !tag.strip then { tag with after := tag.after.skipNewline } else tag).shift
            first offset := by
        have hstrip : (tag.shift first offset).strip = tag.strip := rfl
        rw [hstrip]
        split
        · rw [TagResult.shift, TagResult.shift, hafter]
        · rfl
      exact congrArg Except.ok htrim

/-- **Whatever an opening delimiter opens.** -/
theorem readTag_shift (hc : 1 ≤ c.line) (found : Opened) :
    readTag d found (c.shift first offset) =
      shiftResult first offset (TagResult.shift first offset) (readTag d found c) := by
  unfold readTag
  match found.opening with
  | .comment => exact readComment_shift hc _ _
  | .block => exact readBlock_shift hc _ _
  | .variable => exact readMarked_shift hc _ _ _ _ _

/-! ### Templates -/

/-- **The rest of a template**, by the rounds of the lexer. -/
theorem templateTokens_shift (hc : 1 ≤ c.line) :
    templateTokens d strip (c.shift first offset) =
      shiftResult first offset (List.map (Token.shift first offset)) (templateTokens d strip c) := by
  have hrest (c : Cursor) : (c.shift first offset).rest = c.rest := rfl
  fun_induction templateTokens d strip c
  case case1 strip c hend =>
    rw [templateTokens, hrest, if_pos hend]
    rfl
  case case2 strip c hend hnone =>
    rw [templateTokens, hrest, if_neg hend, hnone]
    dsimp only
    rw [dataToken_shift hc, Cursor.shift_past hc]
    show _ = Except.ok _
    simp [Cursor.endToken, Cursor.shift_tokenTo]
  case case3 strip c hend found hfound start e hread =>
    have hstart : readTag d found (start.shift first offset) = .error (e.shift first offset) := by
      rw [readTag_shift (Cursor.line_le_past hc _ _), hread]
      rfl
    rw [templateTokens, hrest, if_neg hend, hfound]
    dsimp only
    rw [Cursor.shift_past hc, hstart]
    rfl
  case case4 strip c hend found hfound data start tag hread hlt ih =>
    have hstart : readTag d found (start.shift first offset) = .ok (tag.shift first offset) := by
      rw [readTag_shift (Cursor.line_le_past hc _ _), hread]
      rfl
    have hafter : 1 ≤ tag.after.line := by
      have houtcome := outcome_of_opening hfound hc
      rw [hread] at houtcome
      exact Nat.le_trans hc ((leads_inside hfound).trans houtcome.1).line_le
    have hmore :
        templateTokens d (tag.shift first offset).strip (tag.shift first offset).after = _ := ih hafter
    rw [templateTokens, hrest, if_neg hend, hfound]
    dsimp only
    rw [Cursor.shift_past hc, hstart]
    dsimp only
    have hshorter : (tag.shift first offset).after.rest.length < c.rest.length := hlt
    rw [if_pos hshorter, dataToken_shift hc, hmore]
    cases templateTokens d tag.strip tag.after with
    | error e => rfl
    | ok ts =>
      have happend : (data ++ tag.tokens ++ ts).map (Token.shift first offset) =
          data.map (Token.shift first offset) ++ (tag.shift first offset).tokens ++
            ts.map (Token.shift first offset) := by
        rw [List.map_append, List.map_append]
        rfl
      exact congrArg Except.ok happend.symm
  case case5 strip c hend found hfound start tag hread hlt =>
    have hstart : readTag d found (start.shift first offset) = .ok (tag.shift first offset) := by
      rw [readTag_shift (Cursor.line_le_past hc _ _), hread]
      rfl
    rw [templateTokens, hrest, if_neg hend, hfound]
    dsimp only
    rw [Cursor.shift_past hc, hstart]
    have hlonger : ¬ (tag.shift first offset).after.rest.length < c.rest.length := hlt
    dsimp only
    rw [if_neg hlonger]
    rfl

/-! ### The same lines -/

/-- **Aligned cursors**: the same text is left at the same line. -/
structure Cursor.Aligned (c c' : Cursor) : Prop where
  rest : c.rest = c'.rest
  line : c.line = c'.line

variable {c' : Cursor}

/-- The text of one of them begins further on. -/
theorem Cursor.Aligned.exists_shift (h : c.Aligned c') :
    (∃ n, c' = c.shift 1 n) ∨ ∃ n, c = c'.shift 1 n := by
  obtain ⟨rest, offset, line⟩ := c
  obtain ⟨rest', offset', line'⟩ := c'
  obtain ⟨hrest, hline⟩ := h
  obtain rfl : rest = rest' := hrest
  obtain rfl : line = line' := hline
  have hshift {m n : Nat} (h : m ≤ n) :
      ∃ k, (⟨rest, n, line⟩ : Cursor) = Cursor.shift 1 k ⟨rest, m, line⟩ := by
    obtain ⟨k, rfl⟩ := Nat.exists_eq_add_of_le h
    exact ⟨k, rfl⟩
  exact (Nat.le_total offset offset').imp hshift hshift

theorem Cursor.aligned_shift (n : Nat) : c.Aligned (c.shift 1 n) :=
  ⟨rfl, rfl⟩

theorem Token.seen_shift (n : Nat) (ts : List Token) :
    (ts.map (Token.shift 1 n)).map (Token.seen true) = ts.map (Token.seen true) := by
  rw [List.map_map]
  rfl

theorem Cursor.Aligned.skipNewline (h : c.Aligned c') : c.skipNewline.Aligned c'.skipNewline := by
  obtain ⟨rest, offset, line⟩ := c
  obtain ⟨rest', offset', line'⟩ := c'
  obtain ⟨hrest, hline⟩ := h
  obtain rfl : rest = rest' := hrest
  obtain rfl : line = line' := hline
  unfold Cursor.skipNewline
  dsimp only
  split
  · exact ⟨rfl, rfl⟩
  · split <;> exact ⟨rfl, rfl⟩

/-- What is found at one of two places is found at the other one. -/
theorem exists_of_shiftResult {α : Type} {g : Nat → α → α} {f : Cursor → Except SyntaxError α}
    (hf : ∀ (c : Cursor) n, 1 ≤ c.line → f (c.shift 1 n) = shiftResult 1 n (g n) (f c))
    (h : c.Aligned c') (hc : 1 ≤ c.line) {x : α} (hx : f c = .ok x) :
    ∃ x', f c' = .ok x' ∧ ((∃ n, x' = g n x) ∨ ∃ n, x = g n x') := by
  rcases h.exists_shift with ⟨n, rfl⟩ | ⟨n, rfl⟩
  · exact ⟨g n x, by rw [hf c n hc, hx]; rfl, .inl ⟨n, rfl⟩⟩
  · have hc' : 1 ≤ c'.line := hc
    rw [hf c' n hc'] at hx
    cases hx' : f c' with
    | error e =>
      rw [hx'] at hx
      cases hx
    | ok x' =>
      rw [hx'] at hx
      exact ⟨x', rfl, .inr ⟨n, (Except.ok.inj hx).symm⟩⟩

/-- **The same tag** at two places. -/
theorem aligned_read {closing : Option Closing} {previous : Option TokenType} {tag : TagTokens}
    (h : c.Aligned c') (hc : 1 ≤ c.line) (htag : TagTokens.read closing previous [] c = .ok tag) :
    ∃ tag', TagTokens.read closing previous [] c' = .ok tag' ∧
      tag.tokens.map (Token.seen true) = tag'.tokens.map (Token.seen true) ∧
        tag.after.Aligned tag'.after ∧ tag.dashed = tag'.dashed := by
  have hread (c : Cursor) (n : Nat) (hc : 1 ≤ c.line) :
      TagTokens.read closing previous ([].map (Bracket.shift 1)) (c.shift 1 n) =
        shiftResult 1 n (TagTokens.shift 1 n) (TagTokens.read closing previous [] c) :=
    TagTokens.read_shift hc
  obtain ⟨tag', htag', hshift⟩ := exists_of_shiftResult hread h hc htag
  refine ⟨tag', htag', ?_⟩
  rcases hshift with ⟨n, rfl⟩ | ⟨n, rfl⟩
  · exact ⟨(Token.seen_shift n _).symm, Cursor.aligned_shift n, rfl⟩
  · exact ⟨Token.seen_shift n _, ⟨rfl, rfl⟩, rfl⟩

/-- **The same rest of a template** at two places. -/
theorem aligned_templateTokens {ts : List Token} (h : c.Aligned c') (hc : 1 ≤ c.line)
    (hts : templateTokens d strip c = .ok ts) : ∃ ts', templateTokens d strip c' = .ok ts' ∧
      ts.map (Token.seen true) = ts'.map (Token.seen true) := by
  obtain ⟨ts', hts', hshift⟩ := exists_of_shiftResult (g := fun n => List.map (Token.shift 1 n))
    (fun _ _ hc => templateTokens_shift hc) h hc hts
  refine ⟨ts', hts', ?_⟩
  rcases hshift with ⟨n, rfl⟩ | ⟨n, rfl⟩
  · exact (Token.seen_shift n _).symm
  · exact Token.seen_shift n _

end LiquidTemplate
