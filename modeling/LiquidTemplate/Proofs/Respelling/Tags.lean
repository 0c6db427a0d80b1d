import LiquidTemplate.Proofs.Lexing.Shifted
import LiquidTemplate.Proofs.Respelling.Delimiters
import LiquidTemplate.Proofs.Scanning.Rounds

/-!
# The two spellings of a tag

`elif` and `elsif` are the same tag. Whatever is read before such a name is read before the other one,
since no delimiter goes over it, and the name itself gives the same token.

* `Delimiters.Spare`: the delimiters of a template spare a word.
* `TagTokens.read_fits`, `readTag_fits`: what is read before the name.
* `IsElif`: the two spellings.
* `read_named`: the tokens of a tag from its name on.
-/

namespace LiquidTemplate

open Text

variable {w w' b x y : List Char} {d : Delimiters} {c : Cursor}

/-- The same place in a text of which something else is left. -/
def Cursor.before (c : Cursor) (rest : List Char) : Cursor :=
  ⟨rest, c.offset, c.line⟩

/-- Where a text is left further on, it is left here as well. -/
theorem Cursor.Leads.exists_left {e : Cursor} {cs : List Char} (h : c.Leads e)
    (hrest : e.rest = y ++ cs) : ∃ z, c.rest = z ++ cs := by
  obtain ⟨taken, rest, htext, rfl⟩ := h
  obtain rfl : rest = y ++ cs := hrest
  exact ⟨taken ++ y, by rw [htext, List.append_assoc]⟩

/-- The delimiters of a template. -/
def Delimiters.texts (d : Delimiters) : List String :=
  [d.blockStart, d.blockEnd, d.variableStart, d.variableEnd, d.commentStart, d.commentEnd]

/-- **The delimiters spare a word.** -/
def Delimiters.Spare (d : Delimiters) (w : List Char) : Prop :=
  ∀ text ∈ d.texts, Spares w text.toList

instance (d : Delimiters) (w : List Char) : Decidable (d.Spare w) :=
  inferInstanceAs (Decidable (∀ text ∈ d.texts, _))

section Words

variable (hw : Stem w) (hw' : Stem w')
include hw hw'

/-! ### Before the name -/

omit hw' in
theorem skipBlanks_word (h : c.rest = x ++ (w ++ b)) :
    c.skipBlanks = c.past (x.takeWhile isBlank) (trimStart x ++ (w ++ b)) := by
  rw [Cursor.skipBlanks, h, hw.takeWhile rfl, hw.trimStart]

/-- The blanks before the word. -/
theorem skipBlanks_before (h : c.rest = x ++ (w ++ b)) :
    (c.before (x ++ (w' ++ b))).skipBlanks = c.skipBlanks.before (trimStart x ++ (w' ++ b)) := by
  have hleft : (c.before (x ++ (w' ++ b))).rest = x ++ (w' ++ b) := rfl
  rw [skipBlanks_word hw' hleft, skipBlanks_word hw h]
  rfl

theorem nextToken_fits {previous : Option TokenType} {opened after : List Bracket} {t : Token}
    {e : Cursor}
    (hnext : nextToken previous opened c = .ok (t, after, e)) (h : c.rest = x ++ (w ++ b))
    (hrest : e.rest = y ++ (w ++ b)) :
    nextToken previous opened (c.before (x ++ (w' ++ b))) =
      .ok (t, after, e.before (y ++ (w' ++ b))) := by
  obtain ⟨l, hl, rfl, rfl⟩ := exists_of_nextToken hnext
  rw [h] at hl
  have hl' : Lexeme.scan previous opened (c.before (x ++ (w' ++ b))).line
      (c.before (x ++ (w' ++ b))).rest = _ :=
    Lexeme.scan_fits hw hw' hl hrest
  rw [nextToken, hl']
  rfl

theorem TagTokens.close?_none {closing : Option Closing}
    (hclosing : ∀ y ∈ closing, Spares w' y.delimiter)
    {opened : List Bracket} (h : c.rest = x ++ (w ++ b))
    (hnone : TagTokens.close? closing opened c = none) :
    TagTokens.close? closing opened (c.before (x ++ (w' ++ b))) = none := by
  cases opened with
  | cons bracket outer => cases closing <;> rfl
  | nil =>
    cases closing with
    | none => rfl
    | some closing =>
      rw [TagTokens.close?, h, Option.map_eq_none_iff] at hnone
      rw [TagTokens.close?, Option.map_eq_none_iff]
      exact Closing.match?_none hw hw' (hclosing closing rfl) hnone

theorem TagTokens.close?_fits {closing : Option Closing}
    (hclosing : ∀ y ∈ closing, Spares w' y.delimiter)
    {opened : List Bracket} {tag : TagTokens} (h : c.rest = x ++ (w ++ b))
    (hsome : TagTokens.close? closing opened c = some tag) (hafter : tag.after.rest = y ++ (w ++ b)) :
    TagTokens.close? closing opened (c.before (x ++ (w' ++ b))) =
      some { tag with after := tag.after.before (y ++ (w' ++ b)) } := by
  cases opened with
  | cons bracket outer => cases closing <;> cases hsome
  | nil =>
    cases closing with
    | none => cases hsome
    | some closing =>
      obtain ⟨⟨dashed, taken, rest⟩, hmatch, rfl⟩ := Option.map_eq_some_iff.1 hsome
      obtain rfl : rest = y ++ (w ++ b) := hafter
      rw [h] at hmatch
      have hmatch' := Closing.match?_fits hw hw' (hclosing closing rfl) hmatch
      exact Option.map_eq_some_iff.2 ⟨_, hmatch', rfl⟩

/-- **The tokens of a tag before the name.** -/
theorem TagTokens.read_fits {closing : Option Closing} (hclosing : ∀ y ∈ closing, Spares w' y.delimiter)
    {previous : Option TokenType} {opened : List Bracket} {tag : TagTokens}
    (hread : TagTokens.read closing previous opened c = .ok tag) (h : c.rest = x ++ (w ++ b))
    (hafter : tag.after.rest = y ++ (w ++ b)) :
    TagTokens.read closing previous opened (c.before (x ++ (w' ++ b))) =
      .ok { tag with after := tag.after.before (y ++ (w' ++ b)) } := by
  have hskip {c : Cursor} {x : List Char} (h : c.rest = x ++ (w ++ b)) :
      c.skipBlanks.rest = trimStart x ++ (w ++ b) := congrArg Cursor.rest (skipBlanks_word hw h)
  have hmore {c : Cursor} {x : List Char} (h : c.rest = x ++ (w ++ b)) :
      (c.before (x ++ (w' ++ b))).skipBlanks.rest ≠ [] := by
    rw [skipBlanks_before hw hw' h]
    exact hw'.ne_nil _
  fun_induction TagTokens.read closing previous opened c generalizing x tag
  case case1 previous opened c d hend =>
    exact absurd ((hskip h).symm.trans (List.isEmpty_iff.1 hend)) (hw.ne_nil _)
  case case2 previous opened c d _ found hclose =>
    obtain rfl := Except.ok.inj hread
    refine read_of_close (hmore h) ?_
    rw [skipBlanks_before hw hw' h]
    exact TagTokens.close?_fits hw hw' hclosing (hskip h) hclose hafter
  case case3 => cases hread
  case case4 previous opened c d _ hopen t after e hnext ih =>
    obtain ⟨tag, htag, rfl⟩ := exists_of_map_eq_ok hread
    obtain ⟨z, hz⟩ := (tagCourse_of_ok htag).leads.exists_left hafter
    have hopen' := TagTokens.close?_none hw hw' hclosing (hskip h) hopen
    have hnext' := nextToken_fits hw hw' hnext (hskip h) hz
    rw [← skipBlanks_before hw hw' h] at hopen' hnext'
    rw [read_of_token (hmore h) hopen' hnext', ih htag hz hafter]
    rfl

omit hw hw' in
/-- What is taken before the word does not depend on it. -/
theorem consumed_fits {cs : List Char} (h : y ++ cs <:+ x ++ cs) (cs' : List Char) :
    consumed (x ++ cs') (y ++ cs') = consumed (x ++ cs) (y ++ cs) := by
  obtain ⟨taken, htext⟩ := h
  rw [← List.append_assoc] at htext
  obtain rfl := List.append_cancel_right htext
  rw [List.append_assoc, List.append_assoc, consumed_append, consumed_append]

theorem readMarked_fits {opening closing : Mark} {closer delimiter : List Char}
    (hcloser : Spares w' closer)
    {tag : TagResult} (hread : readMarked opening closing closer delimiter c (x ++ (w ++ b)) = .ok tag)
    (hafter : tag.after.rest = y ++ (w ++ b)) (rest : List Char) :
    readMarked opening closing closer delimiter (c.before rest) (x ++ (w' ++ b)) =
      .ok { tag with after := tag.after.before (y ++ (w' ++ b)) } := by
  rw [readMarked_eq, optionalDash_word hw] at hread
  obtain ⟨inner, hinner, rfl⟩ := exists_of_map_eq_ok hread
  have hclosing : ∀ z ∈ some (⟨closer, closing⟩ : Closing), Spares w' z.delimiter := by
    rintro _ ⟨⟩
    exact hcloser
  have hinner' := TagTokens.read_fits hw hw' hclosing hinner rfl hafter
  rw [readMarked_eq, optionalDash_word hw']
  exact congrArg (Except.map _) hinner'

theorem readComment_fits {delimiter : List Char} (hend : Spares w' d.commentEnd.toList) {tag : TagResult}
    (hread : readComment d delimiter c (x ++ (w ++ b)) = .ok tag)
    (hafter : tag.after.rest = y ++ (w ++ b))
    (rest : List Char) : readComment d delimiter (c.before rest) (x ++ (w' ++ b)) =
      .ok { tag with after := tag.after.before (y ++ (w' ++ b)) } := by
  unfold readComment at hread ⊢
  split at hread
  · cases hread
  · next inside behind hcut =>
    obtain rfl := Except.ok.inj hread
    obtain rfl : behind = y ++ (w ++ b) := hafter
    rw [cut?_fits hw hw' hend hcut]
    rfl

theorem readRaw_fits (hstart : Spares w' d.blockStart.toList) (hend : Spares w' d.blockEnd.toList)
    {line : Nat} {strip : Bool} {tag : TagResult} (h : c.rest = x ++ (w ++ b))
    (hread : readRaw d line strip c = .ok tag) (hafter : tag.after.rest = y ++ (w ++ b)) :
    readRaw d line strip (c.before (x ++ (w' ++ b))) =
      .ok { tag with after := tag.after.before (y ++ (w' ++ b)) } := by
  unfold readRaw at hread ⊢
  rw [h] at hread
  split at hread
  · cases hread
  · next found hfound =>
    obtain rfl := Except.ok.inj hread
    have hafter : found.after = y ++ (w ++ b) := hafter
    have hfound' : rawEnd? d (c.before (x ++ (w' ++ b))).rest = _ :=
      rawEnd?_fits hw hw' hstart hend hfound hafter
    have hbehind : found.after <:+ x ++ (w ++ b) := by
      obtain ⟨part, htext, -⟩ := rawEnd?_eq hfound
      exact ⟨_, htext.symm⟩
    rw [hafter] at hbehind ⊢
    rw [hfound', ← consumed_fits hbehind (w' ++ b)]
    rfl

omit hw hw' in
/-- Where the word is left behind a raw block, it is left before it. -/
theorem exists_of_readRaw {line : Nat} {strip : Bool} {tag : TagResult}
    (hread : readRaw d line strip c = .ok tag)
    (hafter : tag.after.rest = y ++ (w ++ b)) : ∃ z, c.rest = z ++ (w ++ b) := by
  unfold readRaw at hread
  split at hread
  · cases hread
  · next found hfound =>
    obtain rfl := Except.ok.inj hread
    obtain ⟨part, htext, -⟩ := rawEnd?_eq hfound
    have hafter : found.after = y ++ (w ++ b) := hafter
    exact ⟨found.before ++ part ++ y, by rw [htext, hafter]; simp⟩

omit hw in
theorem skipNewline_fits (h : c.rest = x ++ (w ++ b)) (hafter : c.skipNewline.rest = y ++ (w ++ b)) :
    (c.before (x ++ (w' ++ b))).skipNewline = c.skipNewline.before (y ++ (w' ++ b)) := by
  have hreturn : Apart ['\r', '\n'] := by decide
  have hnewline : Apart ['\n'] := by decide
  have hleft : (c.before (x ++ (w' ++ b))).rest = x ++ (w' ++ b) := rfl
  unfold Cursor.skipNewline at hafter ⊢
  rw [h] at hafter ⊢
  rw [hleft]
  split at hafter
  · next rest hrest =>
    obtain rfl : rest = y ++ (w ++ b) := hafter
    rw [after?_fits hrest]
    rfl
  · next hnoreturn =>
    rw [hreturn.after?_none hw' hnoreturn]
    dsimp only
    split at hafter
    · next rest hrest =>
      obtain rfl : rest = y ++ (w ++ b) := hafter
      rw [after?_fits hrest]
      rfl
    · next hnonewline =>
      rw [hnewline.after?_none hw' hnonewline]
      dsimp only
      rw [h] at hafter
      rw [List.append_cancel_right hafter]

variable (hd : d.Spare w')
include hd

theorem readBlock_fits {delimiter : List Char} {tag : TagResult}
    (hread : readBlock d delimiter c (x ++ (w ++ b)) = .ok tag) (hafter : tag.after.rest = y ++ (w ++ b))
    (rest : List Char) : readBlock d delimiter (c.before rest) (x ++ (w' ++ b)) =
      .ok { tag with after := tag.after.before (y ++ (w' ++ b)) } := by
  have hstart : Spares w' d.blockStart.toList := hd _ (by simp [Delimiters.texts])
  have hend : Spares w' d.blockEnd.toList := hd _ (by simp [Delimiters.texts])
  unfold readBlock at hread ⊢
  split at hread
  · next dashed strip behind hraw =>
    obtain ⟨z, rfl⟩ : ∃ z, behind = z ++ (w ++ b) := exists_of_readRaw hread hafter
    have hsuffix : z ++ (w ++ b) <:+ x ++ (w ++ b) := by
      obtain ⟨-, before, blanks, -, -, htext⟩ := rawTag?_eq hraw
      exact ⟨_, htext.symm⟩
    rw [rawTag?_fits hw hw' (by decide) hend hraw]
    dsimp only
    rw [consumed_fits hsuffix]
    exact readRaw_fits hw hw' hstart hend rfl hread hafter
  · next hraw =>
    rw [rawTag?_none hw hw' (by decide) hend hraw]
    dsimp only
    cases hmarked : readMarked .blockBegin .blockEnd d.blockEnd.toList delimiter c (x ++ (w ++ b)) with
    | error e =>
      rw [hmarked] at hread
      cases hread
    | ok marked =>
      rw [hmarked] at hread
      obtain rfl := Except.ok.inj hread
      by_cases htrim : (d.trimBlocks && !marked.strip) = true
      · rw [if_pos htrim] at hafter ⊢
        obtain ⟨z, hz⟩ := marked.after.leads_skipNewline.exists_left hafter
        rw [readMarked_fits hw hw' hend hmarked hz, ← skipNewline_fits hw' hz hafter]
        exact congrArg Except.ok (if_pos htrim)
      · rw [if_neg htrim] at hafter ⊢
        rw [readMarked_fits hw hw' hend hmarked hafter]
        exact congrArg Except.ok (if_neg htrim)

/-- **A tag before the name.** -/
theorem readTag_fits {found : Opened} {tag : TagResult} (hread : readTag d found c = .ok tag)
    (hfound : found.after = x ++ (w ++ b)) (hafter : tag.after.rest = y ++ (w ++ b)) (rest : List Char) :
    readTag d { found with after := x ++ (w' ++ b) } (c.before rest) =
      .ok { tag with after := tag.after.before (y ++ (w' ++ b)) } := by
  obtain ⟨before, opening, delimiter, after⟩ := found
  obtain rfl : after = x ++ (w ++ b) := hfound
  match opening with
  | .comment => exact readComment_fits hw hw' (hd _ (by simp [Delimiters.texts])) hread hafter rest
  | .block => exact readBlock_fits hw hw' hd hread hafter rest
  | .variable => exact readMarked_fits hw hw' (hd _ (by simp [Delimiters.texts])) hread hafter rest

end Words

/-! ### The name -/

/-- **The spellings of the tag.** -/
def IsElif (w : List Char) : Prop :=
  w = ['e', 'l', 'i', 'f'] ∨ w = ['e', 'l', 's', 'i', 'f']

namespace IsElif

variable (hw : IsElif w)
include hw

theorem stem : Stem w := by
  rcases hw with rfl | rfl
  · exact ⟨⟨['i', 'f'], rfl, 'i', rfl, by decide⟩, List.all_eq_true.1 rfl⟩
  · exact ⟨⟨['s', 'i', 'f'], rfl, 's', rfl, by decide⟩, List.all_eq_true.1 rfl⟩

theorem newlines_eq : newlines w = 0 := by
  rcases hw with rfl | rfl <;> rfl

/-- **Both spellings give the same token.** -/
theorem nameKind_eq : Lexeme.nameKind (some (.mark .blockBegin)) w = .name "elif" := by
  have hother : "elsif".toList = ['e', 'l', 's', 'i', 'f'] := by simp
  rw [Lexeme.nameKind_eq, hother]
  rcases hw with rfl | rfl <;> rfl

/-- A name that goes on is another one. -/
theorem eq_nil {more : List Char}
    (h : Lexeme.nameKind (some (.mark .blockBegin)) (w ++ more) = .name "elif") : more = [] := by
  have hone : "elif".toList = ['e', 'l', 'i', 'f'] := by simp
  have hother : "elsif".toList = ['e', 'l', 's', 'i', 'f'] := by simp
  have hchars : w ++ more = ['e', 'l', 'i', 'f'] ∨ w ++ more = ['e', 'l', 's', 'i', 'f'] := by
    rw [Lexeme.nameKind_eq] at h
    split at h
    · next hboth => exact .inr (hboth.2.trans hother)
    · refine .inl ?_
      rw [← hone, ← Token.Kind.name.inj h, String.toList_ofList]
  rcases hw with rfl | rfl <;> rcases hchars with hchars | hchars <;> simp_all

end IsElif

/-- A name at the beginning of a text. -/
theorem Lexeme.scan_word (hw : Stem w) (previous : Option TokenType) (opened : List Bracket)
    (line : Nat) :
    scan previous opened line (w ++ b) = .ok (⟨nameKind previous (w ++ b.takeWhile isNameChar),
      w ++ b.takeWhile isNameChar, b.dropWhile isNameChar⟩, opened) := by
  have hname : Literal.name? (w ++ b) = _ := Literal.name?_word hw
  obtain ⟨more, rfl, -⟩ := hw.head
  rw [List.cons_append] at hname ⊢
  rw [scan, literal?, range?_of_head (by decide), float?_of_head (by decide),
    grouped?_of_head (by decide), hname]

/-- **The tag with the name**, from behind its opening delimiter on. -/
theorem read_named {closing : Closing} (hw : IsElif w) (hw' : IsElif w')
    (hclosing : Spares w' closing.delimiter)
    (hc : 1 ≤ c.line) (h : c.rest = x ++ (w ++ b)) (hx : trimStart x = []) {t : Token}
    {more : List Token}
    {tag : TagTokens} (hread : TagTokens.read (some closing) (some (.mark .blockBegin)) [] c = .ok tag)
    (htokens : tag.tokens = t :: more) (ht : t.kind = .name "elif") :
    ∃ tag', TagTokens.read (some closing) (some (.mark .blockBegin)) []
        (c.before (x ++ (w' ++ b))) = .ok tag' ∧
      tag.tokens.map (Token.seen true) = tag'.tokens.map (Token.seen true) ∧
        tag.after.Aligned tag'.after ∧ tag.dashed = tag'.dashed ∧ tag'.after.rest.length ≤ b.length := by
  have hskip : c.skipBlanks.rest = w ++ b := by
    rw [skipBlanks_word hw.stem h, hx]
    rfl
  have hskip' : (c.before (x ++ (w' ++ b))).skipBlanks = c.skipBlanks.before (w' ++ b) := by
    rw [skipBlanks_before hw.stem hw'.stem h, hx]
    rfl
  have hne : c.skipBlanks.rest ≠ [] := hskip ▸ hw.stem.ne_nil []
  cases hopen : TagTokens.close? (some closing) [] c.skipBlanks with
  | some found =>
    obtain ⟨found, -, rfl⟩ := Option.map_eq_some_iff.1 hopen
    rw [TagTokens.read_of_close hne hopen] at hread
    obtain rfl := Except.ok.inj hread
    obtain ⟨rfl, -⟩ := List.cons.inj htokens
    cases ht
  | none =>
    have hclosings : ∀ z ∈ some closing, Spares w' z.delimiter := by
      rintro _ ⟨⟩
      exact hclosing
    have hopen' := TagTokens.close?_none (x := []) hw.stem hw'.stem hclosings hskip hopen
    have hname {w : List Char} (hw : Stem w) (d : Cursor) (hd : d.rest = w ++ b) :
        nextToken (some (.mark .blockBegin)) [] d =
          .ok (d.tokenTo (Lexeme.nameKind (some (.mark .blockBegin)) (w ++ b.takeWhile isNameChar))
              (d.past (w ++ b.takeWhile isNameChar) (b.dropWhile isNameChar)), [],
            d.past (w ++ b.takeWhile isNameChar) (b.dropWhile isNameChar)) := by
      rw [nextToken, hd, Lexeme.scan_word hw]
    have hnext := hname hw.stem _ hskip
    have hnext' := hname hw'.stem (c.skipBlanks.before (w' ++ b)) rfl
    rw [TagTokens.read_of_token hne hopen hnext] at hread
    obtain ⟨inner, hinner, rfl⟩ := exists_of_map_eq_ok hread
    obtain ⟨rfl, -⟩ := List.cons.inj htokens
    -- the name is the whole lexeme
    have hnil : b.takeWhile isNameChar = [] := hw.eq_nil ht
    have hbehind : b.dropWhile isNameChar = b := by
      have htext : b.takeWhile isNameChar ++ b.dropWhile isNameChar = b :=
        List.takeWhile_append_dropWhile
      rwa [hnil] at htext
    rw [hnil, hbehind, List.append_nil, hw'.nameKind_eq] at hnext'
    rw [hnil, hbehind, List.append_nil, hw.nameKind_eq] at hinner ⊢
    have haligned : (c.skipBlanks.past w b).Aligned (c.skipBlanks.past w' b) := by
      refine ⟨rfl, ?_⟩
      show c.skipBlanks.line + newlines w = c.skipBlanks.line + newlines w'
      rw [hw.newlines_eq, hw'.newlines_eq]
    have hline : 1 ≤ (c.skipBlanks.past w b).line := Cursor.line_le_past (Cursor.line_le_past hc _ _) _ _
    obtain ⟨inner', hinner', hseen, hafter, hdashed⟩ := aligned_read haligned hline hinner
    have hne' : (c.before (x ++ (w' ++ b))).skipBlanks.rest ≠ [] := hskip' ▸ hw'.stem.ne_nil []
    let t' := (c.skipBlanks.before (w' ++ b)).tokenTo (.name "elif")
        ((c.skipBlanks.before (w' ++ b)).past w' b)
    have hlength : inner'.after.rest.length ≤ b.length := (tagCourse_of_ok hinner').leads.length_le
    refine ⟨{ inner' with tokens := t' :: inner'.tokens }, ?_, ?_, hafter, hdashed, hlength⟩
    · rw [TagTokens.read_of_token hne' (hskip' ▸ hopen') (hskip' ▸ hnext'), hskip']
      exact congrArg (Except.map _) hinner'
    · rw [List.map_cons, List.map_cons, hseen]
      rfl

end LiquidTemplate
