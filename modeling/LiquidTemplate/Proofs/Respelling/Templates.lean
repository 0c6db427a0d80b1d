import LiquidTemplate.Proofs.Echoes.Grammars
import LiquidTemplate.Proofs.Lexing.TrimmedNewlines
import LiquidTemplate.Proofs.Respelling.Tags

/-!
# Templates with the two spellings

A template has the same tokens on the same lines, whichever way the name of an `elif` tag is written.
What is behind the name is read from the same text, which only stands at another offset. Thus both
templates have the same tree.

* `named_of_readTag`: the tag with a name is a tag of its own, or it is further on.
* `readTag_named`: the tag with the name.
* `templateTokens_named`: all tokens, by the rounds of the lexer.
* `Delimiters.Respelled`: templates that differ in the name of a tag.
* `Environment.parseTemplate_respelled`: they have the same tree.
-/

namespace LiquidTemplate

open Text

variable {w w' b x y : List Char} {d : Delimiters} {c : Cursor}

/-! ### Tags with tokens -/

section Tokens

variable {t mark : Token} {more : List Token}

/-- The first token of a tag stands behind blanks. -/
theorem TagCourse.lo_eq {closing : Option Closing} {previous : Option TokenType} {opened : List Bracket}
    {tag : TagTokens} (h : TagCourse closing previous opened c tag) (htokens : tag.tokens = t :: more) :
    t.span.lo = c.skipBlanks.offset := by
  cases h with
  | finish => cases htokens
  | close => exact (List.cons.inj htokens).1 ▸ rfl
  | token => exact (List.cons.inj htokens).1 ▸ rfl

/-- **A block tag**, which is not that of a raw block. -/
theorem readBlock_eq {delimiter after : List Char}
    (hraw : rawTag? "raw" d.blockEnd.toList after = none) :
    readBlock d delimiter c after =
      (TagTokens.read (some ⟨d.blockEnd.toList, .blockEnd⟩) (some (.mark .blockBegin)) []
        (c.past (delimiter ++ dash (optionalDash after).1) (optionalDash after).2)).map fun tag =>
          ⟨c.tokenTo (.mark .blockBegin) (c.past delimiter after) :: tag.tokens,
            if (d.trimBlocks && !tag.dashed) = true then tag.after.skipNewline else tag.after,
            tag.dashed⟩ := by
  unfold readBlock
  rw [hraw, readMarked_eq]
  cases TagTokens.read (some ⟨d.blockEnd.toList, .blockEnd⟩) (some (.mark .blockBegin)) []
      (c.past (delimiter ++ dash (optionalDash after).1) (optionalDash after).2) with
  | error e => rfl
  | ok tag =>
    refine congrArg Except.ok ?_
    dsimp only
    split <;> rfl

/-- A stretch of text is one token at most, without a mark. -/
theorem dataToken_kind (text : List Char) (stripStart stripEnd : Bool) :
    ∀ u ∈ dataToken c text stripStart stripEnd, ∃ data, u.kind = .data data := by
  unfold dataToken
  extract_lets kept start shown
  split
  · exact nofun
  · exact List.forall_mem_singleton.2 ⟨_, rfl⟩

/-- **Tokens that begin a block tag.** -/
def Token.BeginsBlock (t : Token) : Prop :=
  t.kind = .mark .blockBegin

/-- Stretches of text do not begin tags. -/
theorem dataToken_begins {text : List Char} {stripStart stripEnd : Bool} :
    ∀ u ∈ dataToken c text stripStart stripEnd, ¬ u.BeginsBlock := by
  intro u hu hmark
  obtain ⟨data, hdata⟩ := dataToken_kind _ _ _ u hu
  cases hdata.symm.trans hmark

/-- A tag that begins with the mark of a block tag is one. -/
theorem exists_of_blockBegin {found : Opened} {tag : TagResult} (hread : readTag d found c = .ok tag)
    (htokens : tag.tokens = mark :: more) (hmark : mark.BeginsBlock) :
    found.opening = .block ∧ rawTag? "raw" d.blockEnd.toList found.after = none := by
  obtain ⟨before, opening, delimiter, after⟩ := found
  have hhead : mark ∈ tag.tokens := htokens ▸ List.mem_cons_self
  match opening with
  | .comment =>
    have hread : readComment d delimiter c after = .ok tag := hread
    unfold readComment at hread
    split at hread
    · cases hread
    · obtain rfl := Except.ok.inj hread
      cases hhead
  | .variable =>
    have hread :
        readMarked .variableBegin .variableEnd d.variableEnd.toList delimiter c after = .ok tag := hread
    rw [readMarked_eq] at hread
    obtain ⟨inner, -, rfl⟩ := exists_of_map_eq_ok hread
    obtain ⟨rfl, -⟩ := List.cons.inj htokens
    cases hmark
  | .block =>
    refine ⟨rfl, ?_⟩
    have hread : readBlock d delimiter c after = .ok tag := hread
    show rawTag? "raw" d.blockEnd.toList after = none
    cases hraw : rawTag? "raw" d.blockEnd.toList after with
    | none => rfl
    | some found =>
      obtain ⟨dashed, strip, rest⟩ := found
      unfold readBlock readRaw at hread
      rw [hraw] at hread
      dsimp only at hread
      split at hread
      · cases hread
      · obtain rfl := Except.ok.inj hread
        obtain ⟨data, hdata⟩ := dataToken_kind _ _ _ mark hhead
        rw [hmark] at hdata
        cases hdata

/-- **The mark of a block tag** is the first token of its tag. -/
theorem marks_of_readTag {found : Opened} {tag : TagResult} (hread : readTag d found c = .ok tag) :
    ∃ inside, (∀ u ∈ inside, ¬ u.BeginsBlock) ∧
      (tag.tokens = inside ∨ inside ≠ [] ∧ ∃ first, tag.tokens = first :: inside) := by
  have hmarked {opening closing : Mark} {closer delimiter after : List Char} {tag : TagResult}
      (hclosing : closing ≠ .blockBegin)
      (hread : readMarked opening closing closer delimiter c after = .ok tag) :
      ∃ inside, (∀ u ∈ inside, ¬ u.BeginsBlock) ∧ inside ≠ [] ∧
        ∃ first, tag.tokens = first :: inside := by
    obtain ⟨first, inside, last, h⟩ := marked_of_ok hread
    refine ⟨inside ++ [last], List.forall_mem_append.2 ⟨fun u hu hmark => ?_,
      List.forall_mem_singleton.2 fun hmark => ?_⟩, by simp, first, h.tokens⟩
    · have hinner := h.inner u hu
      rw [show u.kind = .mark .blockBegin from hmark] at hinner
      exact hinner.elim
    · exact hclosing (Token.Kind.mark.inj (h.last_kind.symm.trans hmark))
  obtain ⟨before, opening, delimiter, after⟩ := found
  match opening with
  | .comment =>
    have hread : readComment d delimiter c after = .ok tag := hread
    unfold readComment at hread
    split at hread
    · cases hread
    · obtain rfl := Except.ok.inj hread
      exact ⟨[], by simp, .inl rfl⟩
  | .variable =>
    obtain ⟨inside, hinside, hne, hfirst⟩ := hmarked (by decide) hread
    exact ⟨inside, hinside, .inr ⟨hne, hfirst⟩⟩
  | .block =>
    have hread : readBlock d delimiter c after = .ok tag := hread
    unfold readBlock at hread
    split at hread
    · unfold readRaw at hread
      dsimp only at hread
      split at hread
      · cases hread
      · obtain rfl := Except.ok.inj hread
        exact ⟨_, dataToken_begins, .inl rfl⟩
    · cases hinner : readMarked .blockBegin .blockEnd d.blockEnd.toList delimiter c after with
      | error e =>
        rw [hinner] at hread
        cases hread
      | ok marked =>
        rw [hinner] at hread
        obtain rfl := Except.ok.inj hread
        obtain ⟨inside, hinside, hne, hfirst⟩ := hmarked (by decide) hinner
        refine ⟨inside, hinside, .inr ⟨hne, ?_⟩⟩
        split <;> exact hfirst

/-- An element behind a front without elements of its kind. -/
theorem exists_of_append_cons {α : Type} {p : α → Prop} {front back as bs : List α} {a : α}
    (h : as ++ bs = front ++ a :: back) (has : ∀ u ∈ as, ¬ p u) (ha : p a) :
    ∃ behind, bs = behind ++ a :: back := by
  rcases List.append_eq_append_iff.1 h with ⟨behind, -, hbehind⟩ | ⟨before, has', hbefore⟩
  · exact ⟨behind, hbehind⟩
  · match before, hbefore with
    | [], hbefore => exact ⟨[], hbefore.symm⟩
    | u :: _, hbefore =>
      obtain ⟨rfl, -⟩ := List.cons.inj hbefore
      exact absurd ha (has a (has' ▸ by simp))

/-- A block tag begins at a tag or behind it. -/
theorem named_of_readTag {found : Opened} {tag : TagResult} {ts front back : List Token}
    (hread : readTag d found c = .ok tag) (htokens : tag.tokens ++ ts = front ++ mark :: t :: back)
    (hmark : mark.BeginsBlock) :
    (∃ more, tag.tokens = mark :: t :: more) ∨ ∃ behind, ts = behind ++ mark :: t :: back := by
  obtain ⟨inside, hinside, rfl | ⟨hne, first, hfirst⟩⟩ := marks_of_readTag hread
  · exact .inr (exists_of_append_cons htokens hinside hmark)
  · rw [hfirst] at htokens ⊢
    match front, inside, htokens with
    | [], [], _ => exact absurd rfl hne
    | [], u :: inside, htokens =>
      obtain ⟨hfirst, htokens⟩ := List.cons.inj htokens
      obtain ⟨hname, -⟩ := List.cons.inj htokens
      exact .inl ⟨inside, by rw [hfirst, hname]⟩
    | u :: front, inside, htokens =>
      exact .inr (exists_of_append_cons (List.cons.inj htokens).2 hinside hmark)

end Tokens

/-! ### Places -/

/-- A cursor that is not behind a word leaves it. -/
theorem Cursor.Leads.exists_before {e : Cursor} {cs : List Char} (h : c.Leads e)
    (hrest : c.rest = x ++ cs) (hoffset : e.offset ≤ c.offset + byteSize x) :
    ∃ y, e.rest = y ++ cs ∧ c.offset + byteSize x = e.offset + byteSize y := by
  obtain ⟨taken, rest, htext, rfl⟩ := h
  have hsize : byteSize taken ≤ byteSize x := Nat.le_of_add_le_add_left hoffset
  rcases List.append_eq_append_iff.1 (hrest.symm.trans htext) with ⟨z, rfl, rfl⟩ | ⟨z, rfl, rfl⟩
  · match z with
    | [] => exact ⟨[], rfl, by rw [List.append_nil]; rfl⟩
    | a :: z =>
      have hpos := a.utf8Size_pos
      rw [byteSize_append, byteSize_cons] at hsize
      omega
  · exact ⟨z, rfl, by rw [byteSize_append, ← Nat.add_assoc]; rfl⟩

theorem Cursor.Yields.le_lo {t : Token} (h : c.Yields t) : c.offset ≤ t.span.lo := by
  cases h with
  | token hd _ _ =>
    obtain ⟨taken, rest, -, rfl⟩ := hd
    exact Nat.le_add_right ..

/-! ### Respelled templates -/

section Named

variable {t mark : Token} {more : List Token} {found : Opened} {tag : TagResult}
variable (hw : IsElif w) (hw' : IsElif w') (hd : d.Spare w')
variable (hmark : mark.BeginsBlock) (ht : t.kind = .name "elif")
include hmark

/-- The name in a block tag is behind the opening delimiter. -/
theorem le_lo_of_readTag (hread : readTag d found c = .ok tag)
    (htokens : tag.tokens = mark :: t :: more) :
    c.offset + byteSize found.delimiter ≤ t.span.lo := by
  obtain ⟨hopening, hraw⟩ := exists_of_blockBegin hread htokens hmark
  obtain ⟨before, opening, delimiter, after⟩ := found
  obtain rfl : opening = .block := hopening
  have hread : readBlock d delimiter c after = .ok tag := hread
  rw [readBlock_eq hraw] at hread
  obtain ⟨inner, hinner, rfl⟩ := exists_of_map_eq_ok hread
  have hlo := (tagCourse_of_ok hinner).lo_eq (List.cons.inj htokens).2
  have hblanks := (Cursor.leads_skipBlanks
    (c.past (delimiter ++ dash (optionalDash after).1) (optionalDash after).2)).offset_le
  rw [hlo]
  refine Nat.le_trans ?_ hblanks
  show c.offset + byteSize delimiter ≤ c.offset + byteSize (delimiter ++ dash (optionalDash after).1)
  rw [byteSize_append]
  omega

include hw hw' hd ht

/-- **The tag with the name.** -/
theorem readTag_named (hread : readTag d found c = .ok tag) (hfound : found.after = x ++ (w ++ b))
    (hc : 1 ≤ c.line) (htokens : tag.tokens = mark :: t :: more)
    (hlo : t.span.lo = c.offset + byteSize (found.delimiter ++ x)) (rest : List Char) :
    ∃ tag', readTag d { found with after := x ++ (w' ++ b) } (c.before rest) = .ok tag' ∧
      tag.tokens.map (Token.seen true) = tag'.tokens.map (Token.seen true) ∧
        tag.after.Aligned tag'.after ∧ tag.strip = tag'.strip ∧ tag'.after.rest.length ≤ b.length := by
  obtain ⟨hopening, hraw⟩ := exists_of_blockBegin hread htokens hmark
  obtain ⟨before, opening, delimiter, after⟩ := found
  obtain rfl : opening = .block := hopening
  obtain rfl : after = x ++ (w ++ b) := hfound
  have hend : Spares w' d.blockEnd.toList := hd _ (by simp [Delimiters.texts])
  have hraw' := rawTag?_none hw.stem hw'.stem (by decide) hend hraw
  have hread : readBlock d delimiter c (x ++ (w ++ b)) = .ok tag := hread
  have hdash : dash (optionalDash x).1 ++ (optionalDash x).2 = x := (optionalDash_eq x).1
  rw [readBlock_eq hraw, optionalDash_word hw.stem] at hread
  obtain ⟨inner, hinner, rfl⟩ := exists_of_map_eq_ok hread
  -- between the delimiter and the name there is a dash and blanks
  have hblanks : trimStart (optionalDash x).2 = [] := by
    have hstart := (tagCourse_of_ok hinner).lo_eq (List.cons.inj htokens).2
    rw [skipBlanks_word hw.stem rfl, hlo] at hstart
    have hstart : c.offset + byteSize (delimiter ++ x) =
        c.offset + byteSize (delimiter ++ dash (optionalDash x).1) +
          byteSize ((optionalDash x).2.takeWhile isBlank) := hstart
    have hsplit :
        (optionalDash x).2.takeWhile isBlank ++ trimStart (optionalDash x).2 = (optionalDash x).2 :=
      List.takeWhile_append_dropWhile
    have hsize : byteSize (trimStart (optionalDash x).2) = 0 := by
      have hx := congrArg byteSize hdash
      have hrest := congrArg byteSize hsplit
      simp only [byteSize_append] at hstart hx hrest
      omega
    cases htrim : trimStart (optionalDash x).2 with
    | nil => rfl
    | cons a _ =>
      have hpos := a.utf8Size_pos
      rw [htrim, byteSize_cons] at hsize
      omega
  obtain ⟨inner', hinner', hseen, hafter, hdashed, hlength⟩ := read_named hw hw' hend
    (Cursor.line_le_past hc _ _) rfl hblanks hinner (List.cons.inj htokens).2 ht
  have hread' : readTag d ⟨before, .block, delimiter, x ++ (w' ++ b)⟩ (c.before rest) = _ :=
    readBlock_eq hraw'
  rw [optionalDash_word hw'.stem] at hread'
  refine ⟨_, hread'.trans (congrArg (Except.map _) hinner'), ?_, ?_, hdashed, ?_⟩
  · show _ :: inner.tokens.map _ = _ :: inner'.tokens.map _
    rw [hseen]
    rfl
  · dsimp only
    rw [← hdashed]
    split
    · exact hafter.skipNewline
    · exact hafter
  · dsimp only
    split
    · exact Nat.le_trans inner'.after.leads_skipNewline.length_le hlength
    · exact hlength

omit hmark ht in
/-- The tag in front of which the other text stands. -/
theorem templateTokens_of_tag {strip : Bool} {tag' : TagResult} (h : c.rest = x ++ (w ++ b))
    (hfound : findOpening? d.openings c.rest = some found) (hy : (found.inside c).rest = y ++ (w ++ b))
    (htag' : readTag d { found with after := y ++ (w' ++ b) }
      ((c.past found.before (found.delimiter ++ found.after)).before
        (found.delimiter ++ (y ++ (w' ++ b)))) = .ok tag') :
    templateTokens d strip (c.before (x ++ (w' ++ b))) =
      if tag'.after.rest.length < (x ++ (w' ++ b)).length then
        (templateTokens d tag'.strip tag'.after).map fun ts =>
          dataToken c found.before strip (found.after.head? == some '-') ++ tag'.tokens ++ ts
      else .error (tag'.after.error .nestedTooDeep) := by
  have hopenings : ∀ o ∈ d.openings, Spares w' o.2 := by
    rintro ⟨o, delimiter⟩ ho
    rw [mem_openings ho]
    refine hd _ ?_
    cases o <;> simp [Delimiters.texts, Delimiters.start]
  have hrest : (c.before (x ++ (w' ++ b))).rest.isEmpty ≠ true :=
    fun hend => hw'.stem.ne_nil x (List.isEmpty_iff.1 hend)
  rw [h] at hfound
  have hfound' : findOpening? d.openings (c.before (x ++ (w' ++ b))).rest = _ :=
    findOpening?_fits hw.stem hw'.stem hopenings hfound hy
  have hhead : (y ++ (w' ++ b)).head? = found.after.head? := by
    obtain ⟨more, rfl, -⟩ := hw.stem.head
    obtain ⟨more', rfl, -⟩ := hw'.stem.head
    rw [show found.after = y ++ ('e' :: 'l' :: more ++ b) from hy]
    cases y <;> rfl
  rw [templateTokens, if_neg hrest, hfound']
  dsimp only
  rw [hhead]
  have hstart : (c.before (x ++ (w' ++ b))).past found.before (found.delimiter ++ (y ++ (w' ++ b))) =
    (c.past found.before (found.delimiter ++ found.after)).before
      (found.delimiter ++ (y ++ (w' ++ b))) := rfl
  rw [hstart, htag']
  rfl

/-- **The template with the name.** -/
theorem templateTokens_named {strip : Bool} {tokens front back : List Token}
    (hts : templateTokens d strip c = .ok tokens) (h : c.rest = x ++ (w ++ b)) (hc : 1 ≤ c.line)
    (htokens : tokens = front ++ mark :: t :: back) (hlo : t.span.lo = c.offset + byteSize x) :
    ∃ tokens', templateTokens d strip (c.before (x ++ (w' ++ b))) = .ok tokens' ∧
      tokens.map (Token.seen true) = tokens'.map (Token.seen true) := by
  fun_induction templateTokens d strip c generalizing x tokens front
  case case1 hend => exact absurd (h.symm.trans (List.isEmpty_iff.1 hend)) (hw.stem.ne_nil _)
  case case2 strip c hend hnone =>
    obtain rfl := Except.ok.inj hts
    obtain ⟨behind, hbehind⟩ :=
      exists_of_append_cons (p := Token.BeginsBlock) htokens dataToken_begins hmark
    have hlength := congrArg List.length hbehind
    simp at hlength
    omega
  case case3 => cases hts
  case case5 => cases hts
  case case4 strip c hend found hfound data start tag hread hlt ih =>
    obtain ⟨ts, hmore, rfl⟩ := exists_of_map_eq_ok hts
    have hinside := leads_inside hfound
    have hbehind := inside_leads hfound hread
    have hafter : 1 ≤ tag.after.line := Nat.le_trans hc (hinside.trans hbehind).line_le
    rw [List.append_assoc] at htokens
    obtain ⟨front, htokens⟩ :=
      exists_of_append_cons (p := Token.BeginsBlock) htokens dataToken_begins hmark
    -- the tag of the name is this one, or it is further on
    rcases named_of_readTag hread htokens hmark with ⟨more, hnamed⟩ | ⟨behind, hnamed⟩
    · have hle : (found.inside c).offset ≤ c.offset + byteSize x := by
        have hstart := le_lo_of_readTag hmark hread hnamed
        rw [hlo] at hstart
        refine Nat.le_trans (Nat.le_of_eq ?_) hstart
        show c.offset + byteSize (found.before ++ found.delimiter) =
          c.offset + byteSize found.before + byteSize found.delimiter
        rw [byteSize_append, Nat.add_assoc]
      obtain ⟨y, hy, hsize⟩ := hinside.exists_before h hle
      have hplace : t.span.lo = start.offset + byteSize (found.delimiter ++ y) := by
        rw [hlo, hsize]
        show c.offset + byteSize (found.before ++ found.delimiter) + byteSize y =
          c.offset + byteSize found.before + byteSize (found.delimiter ++ y)
        simp only [byteSize_append, Nat.add_assoc]
      obtain ⟨tag', htag', hseen, haligned, hstrip, hlength⟩ := readTag_named hw hw' hd hmark ht hread hy
        (Cursor.line_le_past hc _ _) hnamed hplace (found.delimiter ++ (y ++ (w' ++ b)))
      obtain ⟨ts', hts', hseen'⟩ := aligned_templateTokens haligned hafter hmore
      refine ⟨data ++ tag'.tokens ++ ts', ?_, by simp only [List.map_append, hseen, hseen']⟩
      rw [templateTokens_of_tag hw hw' hd h hfound hy htag', if_pos, ← hstrip, hts']
      · rfl
      · have hpos := List.length_pos_iff.2 (hw'.stem.ne_nil (b := []) [])
        simp only [List.nil_append, List.append_nil] at hpos
        rw [List.length_append, List.length_append]
        omega
    · have hmem : t ∈ ts := hnamed ▸ by simp
      have hle : tag.after.offset ≤ c.offset + byteSize x :=
        hlo ▸ (yields_of_templateTokens hmore t hmem).le_lo
      obtain ⟨y, hy, -⟩ := hinside.exists_before h (Nat.le_trans hbehind.offset_le hle)
      obtain ⟨z, hz, hsize⟩ := (hinside.trans hbehind).exists_before h hle
      have htag' := readTag_fits hw.stem hw'.stem hd hread hy hz (found.delimiter ++ (y ++ (w' ++ b)))
      obtain ⟨ts', hts', hseen⟩ := ih hmore hz hafter hnamed (hlo.trans hsize)
      refine ⟨data ++ tag.tokens ++ ts', ?_, by simp only [List.map_append, hseen]⟩
      rw [templateTokens_of_tag hw hw' hd h hfound hy htag', if_pos, hts']
      · rfl
      · rw [hz, h] at hlt
        simp only [List.length_append] at hlt ⊢
        show (z ++ (w' ++ b)).length < _
        simp only [List.length_append]
        omega

end Named

/-! ### Sources -/

/-- **A block tag at the cursor** between the default delimiters, and the rest of the template. -/
theorem lexes_block {c : Cursor} {strip : Bool} {after : List Char} {tag : TagTokens} {ts : List Token}
    (hc : c.rest = '\x7b' :: '%' :: after)
    (hraw : rawTag? "raw" ({} : Delimiters).blockEnd.toList after = none)
    (htag : TagTokens.read (some ⟨({} : Delimiters).blockEnd.toList, .blockEnd⟩)
      (some (.mark .blockBegin)) []
        (c.past (['\x7b', '%'] ++ dash (optionalDash after).1) (optionalDash after).2) = .ok tag)
    (next : Lexes {} tag.dashed tag.after (.ok ts)) :
    Lexes {} strip c
      (.ok (c.tokenTo (.mark .blockBegin) (c.past ['\x7b', '%'] after) :: tag.tokens ++ ts)) := by
  have hfound :
      findOpening? ({} : Delimiters).openings c.rest = some ⟨[], .block, ['\x7b', '%'], after⟩ := by
    have hopenings : ({} : Delimiters).openings = _ := openings_defaults false false
    rw [hopenings, hc]
    rfl
  have hread : readTag {} ⟨[], .block, ['\x7b', '%'], after⟩ (c.past [] (['\x7b', '%'] ++ after)) = .ok
      ⟨c.tokenTo (.mark .blockBegin) (c.past ['\x7b', '%'] after) :: tag.tokens, tag.after,
        tag.dashed⟩ :=
    (readBlock_eq hraw).trans (congrArg (Except.map _) htag)
  have hdata (stripEnd : Bool) : dataToken c [] strip stripEnd = [] := by
    cases strip <;> cases stripEnd <;> rfl
  have hround : Lexes {} strip c _ := .tag hfound hread next
  rw [hdata] at hround
  exact hround

/-- A newline at the end is behind any character that is none. -/
theorem dropFinalNewline_append {front cs : List Char} {a : Char} (hfront : front.reverse = a :: cs)
    (hreturn : a ≠ '\r') (hnewline : a ≠ '\n') (b : List Char) :
    dropFinalNewline (front ++ b) = front ++ dropFinalNewline b := by
  obtain ⟨back, rfl⟩ : ∃ back, b = back.reverse := ⟨b.reverse, (List.reverse_reverse b).symm⟩
  have hreverse : (front ++ back.reverse).reverse = back ++ a :: cs := by
    rw [List.reverse_append, List.reverse_reverse, hfront]
  have hkept : (a :: cs).reverse = front := by rw [← hfront, List.reverse_reverse]
  unfold dropFinalNewline
  rw [hreverse, List.reverse_reverse]
  cases back with
  | nil => simp [hnewline]
  | cons u back =>
    by_cases hu : u = '\n'
    · subst hu
      cases back with
      | nil => simp [hreturn, hkept]
      | cons v back =>
        by_cases hv : v = '\r'
        · subst hv
          simp [hkept]
        · simp [hv, hkept]
    · simp [hu]

theorem IsElif.textOf_eq (hw : IsElif w) {source : String} (h : source.toList = x ++ (w ++ b)) :
    d.textOf source = x ++ (w ++ if d.keepTrailingNewline then b else dropFinalNewline b) := by
  have hdropped : dropFinalNewline (x ++ w ++ b) = x ++ w ++ dropFinalNewline b := by
    rcases hw with rfl | rfl
    · exact dropFinalNewline_append (a := 'f') (by simp; rfl) (by decide) (by decide) b
    · exact dropFinalNewline_append (a := 'f') (by simp; rfl) (by decide) (by decide) b
  rw [List.append_assoc, List.append_assoc] at hdropped
  unfold Delimiters.textOf
  rw [h]
  split
  · rfl
  · exact hdropped

/-- **Templates that differ in the name of a tag**: the other one has a spelling of `elif` where this
one has a spelling of it as the name of a block tag. -/
inductive Delimiters.Respelled (d : Delimiters) (source : String) : String → Prop where
  | tag {front back : List Token} {mark t : Token} {before w w' behind : List Char}
      (htokens : Token.ofTemplate d source = .ok (front ++ mark :: t :: back))
      (hmark : mark.kind = .mark .blockBegin) (ht : t.kind = .name "elif")
      (htext : source.toList = before ++ (w ++ behind)) (hplace : t.span.lo = byteSize before)
      (hw : IsElif w) (hw' : IsElif w') : Respelled d source (String.ofList (before ++ (w' ++ behind)))

/-- **Such templates have the same tokens** on the same lines. -/
theorem Delimiters.Respelled.tokens {source source' : String} (hd : ∀ w, IsElif w → d.Spare w)
    (h : d.Respelled source source') : ∃ tokens tokens', Token.ofTemplate d source = .ok tokens ∧
      Token.ofTemplate d source' = .ok tokens' ∧
        tokens.map (Token.seen true) = tokens'.map (Token.seen true) := by
  cases h with
  | @tag _ _ _ _ before w w' behind htokens hmark ht htext hplace hw hw' =>
    have htokens' := htokens
    unfold Token.ofTemplate at htokens'
    rw [hw.textOf_eq htext] at htokens'
    obtain ⟨tokens', htokens', hseen⟩ := templateTokens_named hw hw' (hd w' hw') hmark ht htokens' rfl
      (Nat.le_refl 1) rfl (hplace.trans (Nat.zero_add _).symm)
    refine ⟨_, tokens', htokens, ?_, hseen⟩
    unfold Token.ofTemplate
    rw [hw'.textOf_eq String.toList_ofList]
    exact htokens'

/-- **Such templates have the same tree**, if any. -/
theorem Environment.parseTemplate_respelled {env : Environment} (henv : ∀ y ∈ env.extensions, y.Known)
    (hd : ∀ w, IsElif w → env.delimiters.Spare w) {source source' : String}
    (h : env.delimiters.Respelled source source') (name filename : Option String) :
    (env.parseTemplate source name filename).toOption =
      (env.parseTemplate source' name filename).toOption := by
  obtain ⟨tokens, tokens', htokens, htokens', hseen⟩ := h.tokens hd
  rw [parseTemplate_eq name filename htokens, parseTemplate_eq name filename htokens']
  refine Environment.parseStream_congr henv ?_
  rw [TokenStream.tokens_ofTokens, TokenStream.tokens_ofTokens, TokenStream.close_ofTemplate htokens,
    TokenStream.close_ofTemplate htokens', hseen]

end LiquidTemplate
