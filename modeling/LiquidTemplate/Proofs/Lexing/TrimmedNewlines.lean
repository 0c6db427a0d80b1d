import LiquidTemplate.Proofs.Scanning.Rounds
import LiquidTemplate.Proofs.Scanning.Shape

/-!
# Trimmed newlines

A newline right behind a block tag can be trimmed. The lexer goes over it then, and nothing else is
different: no opening delimiter begins with a newline, so that the tags are found at the same places,
and the text before the next of them loses what the lexer has gone over.

* `splitNewline`: the newline at the beginning of a text.
* `blockEnds`, `Token.trimmed`: where block tags end without a dash, and what the text there loses.
* `dataToken_trimmed`, `readTag_trimming`: a stretch of text, and a tag, with and without trimming.
* `lexes_trimmed`: the same for the rounds from a cursor on.
* `trim_blocks`: the tokens of a template.
-/

namespace LiquidTemplate

open Text

/-! ### Newlines at the beginning of a text -/

/-- **A newline at the beginning** of a text, if there is one, and what follows. -/
def splitNewline : List Char → List Char × List Char
  | '\r' :: '\n' :: cs => (['\r', '\n'], cs)
  | '\n' :: cs => (['\n'], cs)
  | cs => ([], cs)

/-- No part of a newline. -/
def NoNewline (c : Char) : Prop :=
  c ≠ '\n' ∧ c ≠ '\r'

instance (c : Char) : Decidable (NoNewline c) :=
  inferInstanceAs (Decidable (_ ∧ _))

theorem splitNewline_eq (cs : List Char) : (splitNewline cs).1 ++ (splitNewline cs).2 = cs := by
  unfold splitNewline
  split <;> rfl

theorem splitNewline_fst (cs : List Char) : (splitNewline cs).1 = [] ∨ (splitNewline cs).1 = ['\n'] ∨
    (splitNewline cs).1 = ['\r', '\n'] := by
  unfold splitNewline
  split
  · exact .inr (.inr rfl)
  · exact .inr (.inl rfl)
  · exact .inl rfl

/-- A text without a newline at its beginning. -/
theorem splitNewline_of_none {cs : List Char} (h : after? ['\r', '\n'] cs = none)
    (h' : after? ['\n'] cs = none) : splitNewline cs = ([], cs) := by
  unfold splitNewline
  split
  · nomatch h
  · nomatch h'
  · rfl

/-- The lexer goes over such a newline. -/
theorem Cursor.skipNewline_eq_past (c : Cursor) :
    c.skipNewline = c.past (splitNewline c.rest).1 (splitNewline c.rest).2 := by
  unfold skipNewline
  split
  · next rest h =>
    rw [after?_eq_some_iff.1 h]
    rfl
  · next hreturn =>
    split
    · next rest h =>
      rw [after?_eq_some_iff.1 h]
      rfl
    · next hnone =>
      rw [splitNewline_of_none hreturn hnone]
      rfl

theorem after?_append_of_none {start cs rest : List Char} (h : after? start cs = none)
    (hrest : ∀ c ∈ rest.head?, c ∉ start) : after? start (cs ++ rest) = none := by
  induction start generalizing cs with
  | nil => nomatch h
  | cons s start ih =>
    cases cs with
    | nil =>
      cases rest with
      | nil => rfl
      | cons c rest =>
        have hne : s ≠ c := fun hs => hrest c rfl (hs ▸ List.mem_cons_self ..)
        exact if_neg hne
    | cons c cs =>
      rw [after?] at h
      rw [List.cons_append, after?]
      split
      · next hs =>
        rw [if_pos hs] at h
        exact ih h fun c hc hmem => hrest c hc (List.mem_cons_of_mem _ hmem)
      · rfl

/-- **What follows a text** does not change the newline at its beginning, unless it begins with a part
of one. -/
theorem splitNewline_append {cs rest : List Char} (h : ∀ c ∈ rest.head?, NoNewline c) :
    splitNewline (cs ++ rest) = ((splitNewline cs).1, (splitNewline cs).2 ++ rest) := by
  cases hreturn : after? ['\r', '\n'] cs with
  | some more =>
    rw [after?_eq_some_iff.1 hreturn]
    rfl
  | none =>
    cases hnewline : after? ['\n'] cs with
    | some more =>
      rw [after?_eq_some_iff.1 hnewline]
      rfl
    | none =>
      rw [splitNewline_of_none hreturn hnewline]
      refine splitNewline_of_none (after?_append_of_none hreturn ?_)
        (after?_append_of_none hnewline ?_)
      · intro c hc
        simpa using ⟨(h c hc).2, (h c hc).1⟩
      · intro c hc
        simpa using (h c hc).1

/-! ### Blanks at the end -/

theorem trimEnd_append (cs ds : List Char) :
    trimEnd (cs ++ ds) = if trimEnd ds = [] then trimEnd cs else cs ++ trimEnd ds := by
  unfold trimEnd
  rw [List.reverse_append, List.dropWhile_append]
  simp only [List.reverse_eq_nil_iff, List.isEmpty_iff]
  split
  · rfl
  · rw [List.reverse_append, List.reverse_reverse]

theorem trimEnd_newline (cs : List Char) : trimEnd (splitNewline cs).1 = [] := by
  obtain h | h | h := splitNewline_fst cs
  all_goals
    rw [h]
    rfl

/-- A part of a text in front has no newline at its beginning, if the text has none. -/
theorem splitNewline_of_append {cs rest : List Char} (h : (splitNewline (cs ++ rest)).1 = []) :
    splitNewline cs = ([], cs) := by
  refine splitNewline_of_none ?_ ?_
  · refine Option.eq_none_iff_forall_ne_some.2 fun more hmore => ?_
    rw [after?_eq_some_iff.1 hmore] at h
    nomatch h
  · refine Option.eq_none_iff_forall_ne_some.2 fun more hmore => ?_
    rw [after?_eq_some_iff.1 hmore] at h
    nomatch h

/-- **A newline and blanks at the end** of a text have nothing to do with each other, if the text has
something else. -/
theorem splitNewline_trimEnd {cs : List Char} (h : trimEnd (splitNewline cs).2 ≠ []) :
    splitNewline (trimEnd cs) = ((splitNewline cs).1, trimEnd (splitNewline cs).2) := by
  have hsplit := splitNewline_eq cs
  have hcs : trimEnd cs = (splitNewline cs).1 ++ trimEnd (splitNewline cs).2 := by
    have happend := trimEnd_append (splitNewline cs).1 (splitNewline cs).2
    rwa [hsplit, if_neg h] at happend
  obtain hnone | hnewline | hreturn := splitNewline_fst cs
  · obtain ⟨trail, -, htrail⟩ := trimEnd_eq cs
    rw [hnone, List.nil_append] at hcs hsplit
    rw [hsplit, hnone]
    have hwhole : (splitNewline (trimEnd cs ++ trail)).1 = [] := by rwa [← htrail]
    exact splitNewline_of_append hwhole
  · rw [hcs, hnewline]
    rfl
  · rw [hcs, hreturn]
    rfl

/-- **The newline at the beginning** is dropped before or behind the blanks at the end, unless there is
nothing else. -/
theorem splitNewline_strippedEnd (stripEnd : Bool) (cs : List Char) :
    strippedEnd stripEnd cs = [] ∧ strippedEnd stripEnd (splitNewline cs).2 = [] ∨
      splitNewline (strippedEnd stripEnd cs) =
        ((splitNewline cs).1, strippedEnd stripEnd (splitNewline cs).2) := by
  cases stripEnd with
  | false => exact .inr rfl
  | true =>
    by_cases h : trimEnd (splitNewline cs).2 = []
    · refine .inl ⟨?_, h⟩
      show trimEnd cs = []
      rw [← splitNewline_eq cs, trimEnd_append, if_pos h, trimEnd_newline]
    · exact .inr (splitNewline_trimEnd h)

/-! ### Texts behind block tags -/

/-- **End of a block tag without a dash**: its span is that of the delimiter. -/
def Token.endsBlock (d : Delimiters) (t : Token) : Bool :=
  t.type == .mark .blockEnd && t.span.length == byteSize d.blockEnd.toList

/-- **The offsets** at which block tags without a dash end. -/
def blockEnds (d : Delimiters) (ts : List Token) : List Nat :=
  (ts.filter (Token.endsBlock d)).map fun t => t.span.hi

/-- A data token without the newline at its beginning; none if nothing is left. -/
def Token.withoutNewline (t : Token) (data : String) : List Token :=
  let (newline, rest) := splitNewline data.toList
  if rest.isEmpty then []
  else [⟨.data (String.ofList rest), t.line + newlines newline,
    ⟨t.span.lo + byteSize newline, t.span.hi⟩⟩]

/-- **A token of a template with trimming**: data that begins at one of the offsets loses its
newline. -/
def Token.trimmed (ends : List Nat) (t : Token) : List Token :=
  match t.kind with
  | .data data => if t.span.lo ∈ ends then t.withoutNewline data else [t]
  | _ => [t]

section Trimmed

variable {d : Delimiters} {ends : List Nat} {t : Token} {ts us : List Token} {c : Cursor}

@[simp] theorem blockEnds_append (ts us : List Token) :
    blockEnds d (ts ++ us) = blockEnds d ts ++ blockEnds d us := by
  simp [blockEnds]

/-- **Other data** is the same. -/
theorem Token.trimmed_eq_self (h : t.type = .data → t.span.lo ∉ ends) : t.trimmed ends = [t] := by
  unfold trimmed
  split
  · next data hk => exact if_neg (h (by rw [type, hk]; rfl))
  · rfl

theorem flatMap_trimmed_eq_self (h : ∀ t ∈ ts, t.type = .data → t.span.lo ∉ ends) :
    ts.flatMap (Token.trimmed ends) = ts := by
  induction ts with
  | nil => rfl
  | cons t ts ih =>
    obtain ⟨ht, hts⟩ := List.forall_mem_cons.1 h
    rw [List.flatMap_cons, Token.trimmed_eq_self ht, ih hts]
    rfl

/-- A stretch of text is no end of a block tag, and lies in its bounds. -/
theorem span_dataToken {text : List Char} {stripStart stripEnd : Bool} :
    ∀ t ∈ dataToken c text stripStart stripEnd, t.type = .data ∧ c.offset ≤ t.span.lo ∧
      t.span.lo < c.offset + byteSize text := by
  obtain ⟨lead, shown, trail, hstripped, hdata⟩ := dataToken_eq c text stripStart stripEnd
  rw [hdata]
  split
  · exact nofun
  · next hne =>
    refine List.forall_mem_singleton.2 ⟨rfl, Nat.le_add_right .., ?_⟩
    have hpos := Nat.lt_of_lt_of_le (List.length_pos_iff.2 hne) (length_le_byteSize shown)
    show c.offset + byteSize lead < _
    rw [hstripped.text_eq]
    simp only [byteSize_append]
    omega

/-- **A stretch of text** with and without trimming. -/
theorem dataToken_trimmed {text : List Char} {stripEnd : Bool} (h : c.offset ∈ ends)
    (rest : List Char) :
    (dataToken c text false stripEnd).flatMap (Token.trimmed ends) =
      dataToken (c.past (splitNewline text).1 rest) (splitNewline text).2 false stripEnd := by
  rw [dataToken_unstripped, dataToken_unstripped]
  obtain ⟨hempty, hempty'⟩ | hsplit := splitNewline_strippedEnd stripEnd text
  · rw [if_pos hempty, if_pos hempty']
    rfl
  · generalize hshown : strippedEnd stripEnd text = shown at hsplit
    generalize hleft : strippedEnd stripEnd (splitNewline text).2 = left at hsplit
    generalize (splitNewline text).1 = newline at hsplit
    have hparts : newline ++ left = shown := by
      have heq := splitNewline_eq shown
      rwa [hsplit] at heq
    cases shown with
    | nil =>
      obtain ⟨rfl, rfl⟩ := List.append_eq_nil_iff.1 hparts
      rfl
    | cons x shown =>
      have htrimmed : Token.trimmed ends ⟨.data (String.ofList (x :: shown)), c.line,
          ⟨c.offset, c.offset + byteSize (x :: shown)⟩⟩ = if left = [] then [] else
            [⟨.data (String.ofList left), c.line + newlines newline,
              ⟨c.offset + byteSize newline, c.offset + byteSize (x :: shown)⟩⟩] := by
        show (if c.offset ∈ ends then _ else _) = _
        rw [if_pos h, Token.withoutNewline, String.toList_ofList, hsplit]
        simp only [List.isEmpty_iff]
      rw [if_neg (List.cons_ne_nil x shown), List.flatMap_singleton, htrimmed, ← hparts,
        byteSize_append, ← Nat.add_assoc]
      rfl

end Trimmed

/-! ### Tags -/

/-- Delimiters with and without trimming. -/
def Delimiters.trimming (d : Delimiters) (trimBlocks : Bool) : Delimiters :=
  { d with trimBlocks }

section Tags

variable {d : Delimiters} {found : Opened} {c : Cursor} {tag : TagResult} {trimBlocks : Bool}

@[simp] theorem openings_trimming (d : Delimiters) (trimBlocks : Bool) :
    (d.trimming trimBlocks).openings = d.openings :=
  rfl

theorem rawEndAt?_trimming (cs : List Char) :
    rawEndAt? (d.trimming trimBlocks) cs = rawEndAt? d cs :=
  rfl

theorem rawEnd?_trimming (cs : List Char) : rawEnd? (d.trimming trimBlocks) cs = rawEnd? d cs := by
  induction cs with
  | nil => rfl
  | cons c cs ih => rw [rawEnd?, rawEnd?, rawEndAt?_trimming, ih]

/-- **The last token of a tag** is the mark of its end, over a dash and the delimiter. -/
theorem TagCourse.last {x : Closing} {previous : Option TokenType} {opened : List Bracket}
    {tag : TagTokens} (h : TagCourse (some x) previous opened c tag) :
    ∃ inside t, tag.tokens = inside ++ [t] ∧ (∀ u ∈ inside, u.kind.Inner) ∧ t.kind = .mark x.mark ∧
      t.span.hi = tag.after.offset ∧
      t.span.hi = t.span.lo + byteSize (dash tag.dashed ++ x.delimiter) := by
  induction h with
  | finish hc _ => nomatch hc
  | close hx _ =>
    obtain rfl := Option.some.inj hx
    exact ⟨[], _, rfl, nofun, rfl, rfl, rfl⟩
  | token _ _ hs _ ih =>
    obtain ⟨inside, t, htokens, hinside, hlast⟩ := ih
    exact ⟨_ :: inside, t, congrArg (_ :: ·) htokens, List.forall_mem_cons.2 ⟨hs.inner, hinside⟩,
      hlast⟩

/-- **The tokens of a tag** between its marks. -/
structure Marked (opening closing : Mark) (closer : List Char) (tag : TagResult)
    (first : Token) (inside : List Token) (last : Token) : Prop where
  tokens : tag.tokens = first :: (inside ++ [last])
  first_kind : first.kind = .mark opening
  inner : ∀ t ∈ inside, t.kind.Inner
  last_kind : last.kind = .mark closing
  last_hi : last.span.hi = tag.after.offset
  last_size : last.span.hi = last.span.lo + byteSize (dash tag.strip ++ closer)

theorem marked_of_ok {opening closing : Mark} {closer delimiter after : List Char}
    (h : readMarked opening closing closer delimiter c after = .ok tag) :
    ∃ first inside last, Marked opening closing closer tag first inside last := by
  unfold readMarked at h
  extract_lets inside at h
  split at h
  next dashed rest hdash =>
    extract_lets start at h
    cases hread : TagTokens.read (some ⟨closer, closing⟩) (some (.mark opening)) [] start with
    | error e =>
      rw [hread] at h
      nomatch h
    | ok inner =>
      rw [hread] at h
      obtain rfl := Except.ok.inj h
      obtain ⟨inside, last, htokens, hinside, hkind, hhi, hsize⟩ := (tagCourse_of_ok hread).last
      exact ⟨_, inside, last, congrArg (_ :: ·) htokens, rfl, hinside, hkind, hhi, hsize⟩

section Marked

variable {opening closing : Mark} {closer : List Char} {first last : Token} {inside : List Token}

theorem Token.Kind.Inner.endsBlock {t : Token} (h : t.kind.Inner) : t.endsBlock d = false := by
  obtain ⟨kind, line, span⟩ := t
  cases kind with
  | mark m => exact h.elim
  | _ => rfl

/-- A tag has no data. -/
theorem Marked.type_ne (h : Marked opening closing closer tag first inside last) :
    ∀ t ∈ tag.tokens, t.type ≠ .data := by
  have hmark {t : Token} {m : Mark} (ht : t.kind = .mark m) : t.type ≠ .data := by
    rw [Token.type, ht]
    simp [Token.Kind.type]
  rw [h.tokens]
  refine List.forall_mem_cons.2 ⟨hmark h.first_kind, List.forall_mem_append.2
    ⟨fun t ht hdata => ?_, List.forall_mem_singleton.2 (hmark h.last_kind)⟩⟩
  have hinner := h.inner t ht
  obtain ⟨kind, line, span⟩ := t
  cases kind with
  | data text => exact hinner.elim
  | _ => cases hdata

/-- Only its last token can be the end of a block tag. -/
theorem Marked.blockEnds_eq (h : Marked opening closing closer tag first inside last)
    (hopening : opening ≠ .blockEnd) : blockEnds d tag.tokens = blockEnds d [last] := by
  have hfirst : first.endsBlock d = false := by
    have htype : (first.type == .mark .blockEnd) = false := by
      rw [Token.type, h.first_kind]
      simpa [Token.Kind.type] using hopening
    rw [Token.endsBlock, htype, Bool.false_and]
  have hinside : inside.filter (Token.endsBlock d) = [] :=
    List.filter_eq_nil_iff.2 fun t ht => by rw [(h.inner t ht).endsBlock]; exact Bool.false_ne_true
  rw [h.tokens, blockEnds, List.filter_cons, hfirst, List.filter_append, hinside]
  rfl

/-- **An output tag** is no block tag. -/
theorem Marked.blockEnds_output (h : Marked .variableBegin .variableEnd closer tag first inside last) :
    blockEnds d tag.tokens = [] := by
  have hlast : last.endsBlock d = false := by
    rw [Token.endsBlock, Token.type, h.last_kind]
    rfl
  rw [h.blockEnds_eq (by decide), blockEnds, List.filter_singleton, hlast]
  rfl

/-- **A block tag** ends without a dash, or its text is stripped. -/
theorem Marked.blockEnds_block
    (h : Marked .blockBegin .blockEnd d.blockEnd.toList tag first inside last) :
    blockEnds d tag.tokens = if tag.strip then [] else [tag.after.offset] := by
  have hlength : last.span.length = byteSize (dash tag.strip ++ d.blockEnd.toList) := by
    rw [Span.length, h.last_size]
    omega
  have htype : last.type = .mark .blockEnd := by rw [Token.type, h.last_kind]; rfl
  have hlast : last.endsBlock d = !tag.strip := by
    rw [Token.endsBlock, htype, hlength]
    cases tag.strip with
    | true =>
      have hdash : '-'.utf8Size = 1 := rfl
      simp [dash, hdash]
    | false => simp [dash]
  rw [h.blockEnds_eq (by decide), blockEnds, List.filter_singleton, hlast]
  cases tag.strip with
  | true => rfl
  | false => exact congrArg (fun o => [o]) h.last_hi

end Marked

/-- **A tag with and without trimming.** The cursor behind it is behind a newline too if that is
trimmed: behind a block tag without a dash. -/
structure Trims (d : Delimiters) (found : Opened) (c : Cursor) (tag : TagResult) (trims : Bool) :
    Prop where
  read : readTag (d.trimming true) found c =
    .ok { tag with after := if trims then tag.after.skipNewline else tag.after }
  strip : trims = true → tag.strip = false
  ends : blockEnds d tag.tokens = if trims then [tag.after.offset] else []
  data : ∀ t ∈ tag.tokens, t.type = .data → c.offset < t.span.lo ∧ t.span.lo < tag.after.offset

/-- The text of a raw block, in its bounds. -/
theorem span_readRaw {line : Nat} {strip : Bool} (h : readRaw d line strip c = .ok tag) :
    ∀ t ∈ tag.tokens, t.type = .data ∧ c.offset ≤ t.span.lo ∧ t.span.lo < tag.after.offset := by
  unfold readRaw at h
  split at h
  · nomatch h
  · next stop hstop =>
    obtain rfl := Except.ok.inj h
    obtain ⟨part, hpart, -⟩ := rawEnd?_eq hstop
    intro t ht
    obtain ⟨htype, hlo, hhi⟩ := span_dataToken t ht
    refine ⟨htype, hlo, ?_⟩
    show t.span.lo < c.offset + byteSize (consumed c.rest stop.after)
    rw [hpart, consumed_append, byteSize_append]
    omega

theorem blockEnds_eq_nil {ts : List Token} (h : ∀ t ∈ ts, t.type = .data) : blockEnds d ts = [] := by
  have hfilter : ts.filter (Token.endsBlock d) = [] :=
    List.filter_eq_nil_iff.2 fun t ht => by rw [Token.endsBlock, h t ht]; nofun
  rw [blockEnds, hfilter]
  rfl

/-- The text of a raw block is read behind its first tag. -/
theorem readTag_raw {dashBefore strip : Bool} {rest : List Char} (hopening : found.opening = .block)
    (hraw : rawTag? "raw" d.blockEnd.toList found.after = some (dashBefore, strip, rest)) :
    readTag (d.trimming trimBlocks) found c = readRaw d c.line strip
      ((c.past found.delimiter found.after).past (consumed found.after rest) rest) := by
  have hcloser : (d.trimming trimBlocks).blockEnd = d.blockEnd := rfl
  rw [readTag, hopening]
  simp only [readBlock, hcloser, hraw, readRaw, rawEnd?_trimming]

/-- Any other block tag is read between its marks. -/
theorem readTag_block (hopening : found.opening = .block)
    (hraw : rawTag? "raw" d.blockEnd.toList found.after = none) :
    readTag (d.trimming trimBlocks) found c =
      (readMarked .blockBegin .blockEnd d.blockEnd.toList found.delimiter c found.after).map fun tag =>
        if trimBlocks && !tag.strip then { tag with after := tag.after.skipNewline } else tag := by
  have hcloser : (d.trimming trimBlocks).blockEnd = d.blockEnd := rfl
  rw [readTag, hopening]
  simp only [readBlock, hcloser, hraw]
  cases readMarked .blockBegin .blockEnd d.blockEnd.toList found.delimiter c found.after <;> rfl

theorem readTag_comment (hopening : found.opening = .comment) :
    readTag (d.trimming trimBlocks) found c = readComment d found.delimiter c found.after := by
  rw [readTag, hopening]
  rfl

theorem readTag_output (hopening : found.opening = .variable) :
    readTag (d.trimming trimBlocks) found c = readMarked .variableBegin .variableEnd
      d.variableEnd.toList found.delimiter c found.after := by
  rw [readTag, hopening]
  rfl

/-- **Every tag** is the same with and without trimming, up to a newline behind it. -/
theorem trims_of_readTag (hne : found.delimiter ≠ [])
    (h : readTag (d.trimming false) found c = .ok tag) : ∃ trims, Trims d found c tag trims := by
  match hopening : found.opening with
  | .comment =>
    rw [readTag_comment hopening] at h
    have htokens : tag.tokens = [] := by
      unfold readComment at h
      split at h
      · nomatch h
      · rw [← Except.ok.inj h]
    exact ⟨false, by rw [readTag_comment hopening, h]; rfl, nofun, by rw [htokens]; rfl,
      by rw [htokens]; nofun⟩
  | .variable =>
    rw [readTag_output hopening] at h
    obtain ⟨first, inside, last, hmarked⟩ := marked_of_ok h
    exact ⟨false, by rw [readTag_output hopening, h]; rfl, nofun, hmarked.blockEnds_output,
      fun t ht hdata => absurd hdata (hmarked.type_ne t ht)⟩
  | .block =>
    cases hraw : rawTag? "raw" d.blockEnd.toList found.after with
    | some raw =>
      obtain ⟨dashBefore, strip, rest⟩ := raw
      rw [readTag_raw hopening hraw] at h
      have hspan := span_readRaw h
      refine ⟨false, by rw [readTag_raw hopening hraw, h]; rfl, nofun,
        blockEnds_eq_nil fun t ht => (hspan t ht).1, fun t ht _ => ⟨?_, (hspan t ht).2.2⟩⟩
      have hlo := (hspan t ht).2.1
      have hpos := Nat.lt_of_lt_of_le (List.length_pos_iff.2 hne) (length_le_byteSize _)
      have hstart : ((c.past found.delimiter found.after).past (consumed found.after rest) rest).offset =
          c.offset + byteSize found.delimiter + byteSize (consumed found.after rest) := rfl
      omega
    | none =>
      rw [readTag_block hopening hraw] at h
      obtain ⟨marked, hmarked, htag⟩ := exists_of_map_eq_ok h
      obtain rfl : marked = tag := htag
      obtain ⟨first, inside, last, hmarks⟩ := marked_of_ok hmarked
      refine ⟨!marked.strip, ?_, by simp, ?_, fun t ht hdata => absurd hdata (hmarks.type_ne t ht)⟩
      · rw [readTag_block hopening hraw, hmarked]
        show Except.ok (if !marked.strip then _ else _) = _
        split <;> rfl
      · rw [hmarks.blockEnds_block]
        cases marked.strip <;> rfl

/-- **An error in a tag** has nothing to do with trimming. -/
theorem readTag_error {e : SyntaxError} (h : readTag (d.trimming false) found c = .error e) :
    readTag (d.trimming true) found c = .error e := by
  match hopening : found.opening with
  | .comment => rwa [readTag_comment hopening] at h ⊢
  | .variable => rwa [readTag_output hopening] at h ⊢
  | .block =>
    cases hraw : rawTag? "raw" d.blockEnd.toList found.after with
    | some raw => rwa [readTag_raw hopening hraw] at h ⊢
    | none =>
      rw [readTag_block hopening hraw] at h ⊢
      rw [error_of_map_eq_error h]
      rfl

end Tags

/-! ### Opening delimiters behind a newline -/

/-- **Delimiters without newlines**: no opening delimiter is empty, and none has a part of a newline. -/
structure Delimiters.OnLines (d : Delimiters) : Prop where
  start_ne : ∀ o, d.start o ≠ ""
  noNewline : ∀ o, ∀ c ∈ (d.start o).toList, NoNewline c

section Openings

variable {d : Delimiters} {found : Opened} {c : Cursor}

theorem Delimiters.OnLines.head_noNewline (hd : d.OnLines) (o : Opening) (rest : List Char) :
    ∀ c ∈ ((d.start o).toList ++ rest).head?, NoNewline c := by
  intro c hc
  have hne : (d.start o).toList ≠ [] := by simpa using hd.start_ne o
  rw [List.head?_append_of_ne_nil _ hne] at hc
  exact hd.noNewline o c (List.mem_of_mem_head? hc)

/-- No opening delimiter begins with a newline. -/
theorem openingAt?_newline (hd : d.OnLines) {x : Char} (hx : ¬ NoNewline x) (cs : List Char) :
    openingAt? d.openings (x :: cs) = none := by
  refine Option.eq_none_iff_forall_ne_some.2 fun found hfound => ?_
  obtain ⟨⟨o, delimiter⟩, hmem, ho⟩ := List.exists_of_findSome?_eq_some hfound
  obtain ⟨rest, hrest, -⟩ := Option.map_eq_some_iff.1 ho
  rw [mem_openings hmem] at hrest
  have htext := after?_eq_some_iff.1 hrest
  refine hx (hd.head_noNewline o rest x ?_)
  rw [← htext]
  rfl

/-- **Behind a newline** the same delimiter is found. -/
theorem findOpening?_newline (hd : d.OnLines) {newline : List Char}
    (h : ∀ x ∈ newline, ¬ NoNewline x) (cs : List Char) : findOpening? d.openings (newline ++ cs) =
      (findOpening? d.openings cs).map fun found =>
        { found with before := newline ++ found.before } := by
  induction newline with
  | nil => exact Option.map_id'.symm
  | cons x newline ih =>
    obtain ⟨hx, hnewline⟩ := List.forall_mem_cons.1 h
    rw [List.cons_append, findOpening?, openingAt?_newline hd hx, ih hnewline, Option.map_map]
    rfl

theorem not_noNewline_of_mem {cs : List Char} : ∀ x ∈ (splitNewline cs).1, ¬ NoNewline x := by
  obtain h | h | h := splitNewline_fst cs
  all_goals
    rw [h]
    simp [NoNewline]

theorem skipNewline_none (hd : d.OnLines) (h : findOpening? d.openings c.rest = none) :
    findOpening? d.openings c.skipNewline.rest = none := by
  rw [← splitNewline_eq c.rest, findOpening?_newline hd not_noNewline_of_mem] at h
  rw [c.skipNewline_eq_past]
  exact Option.map_eq_none_iff.1 h

/-- **The first opening delimiter** behind a newline at the cursor: the text before it has lost what
the lexer has gone over. -/
theorem skipNewline_found (hd : d.OnLines) (h : findOpening? d.openings c.rest = some found) :
    findOpening? d.openings c.skipNewline.rest =
      some { found with before := (splitNewline found.before).2 } := by
  obtain ⟨htext, hdelimiter⟩ := findOpening?_eq h
  have hsplit : splitNewline c.rest = ((splitNewline found.before).1,
      (splitNewline found.before).2 ++ (found.delimiter ++ found.after)) := by
    rw [htext]
    refine splitNewline_append ?_
    rw [hdelimiter]
    exact hd.head_noNewline _ _
  have hnewline : (splitNewline c.rest).1 = (splitNewline found.before).1 := by rw [hsplit]
  rw [← splitNewline_eq c.rest, findOpening?_newline hd not_noNewline_of_mem, hnewline] at h
  obtain ⟨later, hlater, hfound⟩ := Option.map_eq_some_iff.1 h
  have hbefore : (splitNewline found.before).2 = later.before := by
    have htexts := congrArg Opened.before hfound
    exact List.append_cancel_left ((splitNewline_eq found.before).trans htexts.symm)
  rw [c.skipNewline_eq_past]
  show findOpening? d.openings (splitNewline c.rest).2 = _
  rw [hlater, hbefore, ← hfound]

end Openings

/-! ### The rounds -/

section Rounds

variable {d : Delimiters} {strip : Bool} {c : Cursor} {result : Except SyntaxError (List Token)}

theorem Delimiters.OnLines.delimiter_ne {found : Opened} (hd : d.OnLines)
    (hfound : findOpening? d.openings c.rest = some found) : found.delimiter ≠ [] := by
  rw [(findOpening?_eq hfound).2]
  simpa using hd.start_ne found.opening

/-- A tag ends behind the text in front of it. -/
theorem offset_lt_of_readTag {found : Opened} {tag : TagResult} (hd : d.OnLines)
    (hfound : findOpening? d.openings c.rest = some found)
    (hread : readTag (d.trimming false) found
      (c.past found.before (found.delimiter ++ found.after)) = .ok tag) :
    c.offset + byteSize found.before < tag.after.offset := by
  have hle := (inside_leads (d := d.trimming false) hfound hread).offset_le
  have hpos := byteSize_delimiter_pos hd.start_ne hfound
  have hinside : (found.inside c).offset = c.offset + byteSize (found.before ++ found.delimiter) := rfl
  rw [hinside, byteSize_append] at hle
  omega

/-- The ends of block tags are behind the cursor. -/
theorem lt_of_mem_blockEnds (hd : d.OnLines) {ts : List Token}
    (h : Lexes (d.trimming false) strip c (.ok ts)) : ∀ o ∈ blockEnds d ts, c.offset < o := by
  generalize hresult : Except.ok ts = result at h
  induction h generalizing ts with
  | finish =>
    obtain rfl := Except.ok.inj hresult
    exact nofun
  | @last strip c hmore hnone =>
    obtain rfl := Except.ok.inj hresult
    rw [blockEnds_append, blockEnds_eq_nil fun t ht => (span_dataToken t ht).1]
    exact nofun
  | fault => nomatch hresult
  | @tag strip c found tag result hfound hread next ih =>
    obtain ⟨more, hmore, rfl⟩ := exists_of_map_eq_ok hresult.symm
    obtain ⟨trims, htrims⟩ := trims_of_readTag (hd.delimiter_ne hfound) hread
    have hlt := offset_lt_of_readTag hd hfound hread
    rw [blockEnds_append, blockEnds_append, blockEnds_eq_nil fun t ht => (span_dataToken t ht).1,
      htrims.ends]
    intro o ho
    rcases List.mem_append.1 ho with ho | ho
    · cases trims with
      | true =>
        obtain rfl : o = tag.after.offset := by simpa using ho
        omega
      | false => nomatch ho
    · have hnext := ih hmore.symm o ho
      omega

/-- **Where a round begins with trimming**: behind a newline, if a block tag without a dash ends at
the cursor. -/
def Cursor.behind (c : Cursor) (earlier : List Nat) : Cursor :=
  if c.offset ∈ earlier then c.skipNewline else c

/-- What is left of the text at the cursor. -/
def Cursor.left (c : Cursor) (earlier : List Nat) (text : List Char) : List Char :=
  if c.offset ∈ earlier then (splitNewline text).2 else text

variable {earlier ends : List Nat} {text rest : List Char} {stripEnd : Bool} {found : Opened}

/-- The newline at the cursor is that of a text there, if nothing follows that begins with one. -/
theorem skipNewline_of_text (htext : c.rest = text ++ rest) (hrest : ∀ x ∈ rest.head?, NoNewline x) :
    c.skipNewline = c.past (splitNewline text).1 ((splitNewline text).2 ++ rest) := by
  rw [c.skipNewline_eq_past, htext, splitNewline_append hrest]

theorem behind_past (htext : c.rest = text ++ rest) (hrest : ∀ x ∈ rest.head?, NoNewline x)
    (more : List Char) : (c.behind earlier).past (c.left earlier text) more = c.past text more := by
  unfold Cursor.behind Cursor.left
  split
  · rw [skipNewline_of_text htext hrest, Cursor.past_past, splitNewline_eq]
  · rfl

/-- **A stretch of text** at the cursor with and without trimming, if no block tag ends in it. -/
theorem dataToken_behind (htext : c.rest = text ++ rest) (hrest : ∀ x ∈ rest.head?, NoNewline x)
    (hearlier : ∀ o ∈ earlier, o ≤ c.offset) (hstrip : c.offset ∈ earlier → strip = false)
    (hends : ∀ o ∈ ends, c.offset + byteSize text ≤ o) :
    (dataToken c text strip stripEnd).flatMap (Token.trimmed (earlier ++ ends)) =
      dataToken (c.behind earlier) (c.left earlier text) strip stripEnd := by
  unfold Cursor.behind Cursor.left
  split
  · next h =>
    rw [hstrip h, skipNewline_of_text htext hrest]
    exact dataToken_trimmed (List.mem_append_left _ h) _
  · next h =>
    refine flatMap_trimmed_eq_self fun t ht _ hmem => ?_
    obtain ⟨-, hlo, hhi⟩ := span_dataToken t ht
    rcases List.mem_append.1 hmem with hmem | hmem
    · have hle := hearlier _ hmem
      exact h (Nat.le_antisymm hlo hle ▸ hmem)
    · have hle := hends _ hmem
      omega

/-- **The opening delimiter** of a round with trimming is at the same place. -/
theorem behind_found (hd : d.OnLines) (hfound : findOpening? d.openings c.rest = some found) :
    findOpening? d.openings (c.behind earlier).rest =
      some { found with before := c.left earlier found.before } := by
  unfold Cursor.behind Cursor.left
  split
  · exact skipNewline_found hd hfound
  · exact hfound

theorem behind_none (hd : d.OnLines) (hnone : findOpening? d.openings c.rest = none) :
    findOpening? d.openings (c.behind earlier).rest = none := by
  unfold Cursor.behind
  split
  · exact skipNewline_none hd hnone
  · exact hnone

theorem rest_behind (c : Cursor) : (c.behind earlier).rest = c.left earlier c.rest := by
  unfold Cursor.behind Cursor.left
  split
  · rw [c.skipNewline_eq_past]
    rfl
  · rfl

/-- The last text of a template. -/
theorem lexes_last (hd : d.OnLines) (hnone : findOpening? d.openings c.rest = none)
    (hearlier : ∀ o ∈ earlier, o ≤ c.offset) (hstrip : c.offset ∈ earlier → strip = false) :
    Lexes (d.trimming true) strip (c.behind earlier)
      (.ok ((dataToken c c.rest strip false ++ [(c.past c.rest []).endToken]).flatMap
        (Token.trimmed earlier))) := by
  have hrest : c.rest = c.rest ++ [] := (List.append_nil _).symm
  have hdata : (dataToken c c.rest strip false).flatMap (Token.trimmed (earlier ++ [])) = _ :=
    dataToken_behind hrest nofun hearlier hstrip nofun
  have hend : ((c.past c.rest []).endToken).trimmed earlier = [(c.past c.rest []).endToken] := rfl
  have hpast : (c.behind earlier).past (c.left earlier c.rest) [] = _ := behind_past hrest nofun []
  rw [List.append_nil] at hdata
  rw [List.flatMap_append, hdata, List.flatMap_singleton, hend, ← hpast, ← rest_behind]
  by_cases hmore : (c.behind earlier).rest = []
  · have hhere : (c.behind earlier).past [] [] = c.behind earlier := by
      have hnil := (c.behind earlier).past_nil
      rwa [hmore] at hnil
    rw [hmore, hhere, dataToken_nil]
    exact .finish hmore
  · exact .last hmore (behind_none (d := d) hd hnone)

/-- Behind the text in front of a tag stands an opening delimiter. -/
theorem text_of_found (hd : d.OnLines) (hfound : findOpening? d.openings c.rest = some found) :
    c.rest = found.before ++ (found.delimiter ++ found.after) ∧
      ∀ x ∈ (found.delimiter ++ found.after).head?, NoNewline x := by
  obtain ⟨htext, hdelimiter⟩ := findOpening?_eq hfound
  refine ⟨htext, ?_⟩
  rw [hdelimiter]
  exact hd.head_noNewline _ _

/-- **The tokens of a round** with and without trimming. -/
theorem round_trimmed {tag : TagResult} {trims : Bool} {ts : List Token} (hd : d.OnLines)
    (hfound : findOpening? d.openings c.rest = some found)
    (hread : readTag (d.trimming false) found
      (c.past found.before (found.delimiter ++ found.after)) = .ok tag)
    (htrims : Trims d found (c.past found.before (found.delimiter ++ found.after)) tag trims)
    (hends : ∀ o ∈ ends, tag.after.offset < o) (hearlier : ∀ o ∈ earlier, o ≤ c.offset)
    (hstrip : c.offset ∈ earlier → strip = false) :
    (dataToken c found.before strip stripEnd ++ tag.tokens ++ ts).flatMap
        (Token.trimmed (earlier ++ (blockEnds d tag.tokens ++ ends))) =
      dataToken (c.behind earlier) (c.left earlier found.before) strip stripEnd ++ tag.tokens ++
        ts.flatMap (Token.trimmed (earlier ++ blockEnds d tag.tokens ++ ends)) := by
  obtain ⟨htext, hrest⟩ := text_of_found hd hfound
  have hlt := offset_lt_of_readTag hd hfound hread
  have hlater : ∀ o ∈ blockEnds d tag.tokens ++ ends, tag.after.offset ≤ o := by
    intro o ho
    rcases List.mem_append.1 ho with ho | ho
    · rw [htrims.ends] at ho
      cases trims with
      | true => exact (List.mem_singleton.1 ho).ge
      | false => nomatch ho
    · exact (hends o ho).le
  have hdata : (dataToken c found.before strip stripEnd).flatMap
      (Token.trimmed (earlier ++ (blockEnds d tag.tokens ++ ends))) = _ :=
    dataToken_behind htext hrest hearlier hstrip fun o ho => Nat.le_trans hlt.le (hlater o ho)
  have htag : tag.tokens.flatMap (Token.trimmed (earlier ++ (blockEnds d tag.tokens ++ ends))) =
      tag.tokens := by
    refine flatMap_trimmed_eq_self fun t ht htype hmem => ?_
    obtain ⟨hlo, hhi⟩ := htrims.data t ht htype
    have hstart : (c.past found.before (found.delimiter ++ found.after)).offset =
      c.offset + byteSize found.before := rfl
    rcases List.mem_append.1 hmem with hmem | hmem
    · have hle := hearlier _ hmem
      omega
    · have hle := hlater _ hmem
      omega
  rw [List.flatMap_append, List.flatMap_append, hdata, htag, List.append_assoc earlier]

/-- **The rounds** from a cursor on with and without trimming. `earlier` are the ends of the block
tags in front of the cursor. -/
theorem lexes_trimmed (hd : d.OnLines) (h : Lexes (d.trimming false) strip c result)
    (hearlier : ∀ o ∈ earlier, o ≤ c.offset) (hstrip : c.offset ∈ earlier → strip = false) :
    Lexes (d.trimming true) strip (c.behind earlier)
      (result.map fun ts => ts.flatMap (Token.trimmed (earlier ++ blockEnds d ts))) := by
  induction h generalizing earlier with
  | @finish strip c hend =>
    have hhere : c.behind earlier = c := by
      unfold Cursor.behind
      split
      · obtain ⟨rest, offset, line⟩ := c
        obtain rfl : rest = [] := hend
        rfl
      · rfl
    rw [hhere]
    exact .finish hend
  | @last strip c hmore hnone =>
    have hends : blockEnds d (dataToken c c.rest strip false ++ [(c.past c.rest []).endToken]) = [] := by
      rw [blockEnds_append, blockEnds_eq_nil fun t ht => (span_dataToken t ht).1]
      rfl
    have hlast := lexes_last hd hnone hearlier hstrip
    show Lexes _ _ _ (.ok (List.flatMap (Token.trimmed (earlier ++ blockEnds d _)) _))
    rwa [hends, List.append_nil]
  | @fault strip c found e hfound hread =>
    obtain ⟨htext, hrest⟩ := text_of_found hd hfound
    refine .fault (behind_found (d := d) hd hfound) ?_
    show readTag _ _ ((c.behind earlier).past (c.left earlier found.before) _) = _
    rw [behind_past htext hrest]
    exact readTag_error hread
  | @tag strip c found tag result hfound hread next ih =>
    obtain ⟨htext, hrest⟩ := text_of_found hd hfound
    obtain ⟨trims, htrims⟩ := trims_of_readTag (hd.delimiter_ne hfound) hread
    have hlt := offset_lt_of_readTag hd hfound hread
    have hle : ∀ o ∈ earlier ++ blockEnds d tag.tokens, o ≤ tag.after.offset := by
      intro o ho
      rcases List.mem_append.1 ho with ho | ho
      · have hle := hearlier o ho
        omega
      · rw [htrims.ends] at ho
        cases trims with
        | true => exact (List.mem_singleton.1 ho).le
        | false => nomatch ho
    have hends : tag.after.offset ∈ earlier ++ blockEnds d tag.tokens ↔ trims = true := by
      rw [List.mem_append, htrims.ends]
      refine ⟨fun h => ?_, fun h => .inr (by rw [if_pos h]; exact List.mem_singleton_self _)⟩
      rcases h with h | h
      · have hle := hearlier _ h
        omega
      · cases trims with
        | true => rfl
        | false => nomatch h
    have hbehind : tag.after.behind (earlier ++ blockEnds d tag.tokens) =
        if trims then tag.after.skipNewline else tag.after := by
      unfold Cursor.behind
      simp only [hends]
    have hnext := ih hle fun hmem => htrims.strip (hends.1 hmem)
    rw [hbehind] at hnext
    have hread' : readTag (d.trimming true) { found with before := c.left earlier found.before }
        ((c.behind earlier).past (c.left earlier found.before) (found.delimiter ++ found.after)) =
          .ok { tag with after := if trims then tag.after.skipNewline else tag.after } := by
      rw [behind_past htext hrest]
      exact htrims.read
    have hround : Lexes (d.trimming true) strip (c.behind earlier) _ :=
      .tag (behind_found (d := d) hd hfound) hread' hnext
    cases result with
    | error e => exact hround
    | ok ts =>
      have htokens : (dataToken c found.before strip (found.after.head? == some '-') ++ tag.tokens ++
          ts).flatMap _ = _ :=
        round_trimmed hd hfound hread htrims (lt_of_mem_blockEnds hd next) hearlier hstrip
      have hall : blockEnds d (dataToken c found.before strip (found.after.head? == some '-') ++
          tag.tokens ++ ts) = blockEnds d tag.tokens ++ blockEnds d ts := by
        rw [blockEnds_append, blockEnds_append, blockEnds_eq_nil fun t ht => (span_dataToken t ht).1]
        rfl
      show Lexes _ _ _ (.ok (List.flatMap (Token.trimmed (earlier ++ blockEnds d _)) _))
      rw [hall, htokens]
      exact hround

end Rounds

/-! ### Templates -/

theorem isEmpty_of_found {d : Delimiters} {c : Cursor} {found : Opened}
    (hfound : findOpening? d.openings c.rest = some found) : c.rest.isEmpty = false := by
  cases hrest : c.rest with
  | nil =>
    rw [hrest] at hfound
    nomatch hfound
  | cons x cs => rfl

/-- The loop of rounds is what the lexer does. -/
theorem templateTokens_of_lexes {d : Delimiters} (hd : ∀ o, d.start o ≠ "") {strip : Bool} {c : Cursor}
    {result : Except SyntaxError (List Token)} (h : Lexes d strip c result) :
    templateTokens d strip c = result := by
  induction h with
  | finish hend => rw [templateTokens, if_pos (List.isEmpty_iff.2 hend)]
  | last hmore hnone => rw [templateTokens, if_neg (mt List.isEmpty_iff.1 hmore), hnone]
  | fault hfound hread =>
    rw [templateTokens, isEmpty_of_found hfound, hfound]
    simp only [hread]
    rfl
  | tag hfound hread next ih =>
    have hless := length_lt_of_readTag hd hfound hread
    rw [templateTokens, isEmpty_of_found hfound, hfound]
    simp only [hread, if_pos hless, ih]
    rfl

/-- **Trimming only removes newlines behind block tags.** With the option the tokens are those without
it, but data that begins where a block tag without a dash ends has lost the newline at its beginning;
an error is the same. -/
theorem trim_blocks {d : Delimiters} (hd : d.OnLines) (source : String) :
    Token.ofTemplate { d with trimBlocks := true } source =
      (Token.ofTemplate { d with trimBlocks := false } source).map fun ts =>
        ts.flatMap (Token.trimmed (blockEnds d ts)) := by
  let start : Cursor := ⟨d.textOf source, 0, 1⟩
  have hplain : Lexes (d.trimming false) false start (templateTokens (d.trimming false) false start) :=
    lexes_templateTokens (d := d.trimming false) hd.start_ne false start
  have hnone : ∀ o ∈ ([] : List Nat), o ≤ start.offset := nofun
  have htrimmed := lexes_trimmed hd hplain hnone (fun _ => rfl)
  exact templateTokens_of_lexes (d := d.trimming true) hd.start_ne htrimmed

theorem onLines_defaults : ({} : Delimiters).OnLines where
  start_ne o := by cases o <;> simp [Delimiters.start]
  noNewline o := by cases o <;> simp [Delimiters.start, NoNewline]

/-- A newline that is all of a text, one behind a dash, and one in front of other text. -/
theorem trim_blocks_newlines :
    let source := "\x7b% a %\x7d\r\n\x7b% b -%\x7d\n c\x7b% d %\x7d\nd"
    let front : List Token := [⟨.mark .blockBegin, 1, ⟨0, 2⟩⟩, ⟨.name "a", 1, ⟨3, 4⟩⟩,
      ⟨.mark .blockEnd, 1, ⟨5, 7⟩⟩]
    let middle : List Token := [⟨.mark .blockBegin, 2, ⟨9, 11⟩⟩, ⟨.name "b", 2, ⟨12, 13⟩⟩,
      ⟨.mark .blockEnd, 2, ⟨14, 17⟩⟩, ⟨.data "c", 3, ⟨19, 20⟩⟩, ⟨.mark .blockBegin, 3, ⟨20, 22⟩⟩,
      ⟨.name "d", 3, ⟨23, 24⟩⟩, ⟨.mark .blockEnd, 3, ⟨25, 27⟩⟩]
    let last : Token := ⟨.mark .endOfTemplate, 4, .point 29⟩
    ({} : Delimiters).OnLines ∧
      Token.ofTemplate {} source =
        .ok (front ++ ⟨.data "\r\n", 1, ⟨7, 9⟩⟩ :: (middle ++ [⟨.data "\nd", 3, ⟨27, 29⟩⟩, last])) ∧
      Token.ofTemplate { trimBlocks := true } source =
        .ok (front ++ (middle ++ [⟨.data "d", 4, ⟨28, 29⟩⟩, last])) := by
  intro source front middle last
  have hplain : Token.ofTemplate {} source =
      .ok (front ++ ⟨.data "\r\n", 1, ⟨7, 9⟩⟩ :: (middle ++ [⟨.data "\nd", 3, ⟨27, 29⟩⟩, last])) := by
    cbv
  refine ⟨onLines_defaults, hplain, ?_⟩
  have htrimmed := trim_blocks onLines_defaults source
  rw [hplain] at htrimmed
  rw [htrimmed]
  cbv

end LiquidTemplate
