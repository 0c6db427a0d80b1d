import LiquidTemplate.Proofs.Scanning.Lexemes
import LiquidTemplate.Proofs.Scanning.Stretches

/-!
# The course of a template

What is read of a template one after the other: stretches of text, and between them tags and parts
that give no tokens. The relations of this module say once what a single round can do, with the
place of every token; what holds of all tokens is then an induction on the course.

* `TagCourse`: the inside of a tag, from behind its opening delimiter on.
* `Hidden`: comments, and the tags around raw blocks.
* `Course`: a template from a cursor on.
* `tagCourse_of_ok`, `course_of_ok`: whatever is read takes such a course.
-/

namespace LiquidTemplate

open Text

/-! ### Dashes -/

/-- A dash, if it is there. -/
def dash (there : Bool) : List Char :=
  if there then ['-'] else []

theorem optionalDash_eq (cs : List Char) :
    dash (optionalDash cs).1 ++ (optionalDash cs).2 = cs ∧
      (optionalDash cs).1 = (cs.head? == some '-') := by
  unfold optionalDash
  split
  · exact ⟨rfl, rfl⟩
  · next hne =>
    refine ⟨rfl, ?_⟩
    cases cs with
    | nil => rfl
    | cons c cs =>
      have hc : c ≠ '-' := fun h => hne cs (h ▸ rfl)
      simpa using hc

theorem Closing.match?_eq {closing : Closing} {cs taken rest : List Char} {dashed : Bool}
    (h : closing.match? cs = some (dashed, taken, rest)) :
    taken = dash dashed ++ closing.delimiter ∧ cs = taken ++ rest := by
  unfold match? at h
  split at h
  · next r hr =>
    obtain ⟨rfl, rfl, rfl⟩ := by simpa using h
    exact ⟨rfl, after?_eq_some_iff.1 hr⟩
  · obtain ⟨r, hr, hp⟩ := Option.map_eq_some_iff.1 h
    obtain ⟨rfl, rfl, rfl⟩ := by simpa using hp
    exact ⟨rfl, after?_eq_some_iff.1 hr⟩

theorem dashThen?_eq {delimiter cs rest : List Char} {dashed : Bool}
    (h : dashThen? delimiter cs = some (dashed, rest)) :
    cs = dash dashed ++ delimiter ++ rest := by
  unfold dashThen? at h
  split at h
  · next r hr =>
    obtain ⟨rfl, rfl⟩ := by simpa using h
    obtain ⟨more, hmore, hr⟩ := Option.bind_eq_some_iff.1 hr
    rw [after?_eq_some_iff.1 hmore, after?_eq_some_iff.1 hr]
    rfl
  · obtain ⟨r, hr, hp⟩ := Option.map_eq_some_iff.1 h
    obtain ⟨rfl, rfl⟩ := by simpa using hp
    exact after?_eq_some_iff.1 hr

theorem blanksThen?_eq {delimiter cs rest : List Char} {dashed : Bool}
    (h : blanksThen? delimiter cs = some (dashed, rest)) :
    ∃ blanks, (∀ c ∈ blanks, isBlank c = true) ∧
      cs = blanks ++ dash dashed ++ delimiter ++ rest := by
  induction cs with
  | nil => exact ⟨[], nofun, dashThen?_eq h⟩
  | cons c cs ih =>
    unfold blanksThen? at h
    cases hmore : (if isBlank c then blanksThen? delimiter cs else none) with
    | none => exact ⟨[], nofun, dashThen?_eq (by simpa [hmore] using h)⟩
    | some found =>
      split at hmore
      · next hc =>
        obtain rfl : found = (dashed, rest) := by simpa [hc, hmore] using h
        obtain ⟨blanks, hblanks, rfl⟩ := ih hmore
        exact ⟨c :: blanks, List.forall_mem_cons.2 ⟨hc, hblanks⟩, rfl⟩
      · nomatch hmore

/-! ### Tags -/

/-- **Course of a tag** from a cursor on, behind a token of the class `previous` and inside of the
brackets `opened`: lexemes with blanks between them up to the closing delimiter, which counts where
no bracket is open, or to the end of the text. -/
inductive TagCourse (closing : Option Closing) :
    Option TokenType → List Bracket → Cursor → TagTokens → Prop where
  | finish {previous : Option TokenType} {c : Cursor} (hc : closing = none)
      (h : c.skipBlanks.rest = []) : TagCourse closing previous [] c ⟨[], c.skipBlanks, false⟩
  | close {previous : Option TokenType} {c : Cursor} {x : Closing} {dashed : Bool}
      {rest : List Char} (hx : closing = some x)
      (h : c.skipBlanks.rest = dash dashed ++ x.delimiter ++ rest) :
      TagCourse closing previous [] c
        ⟨[c.skipBlanks.tokenTo (.mark x.mark) (c.skipBlanks.past (dash dashed ++ x.delimiter) rest)],
          c.skipBlanks.past (dash dashed ++ x.delimiter) rest, dashed⟩
  | token {previous : Option TokenType} {opened after : List Bracket} {c : Cursor}
      {k : Token.Kind} {cs rest : List Char} {tag : TagTokens}
      (h : c.skipBlanks.rest = cs ++ rest) (hne : cs ≠ [])
      (hs : Lexeme.Scanned previous opened c.skipBlanks.line k cs after)
      (next : TagCourse closing (some k.type) after (c.skipBlanks.past cs rest) tag) :
      TagCourse closing previous opened c
        { tag with tokens := c.skipBlanks.tokenTo k (c.skipBlanks.past cs rest) :: tag.tokens }

theorem tagCourse_of_close {closing : Option Closing} {opened : List Bracket} {c : Cursor}
    {tag : TagTokens} (previous : Option TokenType)
    (h : TagTokens.close? closing opened c.skipBlanks = some tag) :
    TagCourse closing previous opened c tag := by
  unfold TagTokens.close? at h
  split at h
  · next x =>
    obtain ⟨⟨dashed, taken, rest⟩, hm, rfl⟩ := Option.map_eq_some_iff.1 h
    obtain ⟨rfl, hrest⟩ := Closing.match?_eq hm
    exact .close rfl hrest
  · nomatch h

/-- **Whatever is read of a tag** takes such a course. -/
theorem tagCourse_of_ok {closing : Option Closing} {previous : Option TokenType}
    {opened : List Bracket} {c : Cursor} {tag : TagTokens}
    (h : TagTokens.read closing previous opened c = .ok tag) :
    TagCourse closing previous opened c tag := by
  fun_induction TagTokens.read closing previous opened c generalizing tag
  case case1 hend =>
    unfold TagTokens.atEnd at h
    split at h
    · nomatch h
    · nomatch h
    · obtain rfl := Except.ok.inj h
      exact .finish rfl (List.isEmpty_iff.1 hend)
  case case2 hclose =>
    obtain rfl := Except.ok.inj h
    exact tagCourse_of_close _ hclose
  case case3 => nomatch h
  case case4 t after c' hnext ih =>
    obtain ⟨rest, hrest, rfl⟩ := exists_of_map_eq_ok h
    have hcourse := ih hrest
    obtain ⟨l, hl, rfl, rfl⟩ := exists_of_nextToken hnext
    obtain ⟨htext, hne⟩ := Lexeme.scan_eq hl
    exact .token htext hne (Lexeme.scanned_of_ok hl) hcourse

/-- **Tags with tokens**, by the mark of their beginning: the delimiter there, and their end. -/
inductive Tagged (d : Delimiters) : Mark → List Char → Closing → Prop where
  | output : Tagged d .variableBegin d.variableStart.toList ⟨d.variableEnd.toList, .variableEnd⟩
  | block : Tagged d .blockBegin d.blockStart.toList ⟨d.blockEnd.toList, .blockEnd⟩

/-! ### Hidden parts -/

/-- **Hidden parts** of a template, before the text `rest`: comments up to the first end of one, and
the tags at both ends of raw blocks. The flags tell whether a dash stands at their delimiters. -/
inductive Hidden (d : Delimiters) (rest : List Char) :
    (dashBefore dashBehind : Bool) → List Char → Prop where
  | comment {inside : List Char} (h : cut? d.commentEnd.toList
      (inside ++ d.commentEnd.toList ++ rest) = some (inside, rest)) :
      Hidden d rest ((inside ++ d.commentEnd.toList ++ rest).head? == some '-')
        (inside.getLast? == some '-') (d.commentStart.toList ++ inside ++ d.commentEnd.toList)
  | raw {keyword : String} {before behind : List Char} {dashBefore dashBehind : Bool}
      (hk : keyword = "raw" ∨ keyword = "endraw") (hb : ∀ c ∈ before, isBlank c = true)
      (hb' : ∀ c ∈ behind, isBlank c = true) :
      Hidden d rest dashBefore dashBehind (d.blockStart.toList ++ (dash dashBefore ++ before ++
        keyword.toList ++ behind ++ dash dashBehind ++ d.blockEnd.toList))

theorem rawTag?_eq {keyword : String} {blockEnd cs rest : List Char} {dashBefore dashBehind : Bool}
    (h : rawTag? keyword blockEnd cs = some (dashBefore, dashBehind, rest)) :
    dashBefore = (cs.head? == some '-') ∧ ∃ before behind,
      (∀ c ∈ before, isBlank c = true) ∧ (∀ c ∈ behind, isBlank c = true) ∧
        cs = dash dashBefore ++ before ++ keyword.toList ++ behind ++ dash dashBehind ++ blockEnd ++
          rest := by
  simp only [rawTag?, bind, Option.bind_eq_some_iff, Prod.exists, pure, Option.some.injEq,
    Prod.mk.injEq] at h
  obtain ⟨more, hmore, behind?, rest', hrest, rfl, rfl, rfl⟩ := h
  obtain ⟨hdash, hflag⟩ := optionalDash_eq cs
  obtain ⟨behind, hbehind, rfl⟩ := blanksThen?_eq hrest
  have hblanks := trimStart_eq (optionalDash cs).2
  rw [after?_eq_some_iff.1 hmore] at hblanks
  refine ⟨hflag, (optionalDash cs).2.takeWhile isBlank, behind, fun _ => isBlank_of_mem_takeWhile,
    hbehind, ?_⟩
  rw [← hblanks] at hdash
  simpa using hdash.symm

theorem rawEnd?_eq {d : Delimiters} {cs : List Char} {found : RawEnd}
    (h : rawEnd? d cs = some found) : ∃ part, cs = found.before ++ part ++ found.after ∧
      Hidden d found.after found.dashBefore found.dashBehind part := by
  have hhere {cs : List Char} {found : RawEnd} (h : rawEndAt? d cs = some found) :
      ∃ part, cs = found.before ++ part ++ found.after ∧
        Hidden d found.after found.dashBefore found.dashBehind part := by
    simp only [rawEndAt?, bind, Option.bind_eq_some_iff, Prod.exists, pure, Option.some.injEq] at h
    obtain ⟨more, hmore, _, _, _, hraw, rfl⟩ := h
    obtain ⟨_, before, behind, hb, hb', rfl⟩ := rawTag?_eq hraw
    refine ⟨_, ?_, .raw (.inr rfl) hb hb'⟩
    rw [after?_eq_some_iff.1 hmore]
    simp
  induction cs generalizing found with
  | nil => exact hhere h
  | cons c cs ih =>
    unfold rawEnd? at h
    split at h
    · next f hf =>
      obtain rfl := Option.some.inj h
      exact hhere hf
    · obtain ⟨f, hf, rfl⟩ := Option.map_eq_some_iff.1 h
      obtain ⟨part, rfl, hpart⟩ := ih hf
      exact ⟨part, rfl, hpart⟩

/-! ### Opening delimiters -/

theorem mem_openings {d : Delimiters} {o : Opening} {delimiter : List Char}
    (h : (o, delimiter) ∈ d.openings) : delimiter = (d.start o).toList := by
  unfold Delimiters.openings at h
  rw [List.mem_mergeSort] at h
  obtain ⟨o', _, ho⟩ := List.mem_map.1 h
  obtain ⟨rfl, rfl⟩ := Prod.mk.inj ho
  rfl

/-- **A delimiter that is found** stands between what is before it and what follows. -/
theorem findOpening?_eq {d : Delimiters} {cs : List Char} {found : Opened}
    (h : findOpening? d.openings cs = some found) :
    cs = found.before ++ (found.delimiter ++ found.after) ∧
      found.delimiter = (d.start found.opening).toList := by
  induction cs generalizing found with
  | nil => nomatch h
  | cons c cs ih =>
    unfold findOpening? at h
    split at h
    · next f hf =>
      obtain rfl := Option.some.inj h
      obtain ⟨⟨o, delimiter⟩, hmem, ho⟩ := List.exists_of_findSome?_eq_some hf
      obtain ⟨rest, hrest, rfl⟩ := Option.map_eq_some_iff.1 ho
      have htext : c :: cs = delimiter ++ rest := after?_eq_some_iff.1 hrest
      exact ⟨htext, mem_openings hmem⟩
    · obtain ⟨f, hf, rfl⟩ := Option.map_eq_some_iff.1 h
      obtain ⟨htext, hdelimiter⟩ := ih hf
      exact ⟨congrArg (c :: ·) htext, hdelimiter⟩

/-! ### Templates -/

/-- **Course of a template** from a cursor on, where blanks are stripped from the text at the cursor
if `strip`: a text and the end of the template; or a text, a hidden part and the course behind it;
or a text, a tag and the course behind it, from which a newline can be trimmed. -/
inductive Course (d : Delimiters) : Bool → Cursor → List Token → Prop where
  | finish {strip : Bool} {c : Cursor} :
      Course d strip c (dataToken c c.rest strip false ++ [(c.past c.rest []).endToken])
  | hidden {strip dashBefore dashBehind : Bool} {c : Cursor} {text part rest : List Char}
      {tokens : List Token} (h : c.rest = text ++ part ++ rest)
      (hpart : Hidden d rest dashBefore dashBehind part)
      (next : Course d dashBehind (c.past (text ++ part) rest) tokens) :
      Course d strip c (dataToken c text strip dashBefore ++ tokens)
  | tag {strip dashed : Bool} {c : Cursor} {text start inside newline rest : List Char}
      {mark : Mark} {closing : Closing} {tag : TagTokens} {tokens : List Token}
      (htag : Tagged d mark start closing) (h : c.rest = text ++ start ++ (dash dashed ++ inside))
      (hdash : dashed = ((dash dashed ++ inside).head? == some '-'))
      (hinside : TagCourse (some closing) (some (.mark mark)) []
        (c.past (text ++ start ++ dash dashed) inside) tag)
      (hnewline : newline = [] ∨ d.trimBlocks = true ∧ tag.dashed = false ∧
        mark = .blockBegin ∧ (newline = ['\n'] ∨ newline = ['\r', '\n']))
      (hrest : tag.after.rest = newline ++ rest)
      (next : Course d tag.dashed (tag.after.past newline rest) tokens) :
      Course d strip c (dataToken c text strip dashed ++
        (c.past text (start ++ (dash dashed ++ inside))).tokenTo (.mark mark)
          (c.past (text ++ start) (dash dashed ++ inside)) :: tag.tokens ++ tokens)

section Rounds

variable {d : Delimiters} {strip : Bool} {c : Cursor} {text start after : List Char}
  {tag : TagResult} {tokens : List Token}

/-- A tag between its marks is one round of a course. -/
theorem course_of_marked {mark : Mark} {closing : Closing} (htag : Tagged d mark start closing)
    (h : c.rest = text ++ (start ++ after))
    (hread : readMarked mark closing.mark closing.delimiter start (c.past text (start ++ after))
      after = .ok tag)
    {newline rest : List Char} (hnewline : newline = [] ∨ d.trimBlocks = true ∧ tag.strip = false ∧
      mark = .blockBegin ∧ (newline = ['\n'] ∨ newline = ['\r', '\n']))
    (hrest : tag.after.rest = newline ++ rest)
    (next : Course d tag.strip (tag.after.past newline rest) tokens) :
    Course d strip c (dataToken c text strip (after.head? == some '-') ++ tag.tokens ++ tokens) := by
  obtain ⟨hafter, hflag⟩ := optionalDash_eq after
  unfold readMarked at hread
  extract_lets inside at hread
  split at hread
  next dashed inner hdash =>
    extract_lets first at hread
    rw [hdash] at hafter hflag
    obtain rfl : dash dashed ++ inner = after := hafter
    have hdashed : dashed = ((dash dashed ++ inner).head? == some '-') := hflag
    have hfirst : first = c.past (text ++ start ++ dash dashed) inner := by
      cases dashed with
      | true =>
        show ((c.past text _).past start _).past ['-'] inner = c.past (text ++ start ++ ['-']) inner
        rw [Cursor.past_past, Cursor.past_past, List.append_assoc]
      | false =>
        show (c.past text _).past start inner = c.past (text ++ start ++ []) inner
        rw [Cursor.past_past, List.append_nil]
    cases hinner : TagTokens.read (some ⟨closing.delimiter, closing.mark⟩) (some (.mark mark)) []
        first with
    | error e =>
      rw [hinner] at hread
      nomatch hread
    | ok t =>
      rw [hinner] at hread
      obtain rfl := Except.ok.inj hread
      rw [hfirst] at hinner
      have hcourse : Course d strip c _ := .tag htag (by rw [h, List.append_assoc]) hdashed
        (tagCourse_of_ok hinner) hnewline hrest next
      rw [← hdashed]
      rw [← Cursor.past_past c text start (start ++ (dash dashed ++ inner))] at hcourse
      simpa using hcourse

/-- A comment is one round. -/
theorem course_of_comment (h : c.rest = text ++ (d.commentStart.toList ++ after))
    (hread : readComment d d.commentStart.toList (c.past text (d.commentStart.toList ++ after)) after =
      .ok tag)
    (next : Course d tag.strip tag.after tokens) :
    Course d strip c (dataToken c text strip (after.head? == some '-') ++ tag.tokens ++ tokens) := by
  unfold readComment at hread
  split at hread
  · nomatch hread
  · next inside rest hcut =>
    obtain rfl := Except.ok.inj hread
    obtain rfl := cut?_eq hcut
    rw [List.append_nil]
    rw [Cursor.past_past] at next
    refine .hidden ?_ (.comment hcut) next
    rw [h]
    simp

/-- A raw block is two rounds: the tag before it, and its text with the tag behind it. -/
theorem course_of_raw {dashBefore dashed : Bool} {line : Nat} {rest : List Char}
    (h : c.rest = text ++ (d.blockStart.toList ++ after))
    (hraw : rawTag? "raw" d.blockEnd.toList after = some (dashBefore, dashed, rest))
    (hread : readRaw d line dashed
      (((c.past text (d.blockStart.toList ++ after)).past d.blockStart.toList after).past
        (consumed after rest) rest) = .ok tag)
    (next : Course d tag.strip tag.after tokens) :
    Course d strip c (dataToken c text strip (after.head? == some '-') ++ tag.tokens ++ tokens) := by
  obtain ⟨hflag, before, behind, hb, hb', hafter⟩ := rawTag?_eq hraw
  have hpart : Hidden d rest dashBefore dashed _ := .raw (.inl rfl) hb hb'
  unfold readRaw at hread
  split at hread
  · nomatch hread
  · next found hfound =>
    obtain rfl := Except.ok.inj hread
    obtain ⟨part, hend, hhidden⟩ := rawEnd?_eq hfound
    rw [Cursor.past_rest] at hend
    obtain rfl := hend
    dsimp only at next ⊢
    rw [Cursor.past_past, Cursor.past_past, Cursor.past_rest, consumed_append, hafter,
      consumed_append] at next
    rw [← hflag, Cursor.past_past, Cursor.past_past, hafter, consumed_append, List.append_assoc]
    refine .hidden ?_ hpart (.hidden rfl hhidden ?_)
    · rw [h, hafter]
      simp
    · simpa only [Cursor.past_past, List.append_assoc] using next

/-- **One round** of a course, from an opening delimiter that is found. -/
theorem course_of_tag {found : Opened} (hfound : findOpening? d.openings c.rest = some found)
    (hread : readTag d found (c.past found.before (found.delimiter ++ found.after)) = .ok tag)
    (next : Course d tag.strip tag.after tokens) :
    Course d strip c (dataToken c found.before strip (found.after.head? == some '-') ++ tag.tokens ++
      tokens) := by
  obtain ⟨h, hdelimiter⟩ := findOpening?_eq hfound
  unfold readTag at hread
  split at hread
  · next ho =>
    rw [hdelimiter, ho] at h hread
    exact course_of_comment h hread next
  · next ho =>
    rw [hdelimiter, ho] at h hread
    unfold readBlock at hread
    split at hread
    · next hraw => exact course_of_raw h hraw hread next
    · cases hm : readMarked .blockBegin .blockEnd d.blockEnd.toList (d.start .block).toList
          (c.past found.before ((d.start .block).toList ++ found.after)) found.after with
      | error e =>
        rw [hm] at hread
        nomatch hread
      | ok marked =>
        rw [hm] at hread
        obtain rfl := Except.ok.inj hread
        split at next
        · next htrim =>
          obtain ⟨htrim, hstrip⟩ := Bool.and_eq_true_iff.1 htrim
          obtain ⟨newline, rest, hnewline, hrest, hskip⟩ := marked.after.skipNewline_eq
          rw [if_pos (Bool.and_eq_true_iff.2 ⟨htrim, hstrip⟩)]
          have hstrip : marked.strip = false := by simpa using hstrip
          have hnewline : newline = [] ∨ d.trimBlocks = true ∧ marked.strip = false ∧
              Mark.blockBegin = .blockBegin ∧ (newline = ['\n'] ∨ newline = ['\r', '\n']) :=
            hnewline.imp id fun hline => ⟨htrim, hstrip, rfl, hline⟩
          have hnext : Course d marked.strip (marked.after.past newline rest) tokens := hskip ▸ next
          -- What is trimmed changes the cursor behind the tag, but not its tokens.
          have hround : Course d strip c (dataToken c found.before strip
              (found.after.head? == some '-') ++ marked.tokens ++ tokens) :=
            course_of_marked .block h hm hnewline hrest hnext
          exact hround
        · next htrim =>
          rw [if_neg htrim]
          exact course_of_marked .block h hm (.inl rfl) rfl next
  · next ho =>
    rw [hdelimiter, ho] at h hread
    exact course_of_marked .output h hread (.inl rfl) rfl next

end Rounds

/-- **Whatever is read of a template** takes such a course. -/
theorem course_of_ok {d : Delimiters} {strip : Bool} {c : Cursor} {tokens : List Token}
    (h : templateTokens d strip c = .ok tokens) : Course d strip c tokens := by
  fun_induction templateTokens d strip c generalizing tokens
  case case1 strip c hend =>
    obtain rfl := Except.ok.inj h
    obtain ⟨rest, offset, line⟩ := c
    obtain rfl : rest = [] := List.isEmpty_iff.1 hend
    have hcourse : Course d strip ⟨[], offset, line⟩ _ := .finish
    rwa [dataToken_nil] at hcourse
  case case2 =>
    obtain rfl := Except.ok.inj h
    exact .finish
  case case3 => nomatch h
  case case4 found hfound _ _ tag hread _ ih =>
    obtain ⟨rest, hrest, rfl⟩ := exists_of_map_eq_ok h
    exact course_of_tag hfound hread (ih hrest)
  case case5 => nomatch h

end LiquidTemplate
