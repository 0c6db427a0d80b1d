import Mathlib
import LiquidTemplate.Proofs.Scanning.Course

/-!
# The places of tokens

Every token stands at its place: its span lies between characters of the source, its line counts the
newlines before it, and the characters under it spell it.

* `Cursor.At`: a cursor behind a part of a text.
* `Token.Stands`: a token over some characters of a text.
* `Faithful`: tokens that stand at their places in order.
* `WithoutFinalNewline`: the part of a source that is read.
* `places_of_template`: the tokens of a template.
-/

namespace LiquidTemplate

open Text

variable {d : Delimiters} {cs before taken shown lead rest : List Char} {c : Cursor} {lo : Nat}
  {previous : Option TokenType} {t : Token} {tokens : List Token}

/-! ### Cursors and tokens in a text -/

/-- **Place of a cursor** behind the characters `before` of the text `cs`. -/
structure Cursor.At (cs : List Char) (c : Cursor) (before : List Char) : Prop where
  text : cs = before ++ c.rest
  offset : c.offset = byteSize before
  line : c.line = 1 + newlines before

theorem Cursor.at_start (cs : List Char) : Cursor.At cs ⟨cs, 0, 1⟩ [] :=
  ⟨rfl, rfl, rfl⟩

/-- **A stretch further** the cursor is behind it too. -/
theorem Cursor.At.past (h : c.At cs before) (hrest : c.rest = taken ++ rest) :
    (c.past taken rest).At cs (before ++ taken) := by
  refine ⟨?_, ?_, ?_⟩
  · rw [h.text, hrest, List.append_assoc]
    rfl
  · show c.offset + byteSize taken = _
    rw [h.offset, byteSize_append]
  · show c.line + newlines taken = _
    rw [h.line, newlines_append, Nat.add_assoc]

/-- **Place of a token**: behind the characters `before` of the text `cs`, over those in `shown`. The
line is that on which it begins. -/
structure Token.Stands (cs : List Char) (t : Token) (before shown : List Char) : Prop where
  text : ∃ behind, cs = before ++ shown ++ behind
  span : t.span = ⟨byteSize before, byteSize (before ++ shown)⟩
  line : t.line = 1 + newlines before

/-- A token over a stretch that begins at or behind a cursor. -/
theorem Cursor.At.stands (h : c.At cs before) (hrest : c.rest = lead ++ shown ++ rest)
    (k : Token.Kind) (r r' : List Char) :
    ((c.past lead r).tokenTo k (c.past (lead ++ shown) r')).Stands cs (before ++ lead) shown := by
  refine ⟨⟨rest, ?_⟩, ?_, ?_⟩
  · rw [h.text, hrest]
    simp
  · show (⟨c.offset + byteSize lead, c.offset + byteSize (lead ++ shown)⟩ : Span) = _
    simp only [h.offset, byteSize_append, Nat.add_assoc]
  · show c.line + newlines lead = _
    rw [h.line, newlines_append, Nat.add_assoc]

/-- A token over a stretch right at a cursor. -/
theorem Cursor.At.stands_here (h : c.At cs before) (hrest : c.rest = shown ++ rest)
    (k : Token.Kind) : (c.tokenTo k (c.past shown rest)).Stands cs before shown := by
  have hnil : c.rest = [] ++ shown ++ rest := hrest
  have hstands := h.stands hnil k c.rest rest
  rwa [List.append_nil] at hstands

/-- What stands in a part of a text stands in the whole. -/
theorem Token.Stands.extend (h : t.Stands cs before shown) (more : List Char) :
    t.Stands (cs ++ more) before shown := by
  obtain ⟨⟨behind, rfl⟩, hspan, hline⟩ := h
  exact ⟨⟨behind ++ more, List.append_assoc ..⟩, hspan, hline⟩

theorem Token.Stands.lo_le_hi (h : t.Stands cs before shown) : t.span.lo ≤ t.span.hi := by
  rw [h.span]
  simp

/-! ### Faithful tokens -/

/-- **Faithful tokens** of the text `cs`, from the offset `lo` on and behind a token of the class
`previous`: each of them stands at its place, not before the end of the one in front of it, and is
spelled by the characters there. -/
inductive Faithful (d : Delimiters) (cs : List Char) :
    Option TokenType → Nat → List Token → Prop where
  | nil {previous : Option TokenType} {lo : Nat} : Faithful d cs previous lo []
  | cons {previous : Option TokenType} {lo : Nat} {t : Token} {ts : List Token}
      {before shown : List Char} (hstands : t.Stands cs before shown)
      (hspells : t.kind.Spells d previous shown) (hlo : lo ≤ t.span.lo)
      (rest : Faithful d cs (some t.type) t.span.hi ts) : Faithful d cs previous lo (t :: ts)

theorem Faithful.lo_le (h : Faithful d cs previous lo tokens) : ∀ t ∈ tokens, lo ≤ t.span.lo := by
  induction h with
  | nil => exact nofun
  | cons hstands _ hlo _ ih =>
    intro u hu
    rcases List.mem_cons.1 hu with rfl | hu
    · exact hlo
    · have hle := hstands.lo_le_hi
      have hrest := ih u hu
      omega

/-- **In order**: no token begins before the end of an earlier one. -/
theorem Faithful.pairwise (h : Faithful d cs previous lo tokens) :
    tokens.Pairwise fun t u => t.span.hi ≤ u.span.lo := by
  induction h with
  | nil => exact .nil
  | cons _ _ _ rest ih => exact .cons rest.lo_le ih

theorem Faithful.split {front back : List Token} (h : Faithful d cs previous lo tokens)
    (htokens : tokens = front ++ t :: back) : ∃ before shown, t.Stands cs before shown ∧
      t.kind.Spells d ((front.getLast?.map Token.type).or previous) shown := by
  induction h generalizing front with
  | nil =>
    have hne : front ++ t :: back ≠ [] := by simp
    exact absurd htokens.symm hne
  | @cons previous lo u ts before shown hstands hspells hlo rest ih =>
    cases front with
    | nil =>
      obtain ⟨rfl, -⟩ := List.cons.inj htokens
      exact ⟨before, shown, hstands, hspells⟩
    | cons x front =>
      rw [List.cons_append] at htokens
      obtain ⟨rfl, htail⟩ := List.cons.inj htokens
      obtain ⟨before, shown, hstands, hspells⟩ := ih htail
      refine ⟨before, shown, hstands, ?_⟩
      rw [List.getLast?_cons]
      cases hlast : front.getLast? with
      | none =>
        rw [hlast] at hspells
        exact hspells
      | some y =>
        rw [hlast] at hspells
        exact hspells

/-! ### Tags -/

theorem TagCourse.after_at {closing : Option Closing} {opened : List Bracket} {tag : TagTokens}
    (h : TagCourse closing previous opened c tag) (hc : c.At cs before) :
    ∃ more, tag.after.At cs (before ++ more) := by
  induction h generalizing before with
  | @finish _ c _ _ =>
    obtain ⟨blanks, -, hrest, hskip⟩ := c.skipBlanks_eq
    rw [hskip]
    exact ⟨blanks, hc.past hrest⟩
  | @close _ c x dashed _ _ h =>
    obtain ⟨blanks, -, hrest, hskip⟩ := c.skipBlanks_eq
    have hd := hc.past hrest
    rw [← hskip] at hd
    refine ⟨blanks ++ (dash dashed ++ x.delimiter), ?_⟩
    rw [← List.append_assoc]
    exact hd.past h
  | @token _ _ _ c _ taken _ _ h _ _ _ ih =>
    obtain ⟨blanks, -, hrest, hskip⟩ := c.skipBlanks_eq
    have hd := hc.past hrest
    rw [← hskip] at hd
    obtain ⟨more, hmore⟩ := ih (hd.past h)
    refine ⟨blanks ++ (taken ++ more), ?_⟩
    simpa only [List.append_assoc] using hmore

theorem At.offset_le {before' : List Char} {c' : Cursor} (h : c.At cs before)
    (h' : c'.At cs (before ++ before')) : c.offset ≤ c'.offset := by
  rw [h.offset, h'.offset, byteSize_append]
  omega

/-- **A faithful tag**: its tokens, with faithful tokens behind it. -/
theorem TagCourse.faithful {x : Closing} {mark : Mark} {start : List Char} {opened : List Bracket}
    {tag : TagTokens} (htag : Tagged d mark start x)
    (h : TagCourse (some x) previous opened c tag) (hc : c.At cs before) (hlo : lo ≤ c.offset)
    (next : ∀ previous lo, lo ≤ tag.after.offset → Faithful d cs previous lo tokens) :
    Faithful d cs previous lo (tag.tokens ++ tokens) := by
  induction h generalizing before lo with
  | finish hx _ => nomatch hx
  | @close previous c y dashed rest hx h =>
    obtain rfl := Option.some.inj hx
    obtain ⟨blanks, -, hrest, hskip⟩ := c.skipBlanks_eq
    have hd := hc.past hrest
    rw [← hskip] at hd
    have hstands := hd.stands_here h (.mark x.mark)
    have hspells : (Token.Kind.mark x.mark).Spells d previous (dash dashed ++ x.delimiter) := by
      cases htag <;> cases dashed <;> simp [Token.Kind.Spells, dash]
    refine .cons hstands hspells ?_ (next _ _ ?_)
    · have hle := At.offset_le hc hd
      exact Nat.le_trans hlo hle
    · exact Nat.le_refl _
  | @token _ _ _ c k taken rest tag h hne hs hnext ih =>
    obtain ⟨blanks, -, hrest, hskip⟩ := c.skipBlanks_eq
    have hd := hc.past hrest
    rw [← hskip] at hd
    have hstands := hd.stands_here h k
    refine .cons hstands (hs.spells d) ?_ (ih (hd.past h) (Nat.le_refl _) next)
    have hle := At.offset_le hc hd
    exact Nat.le_trans hlo hle

/-! ### Templates -/

theorem Faithful.dataToken {text : List Char} {stripStart stripEnd : Bool} (hc : c.At cs before)
    (hrest : c.rest = text ++ rest) (hlo : lo ≤ c.offset)
    (next : ∀ previous lo, lo ≤ c.offset + byteSize text → Faithful d cs previous lo tokens) :
    Faithful d cs previous lo (LiquidTemplate.dataToken c text stripStart stripEnd ++ tokens) := by
  obtain ⟨lead, shown, trail, hstripped, htoken⟩ := dataToken_eq c text stripStart stripEnd
  rw [htoken]
  by_cases hshown : shown = []
  · rw [if_pos hshown]
    apply next
    omega
  · rw [if_neg hshown]
    have hsplit : c.rest = lead ++ shown ++ (trail ++ rest) := by
      rw [hrest, hstripped.text_eq, List.append_assoc]
    have hspells : (Token.Kind.data (String.ofList shown)).Spells d previous shown :=
      String.toList_ofList.symm
    refine .cons (hc.stands hsplit _ _ _) hspells ?_ (next _ _ ?_)
    · show lo ≤ c.offset + byteSize lead
      omega
    · show c.offset + byteSize (lead ++ shown) ≤ _
      rw [hstripped.text_eq, byteSize_append (lead ++ shown)]
      omega

/-- **A course gives faithful tokens.** -/
theorem Course.faithful {strip : Bool} (h : Course d strip c tokens) (hc : c.At cs before)
    (hlo : lo ≤ c.offset) : Faithful d cs previous lo tokens := by
  induction h generalizing before lo previous with
  | @finish _ c =>
    refine Faithful.dataToken hc (List.append_nil _).symm hlo fun previous lo hlo => ?_
    have hrest : c.rest = c.rest ++ [] ++ [] := by simp
    have hstands := hc.stands hrest (.mark .endOfTemplate) [] []
    rw [List.append_nil] at hstands
    exact .cons hstands rfl hlo .nil
  | @hidden _ _ _ c text part rest _ h _ _ ih =>
    have hc' := hc.past h
    refine Faithful.dataToken hc (List.append_assoc .. ▸ h) hlo fun previous lo hlo => ih hc' ?_
    show lo ≤ c.offset + byteSize (text ++ part)
    rw [byteSize_append]
    omega
  | @tag _ dashed c text start inside newline rest mark closing tag _ htag h _ hinside _ hrest _ ih =>
    have hsplit : c.rest = text ++ start ++ dash dashed ++ inside := by
      rw [h, List.append_assoc _ (dash dashed)]
    have hfirst := hc.past hsplit
    obtain ⟨more, hafter⟩ := hinside.after_at hfirst
    have hnext := hafter.past hrest
    rw [List.append_assoc]
    refine Faithful.dataToken hc (List.append_assoc .. ▸ h) hlo fun previous lo hlo => ?_
    refine .cons (hc.stands h _ _ _) ?_ hlo ?_
    · cases htag <;> rfl
    · refine hinside.faithful htag hfirst ?_ fun previous lo hlo => ih hnext ?_
      · show c.offset + byteSize (text ++ start) ≤ c.offset + byteSize (text ++ start ++ dash dashed)
        rw [byteSize_append (text ++ start)]
        omega
      · have hle := At.offset_le hafter hnext
        omega

/-- **The last token** is the end of the template, behind the whole text. -/
theorem Course.last {strip : Bool} (h : Course d strip c tokens) (hc : c.At cs before) :
    ∃ others, tokens =
      others ++ [⟨.mark .endOfTemplate, 1 + newlines cs, .point (byteSize cs)⟩] := by
  induction h generalizing before with
  | @finish _ c =>
    have hrest : c.rest = c.rest ++ [] := (List.append_nil _).symm
    have hend := hc.past hrest
    rw [← hc.text] at hend
    refine ⟨_, congrArg (_ ++ [·]) ?_⟩
    show (⟨_, (c.past c.rest []).line, ⟨(c.past c.rest []).offset, (c.past c.rest []).offset⟩⟩ :
      Token) = _
    rw [hend.line, hend.offset]
    rfl
  | hidden h _ _ ih =>
    obtain ⟨others, rfl⟩ := ih (hc.past h)
    exact ⟨_, (List.append_assoc ..).symm⟩
  | @tag _ dashed c text start inside _ _ _ _ _ _ _ h _ hinside _ hrest _ ih =>
    have hsplit : c.rest = text ++ start ++ dash dashed ++ inside := by
      rw [h, List.append_assoc _ (dash dashed)]
    obtain ⟨more, hafter⟩ := hinside.after_at (hc.past hsplit)
    obtain ⟨others, rfl⟩ := ih (hafter.past hrest)
    exact ⟨_, (List.append_assoc ..).symm⟩

/-! ### Sources -/

/-- **What is read of a source**: all of it, or all but one newline at its end, which is kept only if
that is asked for. -/
inductive WithoutFinalNewline (keep : Bool) : (source text : List Char) → Prop where
  | whole {text : List Char} (h : keep = true ∨ text.getLast? ≠ some '\n') :
      WithoutFinalNewline keep text text
  | newline {text : List Char} (h : keep = false) (hreturn : text.getLast? ≠ some '\r') :
      WithoutFinalNewline keep (text ++ ['\n']) text
  | returnNewline {text : List Char} (h : keep = false) :
      WithoutFinalNewline keep (text ++ ['\r', '\n']) text

theorem withoutFinalNewline_drop (cs : List Char) :
    WithoutFinalNewline false cs (dropFinalNewline cs) := by
  unfold dropFinalNewline
  split
  · next rest h =>
    have hcs := congrArg List.reverse h
    rw [List.reverse_reverse, List.reverse_cons, List.reverse_cons, List.append_assoc] at hcs
    rw [hcs]
    exact .returnNewline rfl
  · next rest hno h =>
    have hcs := congrArg List.reverse h
    rw [List.reverse_reverse, List.reverse_cons] at hcs
    rw [hcs]
    refine .newline rfl fun hlast => ?_
    rw [List.getLast?_reverse] at hlast
    obtain ⟨more, rfl⟩ := List.head?_eq_some_iff.1 hlast
    exact hno more rfl
  · next hno =>
    refine .whole (.inr fun hlast => ?_)
    rw [← List.head?_reverse] at hlast
    obtain ⟨more, hmore⟩ := List.head?_eq_some_iff.1 hlast
    exact hno more hmore

theorem withoutFinalNewline_textOf (d : Delimiters) (source : String) :
    WithoutFinalNewline d.keepTrailingNewline source.toList (d.textOf source) := by
  unfold Delimiters.textOf
  by_cases hkeep : d.keepTrailingNewline = true
  · rw [if_pos hkeep]
    exact .whole (.inl hkeep)
  · rw [if_neg hkeep, Bool.eq_false_iff.2 hkeep]
    exact withoutFinalNewline_drop _

theorem WithoutFinalNewline.prefix {keep : Bool} {source text : List Char}
    (h : WithoutFinalNewline keep source text) : ∃ ending, source = text ++ ending := by
  cases h with
  | whole _ => exact ⟨[], (List.append_nil _).symm⟩
  | newline _ _ => exact ⟨_, rfl⟩
  | returnNewline _ => exact ⟨_, rfl⟩

/-- A token of a template, with the characters before it and its own. -/
theorem stands_of_template {source : String} {front back : List Token} {t : Token}
    (h : Token.ofTemplate d source = .ok tokens) (htokens : tokens = front ++ t :: back) :
    ∃ before shown, t.Stands source.toList before shown ∧
      t.kind.Spells d (front.getLast?.map Token.type) shown := by
  obtain ⟨ending, hending⟩ := WithoutFinalNewline.prefix (withoutFinalNewline_textOf d source)
  have hfaithful : Faithful d (d.textOf source) none 0 tokens :=
    (course_of_ok h).faithful (Cursor.at_start _) (Nat.le_refl _)
  obtain ⟨before, shown, hstands, hspells⟩ := hfaithful.split htokens
  rw [Option.or_none] at hspells
  rw [hending]
  exact ⟨before, shown, hstands.extend ending, hspells⟩

/-- **Every token stands at its place.** It lies between characters of the source, on the line that
the newlines before it give, and is spelled by the characters there; no token begins before the end
of an earlier one, and the end of the template is behind all that is read of the source. -/
theorem places_of_template {source : String} (h : Token.ofTemplate d source = .ok tokens) :
    (∀ front t back, tokens = front ++ t :: back → ∃ before shown,
      t.Stands source.toList before shown ∧
        t.kind.Spells d (front.getLast?.map Token.type) shown) ∧
    tokens.Pairwise (fun t u => t.span.hi ≤ u.span.lo) ∧
    ∃ text others last, WithoutFinalNewline d.keepTrailingNewline source.toList text ∧
      tokens = others ++ [last] ∧ last.kind = .mark .endOfTemplate ∧
        last.span = .point (byteSize text) := by
  have hcourse := course_of_ok h
  have hstart := Cursor.at_start (d.textOf source)
  have htext := withoutFinalNewline_textOf d source
  have hfaithful : Faithful d (d.textOf source) none 0 tokens := hcourse.faithful hstart (Nat.le_refl _)
  obtain ⟨others, hothers⟩ := hcourse.last hstart
  exact ⟨fun _ _ _ htokens => stands_of_template h htokens, hfaithful.pairwise,
    ⟨_, others, _, htext, hothers, rfl, rfl⟩⟩

/-- A name on the second line, and a number that has an underscore, in a tag with a dash. -/
theorem places_of_template_number :
    let source := "a\n\x7b% if 1_0 -%\x7d\n"
    let name : Token := ⟨.name "if", 2, ⟨5, 7⟩⟩
    let number : Token := ⟨.integer 10, 2, ⟨8, 11⟩⟩
    ∃ tokens, Token.ofTemplate {} source = .ok tokens ∧
      tokens.Pairwise (fun t u => t.span.hi ≤ u.span.lo) ∧
      (∃ before shown, name.Stands source.toList before shown ∧
        name.kind.Spells {} (some (.mark .blockBegin)) shown) ∧
      ∃ before shown, number.Stands source.toList before shown ∧
        number.kind.Spells {} (some .name) shown := by
  intro source name number
  let data : Token := ⟨.data "a\n", 1, ⟨0, 2⟩⟩
  let start : Token := ⟨.mark .blockBegin, 2, ⟨2, 4⟩⟩
  let last : List Token := [⟨.mark .blockEnd, 2, ⟨12, 15⟩⟩, ⟨.mark .endOfTemplate, 2, ⟨15, 15⟩⟩]
  have htokens : Token.ofTemplate {} source = .ok (data :: start :: name :: number :: last) := by cbv
  obtain ⟨hstands, hpairwise, -⟩ := places_of_template htokens
  refine ⟨_, htokens, hpairwise, hstands [data, start] name (number :: last) rfl, ?_⟩
  exact hstands [data, start, name] number last rfl

end LiquidTemplate
