import Mathlib
import LiquidTemplate.Proofs.Errors.Lexing

/-!
# Rounds of the lexer

The lexer goes over a template in rounds: a stretch of text and the tag behind it. Inside of a tag it
goes from token to token. Where no opening delimiter is empty, every round and every token takes some
of the text, so that the lexer ends.

* `Round`: one round, and where it leads.
* `Round.progress`: a round takes an opening delimiter, or the rest of the text.
* `offset_lt_of_nextToken`: a token takes at least a byte.
* `Lexes`: the loop of rounds up to its end, with the tokens or the error that it ends with.
* `lexes_templateTokens`: the lexer runs such a loop.
-/

namespace LiquidTemplate

open Text

variable {d : Delimiters} {strip strip' : Bool} {c c' : Cursor} {found : Opened} {tag : TagResult}

/-- **One round** at a cursor, where blanks are stripped from the text if `strip`: text up to the end
of the template, or text and the tag at the first opening delimiter. -/
inductive Round (d : Delimiters) : Bool → Cursor → Bool → Cursor → Prop where
  | last {strip : Bool} {c : Cursor} (hmore : c.rest ≠ [])
      (hnone : findOpening? d.openings c.rest = none) : Round d strip c false (c.past c.rest [])
  | tag {strip : Bool} {c : Cursor} {found : Opened} {tag : TagResult}
      (hfound : findOpening? d.openings c.rest = some found)
      (hread : readTag d found (c.past found.before (found.delimiter ++ found.after)) = .ok tag) :
      Round d strip c tag.strip tag.after

/-! ### Progress -/

theorem Cursor.Leads.offset_le (h : c.Leads c') : c.offset ≤ c'.offset := by
  obtain ⟨taken, rest, -, rfl⟩ := h
  exact Nat.le_add_right ..

theorem Cursor.Leads.length_le (h : c.Leads c') : c'.rest.length ≤ c.rest.length := by
  obtain ⟨taken, rest, hrest, rfl⟩ := h
  rw [hrest, List.length_append]
  exact Nat.le_add_left ..

/-- A tag ends behind its opening delimiter. -/
theorem inside_leads (hfound : findOpening? d.openings c.rest = some found)
    (hread : readTag d found (c.past found.before (found.delimiter ++ found.after)) = .ok tag) :
    (found.inside c).Leads tag.after := by
  have houtcome := outcome_of_opening hfound (Nat.le_refl c.line)
  rw [hread] at houtcome
  exact houtcome.1

theorem Round.leads (h : Round d strip c strip' c') : c.Leads c' := by
  cases h with
  | last => exact Cursor.leads_past (List.append_nil _).symm
  | tag hfound hread => exact (leads_inside hfound).trans (inside_leads hfound hread)

/-- No delimiter that is found is empty. -/
theorem byteSize_delimiter_pos (hd : ∀ o, d.start o ≠ "")
    (hfound : findOpening? d.openings c.rest = some found) : 0 < byteSize found.delimiter := by
  have hdelimiter := (findOpening?_eq hfound).2
  have hne : found.delimiter ≠ [] := by
    rw [hdelimiter]
    simpa using hd found.opening
  exact Nat.lt_of_lt_of_le (List.length_pos_iff.2 hne) (length_le_byteSize _)

/-- **A round takes an opening delimiter**, with what stands before it, or the rest of the text. -/
theorem Round.progress (hd : ∀ o, d.start o ≠ "") (h : Round d strip c strip' c') :
    c'.rest = [] ∨ ∃ found, findOpening? d.openings c.rest = some found ∧
      0 < byteSize found.delimiter ∧
      c.offset + byteSize found.before + byteSize found.delimiter ≤ c'.offset := by
  cases h with
  | last => exact .inl rfl
  | @tag found tag hfound hread =>
    refine .inr ⟨found, hfound, byteSize_delimiter_pos hd hfound, ?_⟩
    have hle := (inside_leads hfound hread).offset_le
    have hinside : (found.inside c).offset = c.offset + byteSize (found.before ++ found.delimiter) :=
      rfl
    rw [hinside, byteSize_append] at hle
    omega

/-- **A tag is shorter** than the text from which it is read. -/
theorem length_lt_of_readTag (hd : ∀ o, d.start o ≠ "")
    (hfound : findOpening? d.openings c.rest = some found)
    (hread : readTag d found (c.past found.before (found.delimiter ++ found.after)) = .ok tag) :
    tag.after.rest.length < c.rest.length := by
  have hle := (inside_leads hfound hread).length_le
  have hpos : 0 < found.delimiter.length := by
    rw [(findOpening?_eq hfound).2]
    simpa [Nat.pos_iff_ne_zero] using hd found.opening
  have hinside : (found.inside c).rest = found.after := rfl
  rw [(findOpening?_eq hfound).1, List.length_append, List.length_append]
  rw [hinside] at hle
  omega

/-- **A token takes at least a byte.** -/
theorem offset_lt_of_nextToken {previous : Option TokenType} {opened after : List Bracket}
    {t : Token} (h : nextToken previous opened c = .ok (t, after, c')) : c.offset < c'.offset := by
  obtain ⟨l, hl, rfl, -⟩ := exists_of_nextToken h
  have hne := List.length_pos_iff.2 (Lexeme.scan_eq hl).2
  have hle := length_le_byteSize l.chars
  show c.offset < c.offset + byteSize l.chars
  omega

/-! ### The loop -/

/-- **The loop of rounds** from a cursor on, up to its end: the end of the template, the text before
it, an error in a tag, or a tag and the rounds behind it. There is no bound for the rounds. -/
inductive Lexes (d : Delimiters) : Bool → Cursor → Except SyntaxError (List Token) → Prop where
  | finish {strip : Bool} {c : Cursor} (hend : c.rest = []) : Lexes d strip c (.ok [c.endToken])
  | last {strip : Bool} {c : Cursor} (hmore : c.rest ≠ [])
      (hnone : findOpening? d.openings c.rest = none) :
      Lexes d strip c (.ok (dataToken c c.rest strip false ++ [(c.past c.rest []).endToken]))
  | fault {strip : Bool} {c : Cursor} {found : Opened} {e : SyntaxError}
      (hfound : findOpening? d.openings c.rest = some found)
      (hread : readTag d found (c.past found.before (found.delimiter ++ found.after)) = .error e) :
      Lexes d strip c (.error e)
  | tag {strip : Bool} {c : Cursor} {found : Opened} {tag : TagResult}
      {result : Except SyntaxError (List Token)}
      (hfound : findOpening? d.openings c.rest = some found)
      (hread : readTag d found (c.past found.before (found.delimiter ++ found.after)) = .ok tag)
      (next : Lexes d tag.strip tag.after result) :
      Lexes d strip c (result.map fun ts =>
        dataToken c found.before strip (found.after.head? == some '-') ++ tag.tokens ++ ts)

/-- **The lexer ends**, where no opening delimiter is empty. -/
theorem lexes_templateTokens (hd : ∀ o, d.start o ≠ "") (strip : Bool) (c : Cursor) :
    Lexes d strip c (templateTokens d strip c) := by
  fun_induction templateTokens d strip c with
  | case1 strip c hend => exact .finish (List.isEmpty_iff.1 hend)
  | case2 strip c hmore hnone => exact .last (mt List.isEmpty_iff.2 hmore) hnone
  | case3 strip c _ found hfound _ e hread => exact .fault hfound hread
  | case4 strip c _ found hfound _ _ tag hread _ ih => exact .tag hfound hread ih
  | case5 strip c _ found hfound _ tag hread hmore =>
    exact absurd (length_lt_of_readTag hd hfound hread) hmore

end LiquidTemplate
