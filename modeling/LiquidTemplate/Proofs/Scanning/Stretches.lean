import LiquidTemplate.Token.Template

/-!
# Stretches of text

A cursor goes over a text in stretches. A stretch that is no tag becomes a data token, without the
blanks that a dash at one of its ends strips.

* `Cursor.past_past`: two stretches are one.
* `Stripped`: a stretch of text with the blanks that are dropped.
* `dataToken_eq`, `dataToken_unstripped`: the token of a stretch.
-/

namespace LiquidTemplate

open Text

/-! ### Cursors -/

theorem isBlank_of_mem_takeWhile {cs : List Char} {c : Char} (h : c ∈ cs.takeWhile isBlank) :
    isBlank c = true :=
  List.all_eq_true.1 List.all_takeWhile c h

namespace Cursor

/-- Two stretches one after the other are one. -/
theorem past_past (c : Cursor) (as bs rest rest' : List Char) :
    (c.past as rest).past bs rest' = c.past (as ++ bs) rest' := by
  simp only [past, byteSize_append, newlines_append, Nat.add_assoc]

@[simp] theorem past_nil (c : Cursor) : c.past [] c.rest = c :=
  rfl

@[simp] theorem past_rest (c : Cursor) (as rest : List Char) : (c.past as rest).rest = rest :=
  rfl

/-- The stretch of blanks at a cursor. -/
theorem skipBlanks_eq (c : Cursor) : ∃ blanks, (∀ x ∈ blanks, isBlank x = true) ∧
    c.rest = blanks ++ c.skipBlanks.rest ∧ c.skipBlanks = c.past blanks c.skipBlanks.rest :=
  ⟨c.rest.takeWhile isBlank, fun _ => isBlank_of_mem_takeWhile, (trimStart_eq c.rest).symm, rfl⟩

theorem skipNewline_eq (c : Cursor) : ∃ newline rest,
    (newline = [] ∨ newline = ['\n'] ∨ newline = ['\r', '\n']) ∧ c.rest = newline ++ rest ∧
      c.skipNewline = c.past newline rest := by
  unfold skipNewline
  split
  · next rest h => exact ⟨_, rest, .inr (.inr rfl), after?_eq_some_iff.1 h, rfl⟩
  · split
    · next rest h => exact ⟨_, rest, .inr (.inl rfl), after?_eq_some_iff.1 h, rfl⟩
    · exact ⟨[], c.rest, .inl rfl, rfl, rfl⟩

end Cursor

@[simp] theorem consumed_append (taken rest : List Char) : consumed (taken ++ rest) rest = taken := by
  simp [consumed]

/-! ### Texts -/

/-- **Stripped text**: what is shown of a text, with the blanks that are dropped on the sides that
are asked for. -/
structure Stripped (stripStart stripEnd : Bool) (text lead shown trail : List Char) : Prop where
  text_eq : text = lead ++ shown ++ trail
  lead_blank : ∀ c ∈ lead, isBlank c = true
  trail_blank : ∀ c ∈ trail, isBlank c = true
  lead_eq_nil : stripStart = false → lead = []
  trail_eq_nil : stripEnd = false → trail = []
  head_shown : stripStart = true → ∀ c ∈ shown.head?, isBlank c = false
  last_shown : stripEnd = true → ∀ c ∈ shown.getLast?, isBlank c = false

theorem head_trimStart (cs : List Char) : ∀ c ∈ (trimStart cs).head?, isBlank c = false := by
  intro c hc
  have hhead := List.head?_dropWhile_not isBlank cs
  unfold trimStart at hc
  rw [hc] at hhead
  simpa using hhead

theorem last_trimEnd (cs : List Char) : ∀ c ∈ (trimEnd cs).getLast?, isBlank c = false := by
  intro c hc
  unfold trimEnd at hc
  rw [List.getLast?_reverse] at hc
  exact head_trimStart cs.reverse c hc

/-- The blanks at the end are all that `trimEnd` drops. -/
theorem trimEnd_eq (cs : List Char) :
    ∃ trail, (∀ c ∈ trail, isBlank c = true) ∧ cs = trimEnd cs ++ trail := by
  refine ⟨(cs.reverse.takeWhile isBlank).reverse, fun c hc => ?_, ?_⟩
  · exact isBlank_of_mem_takeWhile (List.mem_reverse.1 hc)
  · have h := congrArg List.reverse (trimStart_eq cs.reverse)
    rw [List.reverse_append, List.reverse_reverse] at h
    exact h.symm

/-- What is kept of a text whose blanks at the start are dropped. -/
theorem stripped_start (text : List Char) (stripStart : Bool) :
    let kept := if stripStart then trimStart text else text
    Stripped stripStart false text (consumed text kept) kept [] := by
  intro kept
  cases stripStart with
  | true =>
    have hsplit : text.takeWhile isBlank ++ trimStart text = text := trimStart_eq text
    have hconsumed : consumed text kept = text.takeWhile isBlank := by
      calc consumed text (trimStart text)
          = consumed (text.takeWhile isBlank ++ trimStart text) (trimStart text) := by rw [hsplit]
        _ = text.takeWhile isBlank := consumed_append _ _
    rw [hconsumed]
    refine ⟨?_, fun _ => isBlank_of_mem_takeWhile, nofun, nofun, fun _ => rfl,
      fun _ => head_trimStart text, nofun⟩
    rw [List.append_nil]
    exact hsplit.symm
  | false =>
    have hconsumed : consumed text kept = [] := consumed_append [] text
    rw [hconsumed]
    exact ⟨(List.append_nil _).symm, nofun, nofun, fun _ => rfl, fun _ => rfl, nofun, nofun⟩

/-- What is shown of a text, if what is kept of it loses its blanks at the end. -/
theorem Stripped.trimEnd {stripStart : Bool} {text lead kept : List Char}
    (h : Stripped stripStart false text lead kept []) :
    ∃ trail, kept = Text.trimEnd kept ++ trail ∧
      Stripped stripStart true text lead (Text.trimEnd kept) trail := by
  obtain ⟨trail, htrail, hkept⟩ := trimEnd_eq kept
  refine ⟨trail, hkept, ?_, h.lead_blank, htrail, h.lead_eq_nil, nofun, fun hs c hc => ?_,
    fun _ => last_trimEnd kept⟩
  · rw [List.append_assoc, ← hkept, h.text_eq, List.append_nil]
  · refine h.head_shown hs c ?_
    rw [hkept, List.head?_append, Option.mem_def.1 hc]
    rfl

/-- **A data token** is what is shown of a stretch of text, if that is anything. -/
theorem dataToken_eq (c : Cursor) (text : List Char) (stripStart stripEnd : Bool) :
    ∃ lead shown trail, Stripped stripStart stripEnd text lead shown trail ∧
      dataToken c text stripStart stripEnd = if shown = [] then [] else
        [(c.past lead (shown ++ trail)).tokenTo (.data (String.ofList shown))
          (c.past (lead ++ shown) trail)] := by
  have hstart := stripped_start text stripStart
  have htoken (shown trail : List Char) (lead kept : List Char) (hk : kept = shown ++ trail) :
      (if shown.isEmpty then [] else [(c.past lead kept).tokenTo (.data (String.ofList shown))
        ((c.past lead kept).past shown [])]) =
      if shown = [] then [] else [(c.past lead (shown ++ trail)).tokenTo
        (.data (String.ofList shown)) (c.past (lead ++ shown) trail)] := by
    rw [← hk, Cursor.past_past]
    simp only [List.isEmpty_iff]
    rfl
  unfold dataToken
  extract_lets kept start shown
  cases stripEnd with
  | true =>
    obtain ⟨trail, hkept, hstripped⟩ := hstart.trimEnd
    exact ⟨_, shown, trail, hstripped, htoken shown trail _ kept hkept⟩
  | false => exact ⟨_, kept, [], hstart, htoken kept [] _ kept (List.append_nil _).symm⟩

@[simp] theorem dataToken_nil (c : Cursor) (stripStart stripEnd : Bool) :
    dataToken c [] stripStart stripEnd = [] := by
  unfold dataToken
  cases stripStart <;> cases stripEnd <;> rfl

/-- A text without the blanks at its end, if these are stripped. -/
def strippedEnd (stripEnd : Bool) (text : List Char) : List Char :=
  if stripEnd then trimEnd text else text

/-- A stretch of text that is not stripped at its start. -/
theorem dataToken_unstripped (c : Cursor) (text : List Char) (stripEnd : Bool) :
    dataToken c text false stripEnd =
      if strippedEnd stripEnd text = [] then [] else
        [⟨.data (String.ofList (strippedEnd stripEnd text)), c.line,
          ⟨c.offset, c.offset + byteSize (strippedEnd stripEnd text)⟩⟩] := by
  have hconsumed : consumed text text = [] := consumed_append [] text
  unfold dataToken
  simp only [Bool.false_eq_true, if_false, hconsumed, List.isEmpty_iff]
  rfl

end LiquidTemplate
