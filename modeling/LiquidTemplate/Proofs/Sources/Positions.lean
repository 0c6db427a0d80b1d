import LiquidTemplate.Source

/-!
# The positions of a source

A text is split where a position is asked for. The table of lines has an entry for the beginning of the
text and one for each newline, and the entries of what is in front of an offset come first: the number of
newlines there is the index that bisection finds.

* `Text.bisect_eq`, `Text.lineIndex?_append`: the search for an offset in the table of lines.
* `Source.position?_append`, `Source.position?_isSome_iff`: positions are those of the places between
  characters.
* `Text.LineAt`, `Source.lineSpan?_of_lineAt`: the lines of a source.
* `Source.HasLine`: a line, and where the next one begins.
* `source_positions`: positions and lines agree.
-/

namespace LiquidTemplate

namespace Text

variable {cs before after head line ending : List Char}

/-! ### Places between characters -/

/-- The bytes of a first character, and those behind it. -/
theorem exists_byteSize_cons (c : Char) (cs : List Char) :
    ∃ n, byteSize (c :: cs) = n + 1 ∧ n + 1 - c.utf8Size = byteSize cs ∧ ¬ n + 1 < c.utf8Size := by
  have hpos := c.utf8Size_pos
  have hsize := byteSize_cons c cs
  exact ⟨byteSize (c :: cs) - 1, by omega, by omega, by omega⟩

theorem dropBytes?_append (before after : List Char) :
    dropBytes? (byteSize before) (before ++ after) = some after := by
  induction before with
  | nil => rw [byteSize_nil, dropBytes?, List.nil_append]
  | cons c cs ih =>
    obtain ⟨n, hsize, hrest, hfits⟩ := exists_byteSize_cons c cs
    rw [hsize, List.cons_append, dropBytes?, if_neg hfits, hrest, ih]

theorem takeBytes?_append (before after : List Char) :
    takeBytes? (byteSize before) (before ++ after) = some before := by
  induction before with
  | nil => rw [byteSize_nil, takeBytes?]
  | cons c cs ih =>
    obtain ⟨n, hsize, hrest, hfits⟩ := exists_byteSize_cons c cs
    rw [hsize, List.cons_append, takeBytes?, if_neg hfits, hrest, ih, Option.map_some]

theorem eq_append_of_dropBytes? {n : Nat} (h : dropBytes? n cs = some after) :
    ∃ before, cs = before ++ after ∧ byteSize before = n := by
  fun_induction dropBytes? n cs with
  | case1 => exact ⟨[], by simpa using h, rfl⟩
  | case2 => nomatch h
  | case3 => nomatch h
  | case4 n c cs hfits ih =>
    obtain ⟨before, rfl, hsize⟩ := ih h
    exact ⟨c :: before, rfl, by rw [byteSize_cons]; omega⟩

theorem eq_append_of_takeBytes? {n : Nat} (h : takeBytes? n cs = some before) :
    ∃ after, cs = before ++ after ∧ byteSize before = n := by
  fun_induction takeBytes? n cs generalizing before with
  | case1 cs =>
    obtain rfl := Option.some.inj h
    exact ⟨cs, rfl, rfl⟩
  | case2 => nomatch h
  | case3 => nomatch h
  | case4 n c cs hfits ih =>
    obtain ⟨before, hbefore, rfl⟩ := Option.map_eq_some_iff.1 h
    obtain ⟨after, rfl, hsize⟩ := ih hbefore
    exact ⟨after, rfl, by rw [byteSize_cons]; omega⟩

/-! ### The table of lines -/

/-- **Bisection** finds the index up to which a property holds. -/
theorem bisect_eq {p : Nat → Bool} {n lo hi : Nat} (hlow : ∀ i, i < n → p i = true)
    (hhigh : ∀ i, n ≤ i → i < hi → ¬ p i = true) (hlo : lo ≤ n) (hhi : n ≤ hi) :
    bisect p lo hi = n := by
  fun_induction bisect p lo hi with
  | case1 lo hi hlt middle hp ih =>
    have hbelow : middle < n := Nat.lt_of_not_le fun hle => hhigh middle hle (by omega) hp
    exact ih hhigh hbelow hhi
  | case2 lo hi hlt middle hp ih =>
    have habove : n ≤ middle := Nat.le_of_not_lt fun hlt => hp (hlow middle hlt)
    exact ih (fun i hi' hlt => hhigh i hi' (by omega)) hlo habove
  | case3 lo hi hle => omega

/-- **The partition point** of elements with a property and others behind them. -/
theorem partitionPoint_append {p : Nat → Bool} {low high : List Nat} (hlow : ∀ x ∈ low, p x = true)
    (hhigh : ∀ x ∈ high, ¬ p x = true) : partitionPoint p (low ++ high).toArray = low.length := by
  refine bisect_eq (fun i hi => ?_) (fun i hi hsize => ?_) (Nat.zero_le _) (by simp)
  · rw [List.getElem?_toArray, List.getElem?_append_left hi, List.getElem?_eq_getElem hi]
    exact hlow _ (List.getElem_mem hi)
  · have hlt : i - low.length < high.length := by
      rw [List.size_toArray, List.length_append] at hsize
      omega
    rw [List.getElem?_toArray, List.getElem?_append_right hi, List.getElem?_eq_getElem hlt]
    exact hhigh _ (List.getElem_mem hlt)

theorem startsBehind_append (offset : Nat) (before after : List Char) :
    startsBehind offset (before ++ after) =
      startsBehind offset before ++ startsBehind (offset + byteSize before) after := by
  induction before generalizing offset with
  | nil => rfl
  | cons c cs ih =>
    rw [List.cons_append, startsBehind, startsBehind, ih, byteSize_cons, Nat.add_assoc]
    split <;> rfl

/-- The lines behind an offset begin behind it, within the text. -/
theorem mem_startsBehind {offset start : Nat} (h : start ∈ startsBehind offset cs) :
    offset < start ∧ start ≤ offset + byteSize cs := by
  induction cs generalizing offset with
  | nil => nomatch h
  | cons c cs ih =>
    have hpos := c.utf8Size_pos
    have hlater : start ∈ startsBehind (offset + c.utf8Size) cs →
        offset < start ∧ start ≤ offset + byteSize (c :: cs) := fun hmem => by
      have := ih hmem
      rw [byteSize_cons]
      omega
    rw [startsBehind] at h
    split at h
    · rcases List.mem_cons.1 h with rfl | hmem
      · rw [byteSize_cons]
        omega
      · exact hlater hmem
    · exact hlater h

/-- **The line of an offset** is found by the newlines before it. -/
theorem lineIndex?_append (before after : List Char) :
    lineIndex? (lineStarts (before ++ after)) (byteSize before) = some (newlines before) := by
  have htable : lineStarts (before ++ after) =
      ((0 :: startsBehind 0 before) ++ startsBehind (byteSize before) after).toArray := by
    rw [lineStarts, startsBehind_append, Nat.zero_add, List.cons_append]
  have hpoint : partitionPoint (· ≤ byteSize before) (lineStarts (before ++ after)) =
      newlines before + 1 := by
    rw [htable, partitionPoint_append, List.length_cons, length_startsBehind]
    · intro start hstart
      rcases List.mem_cons.1 hstart with rfl | hmem
      · exact decide_eq_true (Nat.zero_le _)
      · have := (mem_startsBehind hmem).2
        exact decide_eq_true (by omega)
    · intro start hstart
      have := (mem_startsBehind hstart).1
      simpa using this
  rw [lineIndex?, hpoint, Nat.add_sub_cancel, htable]
  rfl

/-! ### Beginnings of lines -/

/-- Whether a line begins behind `cs`: it is empty, or it ends with a newline. -/
def EndsLine (cs : List Char) : Prop :=
  cs = [] ∨ ∃ init, cs = init ++ ['\n']

theorem EndsLine.cons {c : Char} (h : EndsLine cs) (hcs : cs = [] → c = '\n') : EndsLine (c :: cs) := by
  rcases h with rfl | ⟨init, rfl⟩
  · exact .inr ⟨[], by rw [hcs rfl]; rfl⟩
  · exact .inr ⟨c :: init, rfl⟩

/-- **An entry of the table** is where a line begins. -/
theorem getElem?_lineStarts (h : EndsLine head) (after : List Char) :
    (lineStarts (head ++ after))[newlines head]? = some (byteSize head) := by
  rcases h with rfl | ⟨init, rfl⟩
  · rfl
  · have hindex : newlines (init ++ ['\n']) = (0 :: startsBehind 0 init).length := by
      rw [newlines_append, List.length_cons, length_startsBehind]
      rfl
    rw [lineStarts, List.getElem?_toArray, List.append_assoc, startsBehind_append, ← List.cons_append,
      hindex, List.getElem?_append_right (Nat.le_refl _), Nat.sub_self, Nat.zero_add,
      List.singleton_append, startsBehind, if_pos rfl, List.getElem?_cons_zero, byteSize_append]
    rfl

/-- There is a line with every index up to the number of newlines. -/
theorem exists_endsLine {l : Nat} (h : l ≤ newlines cs) :
    ∃ head after, cs = head ++ after ∧ EndsLine head ∧ newlines head = l := by
  induction cs generalizing l with
  | nil => exact ⟨[], [], rfl, .inl rfl, (Nat.le_zero.1 h).symm⟩
  | cons c cs ih =>
    rcases l with _ | l
    · exact ⟨[], c :: cs, rfl, .inl rfl, rfl⟩
    rw [newlines_cons] at h
    -- behind a newline there is one line fewer to go
    have hnext : (if c = '\n' then l else l + 1) ≤ newlines cs := by
      by_cases hc : c = '\n'
      · rw [if_pos hc] at h ⊢
        omega
      · rw [if_neg hc] at h ⊢
        omega
    obtain ⟨head, after, rfl, hhead, hcount⟩ := ih hnext
    refine ⟨c :: head, after, rfl, hhead.cons fun hnil => ?_, ?_⟩
    · rw [hnil, newlines_nil] at hcount
      split at hcount
      · assumption
      · nomatch hcount
    · rw [newlines_cons, hcount]
      split <;> rfl

/-- **Last line** of a text: the characters behind its last newline. -/
def lastLine (cs : List Char) : List Char :=
  (cs.reverse.takeWhile (· ≠ '\n')).reverse

theorem lastLine_append (h : EndsLine head) (hline : '\n' ∉ line) : lastLine (head ++ line) = line := by
  have hkeep : ∀ c ∈ line.reverse, (c ≠ '\n' : Bool) = true := fun c hc =>
    decide_eq_true fun heq => hline (heq ▸ List.mem_reverse.1 hc)
  have hstop : head.reverse.takeWhile (· ≠ '\n') = [] := by
    rcases h with rfl | ⟨init, rfl⟩
    · rfl
    · rw [List.reverse_append]
      rfl
  rw [lastLine, List.reverse_append, List.takeWhile_append_of_pos hkeep, hstop, List.append_nil,
    List.reverse_reverse]

/-- **A text ends with its last line.** -/
theorem exists_lastLine (cs : List Char) :
    ∃ head, cs = head ++ lastLine cs ∧ EndsLine head ∧ '\n' ∉ lastLine cs := by
  obtain ⟨head, line, hcs, hhead, hcount⟩ := exists_endsLine (Nat.le_refl (newlines cs))
  have hline : '\n' ∉ line := fun hmem => by
    have := List.count_pos_iff.2 hmem
    rw [hcs, newlines_append, newlines, newlines] at hcount
    omega
  have hlast : lastLine cs = line := by rw [hcs, lastLine_append hhead hline]
  exact ⟨head, hlast.symm ▸ hcs, hhead, hlast.symm ▸ hline⟩

theorem lastLine_append_of_flat (before : List Char) (h : '\n' ∉ line) :
    lastLine (before ++ line) = lastLine before ++ line := by
  obtain ⟨head, hbefore, hhead, hlast⟩ := exists_lastLine before
  have hflat : '\n' ∉ lastLine before ++ line := fun hmem => (List.mem_append.1 hmem).elim hlast h
  calc lastLine (before ++ line) = lastLine (head ++ (lastLine before ++ line)) := by
        rw [← List.append_assoc, ← hbefore]
    _ = lastLine before ++ line := lastLine_append hhead hflat

theorem newlines_eq_zero_iff : newlines cs = 0 ↔ '\n' ∉ cs :=
  List.count_eq_zero

/-- **Positions tell places apart**, also if one is behind the other. -/
theorem eq_nil_of_same_position (hline : newlines (before ++ after) = newlines before)
    (hcolumn : (lastLine (before ++ after)).length = (lastLine before).length) : after = [] := by
  have hflat : '\n' ∉ after := by
    rw [← newlines_eq_zero_iff]
    rw [newlines_append] at hline
    omega
  rw [lastLine_append_of_flat before hflat, List.length_append] at hcolumn
  exact List.length_eq_zero_iff.1 (by omega)

/-! ### Lines -/

/-- **A line of a text**, its line end, and what is before and behind both. -/
structure LineAt (cs before line ending after : List Char) : Prop where
  eq : cs = before ++ line ++ ending ++ after
  begins : EndsLine before
  text : dropLineEnd (line ++ ending) = line
  flat : '\n' ∉ line
  blank : ∀ c ∈ ending, c = '\n' ∨ c = '\r'
  ends : EndsLine (before ++ line ++ ending) ∧ newlines ending = 1 ∨ after = [] ∧ newlines ending = 0

theorem dropLineEnd_append (cs : List Char) :
    ∃ ending, dropLineEnd cs ++ ending = cs ∧ ∀ c ∈ ending, c = '\n' ∨ c = '\r' := by
  refine ⟨(cs.reverse.takeWhile fun c => c = '\n' || c = '\r').reverse, ?_, fun c hc => ?_⟩
  · rw [dropLineEnd, ← List.reverse_append, List.takeWhile_append_dropWhile, List.reverse_reverse]
  · have hall := List.all_eq_true.1 List.all_takeWhile c (List.mem_reverse.1 hc)
    simpa using hall

theorem dropLineEnd_newline (cs : List Char) : dropLineEnd (cs ++ ['\n']) = dropLineEnd cs := by
  rw [dropLineEnd, List.reverse_append]
  rfl

/-- **A line begins behind each newline**, and at the beginning of the text. -/
theorem exists_lineAt (h : EndsLine before) (rest : List Char) :
    ∃ line ending after, LineAt (before ++ rest) before line ending after := by
  by_cases hmem : '\n' ∈ rest
  · obtain ⟨raw, after, rfl, hraw⟩ := List.eq_append_cons_of_mem hmem
    obtain ⟨ending, hending, hblank⟩ := dropLineEnd_append (raw ++ ['\n'])
    obtain ⟨_, hkept, -⟩ := dropLineEnd_append raw
    have hflat : '\n' ∉ dropLineEnd (raw ++ ['\n']) := fun hin => by
      rw [dropLineEnd_newline] at hin
      exact hraw (hkept ▸ List.mem_append_left _ hin)
    have hcount : newlines ending = 1 := by
      have hboth := congrArg newlines hending
      rw [newlines_append, newlines_append, newlines_eq_zero_iff.2 hflat,
        newlines_eq_zero_iff.2 hraw, Nat.zero_add, Nat.zero_add] at hboth
      exact hboth
    refine ⟨dropLineEnd (raw ++ ['\n']), ending, after, ?_, h, by rw [hending], hflat, hblank,
      .inl ⟨?_, hcount⟩⟩
    · rw [List.append_assoc before, hending]
      simp
    · rw [List.append_assoc before, hending]
      exact .inr ⟨before ++ raw, (List.append_assoc ..).symm⟩
  · obtain ⟨ending, hending, hblank⟩ := dropLineEnd_append rest
    have hin {part : List Char} (hpart : ∀ c ∈ part, c ∈ rest) : '\n' ∉ part :=
      fun hc => hmem (hpart _ hc)
    refine ⟨dropLineEnd rest, ending, [], ?_, h, by rw [hending], hin fun c hc => ?_, hblank,
      .inr ⟨rfl, newlines_eq_zero_iff.2 (hin fun c hc => ?_)⟩⟩
    · rw [List.append_assoc before, hending, List.append_nil]
    · exact hending ▸ List.mem_append_left _ hc
    · exact hending ▸ List.mem_append_right _ hc

/-- The newlines before the beginning of the next line. -/
theorem LineAt.newlines_next (h : LineAt cs before line ending after) :
    newlines (before ++ line ++ ending) = newlines before + newlines ending := by
  rw [newlines_append, newlines_append, newlines_eq_zero_iff.2 h.flat, Nat.add_zero]

/-- **A place on a line** is in its text, or behind a part of its line end. -/
theorem LineAt.split {tail rest : List Char} (h : LineAt cs before line ending after)
    (hcs : cs = before ++ tail ++ rest) (hflat : '\n' ∉ tail) :
    tail <+: line ∨ ∃ part, part ≠ [] ∧ part <+: ending ∧ tail = line ++ part := by
  have hrest : tail ++ rest = line ++ (ending ++ after) := by
    have := hcs.symm.trans h.eq
    rw [List.append_assoc before, List.append_assoc, List.append_assoc before] at this
    rw [List.append_cancel_left this]
  rcases List.append_eq_append_iff.1 hrest with ⟨more, hline, -⟩ | ⟨part, rfl, hend⟩
  · exact .inl ⟨more, hline.symm⟩
  by_cases hnil : part = []
  · rw [hnil, List.append_nil]
    exact .inl (List.prefix_refl _)
  refine .inr ⟨part, hnil, ?_, rfl⟩
  rcases List.append_eq_append_iff.1 hend with ⟨more, rfl, hafter⟩ | ⟨more, rfl, -⟩
  · rcases h.ends with ⟨-, hone⟩ | ⟨hend, -⟩
    · have hmem : '\n' ∈ ending := List.count_pos_iff.1 (by rw [← newlines]; omega)
      exact absurd (List.mem_append_right _ (List.mem_append_left _ hmem)) hflat
    · rw [hend] at hafter
      have hmore : more = [] := (List.append_eq_nil_iff.1 hafter.symm).1
      exact ⟨[], by rw [hmore, List.append_nil, List.append_nil]⟩
  · exact List.prefix_append ..

end Text

namespace Source

open Text

variable {s : Source} {before between after line ending : List Char} {l o : Nat}

/-! ### Positions -/

theorem spanText?_append (h : s.chars = before ++ between ++ after) :
    s.spanText? ⟨byteSize before, byteSize before + byteSize between⟩ = some between := by
  rw [spanText?, if_neg (Nat.not_lt.2 (Nat.le_add_right ..)), h, List.append_assoc, dropBytes?_append,
    Option.bind_some, Span.length, Nat.add_sub_cancel_left, takeBytes?_append]

theorem eq_append_of_spanText? {span : Span} (h : s.spanText? span = some between) :
    ∃ before after, s.chars = before ++ between ++ after ∧
      span.hi = byteSize (before ++ between) := by
  rw [spanText?] at h
  split at h
  · nomatch h
  next hle =>
    obtain ⟨rest, hdrop, htake⟩ := Option.bind_eq_some_iff.1 h
    obtain ⟨before, hbefore, hlo⟩ := eq_append_of_dropBytes? hdrop
    obtain ⟨after, rfl, hlength⟩ := eq_append_of_takeBytes? htake
    refine ⟨before, after, by rw [hbefore, List.append_assoc], ?_⟩
    rw [byteSize_append, hlo, hlength, Span.length]
    omega

/-- **The position of a place** is counted from what is before it: its newlines, and the characters of
its last line. -/
theorem position?_append (h : s.chars = before ++ after) :
    s.position? (byteSize before) = some (1 + newlines before, 1 + (lastLine before).length) := by
  obtain ⟨head, hbefore, hhead, hlast⟩ := exists_lastLine before
  have hindex : lineIndex? s.lineStarts (byteSize before) = some (newlines before) := by
    rw [lineStarts, h, lineIndex?_append]
  have hcount : newlines before = newlines head := by
    have hnone : newlines (lastLine before) = 0 := List.count_eq_zero.2 hlast
    calc newlines before = newlines (head ++ lastLine before) := by rw [← hbefore]
      _ = newlines head := by rw [newlines_append, hnone, Nat.add_zero]
  have hstart : s.lineStarts[newlines before]? = some (byteSize head) := by
    rw [lineStarts, h, hcount, hbefore, List.append_assoc, getElem?_lineStarts hhead]
  have htext : s.spanText? ⟨byteSize head, byteSize before⟩ = some (lastLine before) := by
    have hsize : byteSize before = byteSize head + byteSize (lastLine before) := by
      rw [← byteSize_append, ← hbefore]
    have hchars : s.chars = head ++ lastLine before ++ after := by rw [← hbefore, h]
    rw [hsize, spanText?_append hchars]
  have hfits : ¬ byteSize s.chars < byteSize before := by
    rw [h, byteSize_append]
    omega
  simp only [position?, if_neg hfits, hindex, hstart, htext, bind, Option.bind_some, Nat.add_comm]

/-- **Only places between characters** have a position. -/
theorem eq_append_of_position? {p : Nat × Nat} (h : s.position? o = some p) :
    ∃ before after, s.chars = before ++ after ∧ o = byteSize before := by
  rw [position?] at h
  split at h
  · nomatch h
  · obtain ⟨index, -, h⟩ := Option.bind_eq_some_iff.1 h
    obtain ⟨start, -, h⟩ := Option.bind_eq_some_iff.1 h
    obtain ⟨between, htext, -⟩ := Option.bind_eq_some_iff.1 h
    obtain ⟨before, after, hchars, ho⟩ := eq_append_of_spanText? htext
    exact ⟨before ++ between, after, hchars, ho⟩

/-- The places between characters are those of the string. -/
theorem isValid_iff :
    String.Pos.Raw.IsValid s.text ⟨o⟩ ↔
      ∃ before after, s.chars = before ++ after ∧ o = byteSize before := by
  rw [String.Pos.Raw.isValid_iff_exists_append]
  constructor
  · rintro ⟨before, after, htext, ho⟩
    refine ⟨before.toList, after.toList, by rw [chars, htext, String.toList_append], ?_⟩
    rw [byteSize_toList]
    exact congrArg String.Pos.Raw.byteIdx ho
  · rintro ⟨before, after, hchars, rfl⟩
    refine ⟨String.ofList before, String.ofList after, ?_, ?_⟩
    · rw [← String.ofList_append, ← hchars, chars, String.ofList_toList]
    · exact congrArg String.Pos.Raw.mk (utf8ByteSize_ofList before).symm

theorem position?_isSome_iff : (s.position? o).isSome = true ↔ String.Pos.Raw.IsValid s.text ⟨o⟩ := by
  rw [isValid_iff, Option.isSome_iff_exists]
  constructor
  · rintro ⟨p, hp⟩
    exact eq_append_of_position? hp
  · rintro ⟨before, after, hchars, rfl⟩
    exact ⟨_, position?_append hchars⟩

/-- **No two places have the same position.** -/
theorem position?_inj {o o' : Nat} {p : Nat × Nat} (h : s.position? o = some p)
    (h' : s.position? o' = some p) : o = o' := by
  obtain ⟨before, after, hchars, rfl⟩ := eq_append_of_position? h
  obtain ⟨before', after', hchars', rfl⟩ := eq_append_of_position? h'
  have hsame := Option.some.inj (((position?_append hchars).symm.trans h).trans
    (h'.symm.trans (position?_append hchars')))
  obtain ⟨hline, hcolumn⟩ := Prod.mk.inj hsame
  have hline := Nat.add_left_cancel hline
  have hcolumn := Nat.add_left_cancel hcolumn
  rcases List.append_eq_append_iff.1 (hchars.symm.trans hchars') with ⟨more, rfl, -⟩ | ⟨more, rfl, -⟩
  · rw [eq_nil_of_same_position hline.symm hcolumn.symm, List.append_nil]
  · rw [eq_nil_of_same_position hline hcolumn, List.append_nil]

/-! ### Lines -/

theorem lineCount_eq (s : Source) : s.lineCount = 1 + newlines s.chars :=
  size_lineStarts _

/-- **The span of a line** of the text. -/
theorem lineSpan?_of_lineAt (h : LineAt s.chars before line ending after) :
    s.lineSpan? (1 + newlines before) = some ⟨byteSize before, byteSize before + byteSize line⟩ := by
  have hcount : 1 + newlines s.chars = 1 + newlines before + newlines ending + newlines after := by
    rw [h.eq, newlines_append, h.newlines_next, Nat.add_assoc, Nat.add_assoc, Nat.add_assoc]
  have hexists : ¬ (1 + newlines before = 0 ∨ s.lineCount < 1 + newlines before) := by
    rw [lineCount_eq]
    omega
  have hstart : s.lineStarts[1 + newlines before - 1]? = some (byteSize before) := by
    rw [Nat.add_sub_cancel_left, lineStarts, h.eq, List.append_assoc, List.append_assoc,
      getElem?_lineStarts h.begins]
  have hstop : s.lineStarts[1 + newlines before]?.getD (byteSize s.chars) =
      byteSize before + byteSize (line ++ ending) := by
    rw [← byteSize_append, ← List.append_assoc]
    rcases h.ends with ⟨hnext, hone⟩ | ⟨hend, hnone⟩
    · have hindex : 1 + newlines before = newlines (before ++ line ++ ending) := by
        rw [h.newlines_next, hone, Nat.add_comm]
      rw [hindex, lineStarts, h.eq, getElem?_lineStarts hnext, Option.getD_some]
    · have hsize : s.lineStarts.size ≤ 1 + newlines before := by
        rw [lineStarts, size_lineStarts, hcount, hend, hnone, newlines_nil]
        omega
      rw [Array.getElem?_eq_none hsize, Option.getD_none, h.eq, hend, List.append_nil]
  have htext : s.spanText? ⟨byteSize before, byteSize before + byteSize (line ++ ending)⟩ =
      some (line ++ ending) := spanText?_append (by rw [h.eq, List.append_assoc before])
  simp only [lineSpan?, if_neg hexists, hstart, hstop, htext, bind, Option.bind_some, h.text]

/-- **A line of a source.** Its span has the text of the line, starts in the first column, and has
nothing but newlines and carriage returns between its end and the beginning of the next line or the end
of the source. -/
structure HasLine (s : Source) (l : Nat) (before line ending after : List Char) : Prop where
  eq : s.chars = before ++ line ++ ending ++ after
  span : s.lineSpan? l = some ⟨byteSize before, byteSize before + byteSize line⟩
  start : s.position? (byteSize before) = some (l, 1)
  flat : '\n' ∉ line
  blank : ∀ c ∈ ending, c = '\n' ∨ c = '\r'
  next : (s.lineSpan? (l + 1)).map Span.lo = some (byteSize (before ++ line ++ ending)) ∨
    l = s.lineCount ∧ after = []

theorem hasLine_of_lineAt (h : LineAt s.chars before line ending after) :
    s.HasLine (1 + newlines before) before line ending after := by
  refine ⟨h.eq, lineSpan?_of_lineAt h, ?_, h.flat, h.blank, ?_⟩
  · have hlast : lastLine before = [] := by
      have hnone := lastLine_append h.begins List.not_mem_nil
      rwa [List.append_nil] at hnone
    have hchars : s.chars = before ++ (line ++ (ending ++ after)) := by
      rw [h.eq, List.append_assoc, List.append_assoc]
    rw [position?_append hchars, hlast]
    rfl
  · rcases h.ends with ⟨hnext, hone⟩ | ⟨hend, hnone⟩
    · obtain ⟨line', ending', after', hline'⟩ := exists_lineAt hnext after
      rw [← h.eq] at hline'
      have hspan := lineSpan?_of_lineAt hline'
      rw [h.newlines_next, hone] at hspan
      exact .inl (by rw [Nat.add_assoc, hspan]; rfl)
    · refine .inr ⟨?_, hend⟩
      rw [lineCount_eq, h.eq, hend, List.append_nil, h.newlines_next, hnone, Nat.add_zero]

/-- **There is a line with every number** from one to the number of lines. -/
theorem exists_hasLine (hpos : 1 ≤ l) (hle : l ≤ s.lineCount) :
    ∃ before line ending after, s.HasLine l before line ending after := by
  obtain ⟨l, rfl⟩ : ∃ n, l = 1 + n := ⟨l - 1, by omega⟩
  rw [lineCount_eq] at hle
  obtain ⟨before, rest, hchars, hbegins, rfl⟩ := exists_endsLine (Nat.le_of_add_le_add_left hle)
  obtain ⟨line, ending, after, hline⟩ := exists_lineAt hbegins rest
  exact ⟨before, line, ending, after, hasLine_of_lineAt (hchars ▸ hline)⟩

theorem lineSpan?_bounds {span : Span} (h : s.lineSpan? l = some span) : 1 ≤ l ∧ l ≤ s.lineCount := by
  rw [lineSpan?] at h
  split at h
  · nomatch h
  · omega

/-- **Every place is on its line**: in the text of the line, or behind a part of the line end. -/
theorem exists_hasLine_of_position? {column : Nat} (h : s.position? o = some (l, column)) :
    ∃ before line ending after, s.HasLine l before line ending after ∧ byteSize before ≤ o ∧
      (o ≤ byteSize before + byteSize line ∨
        ∃ part, part ≠ [] ∧ part <+: ending ∧ o = byteSize (before ++ line ++ part)) := by
  obtain ⟨place, rest, hchars, rfl⟩ := eq_append_of_position? h
  obtain ⟨before, hplace, hbegins, hlast⟩ := exists_lastLine place
  have hl : l = 1 + newlines before := by
    have hsame := Option.some.inj (h.symm.trans (position?_append hchars))
    rw [(Prod.mk.inj hsame).1, hplace, newlines_append, newlines_eq_zero_iff.2 hlast, Nat.add_zero]
  obtain ⟨line, ending, after, hline⟩ := exists_lineAt hbegins (lastLine place ++ rest)
  have hsplit : before ++ (lastLine place ++ rest) = s.chars := by
    rw [← List.append_assoc, ← hplace, hchars]
  have hsize : byteSize place = byteSize before + byteSize (lastLine place) := by
    rw [← byteSize_append, ← hplace]
  refine ⟨before, line, ending, after, hl ▸ hasLine_of_lineAt (hsplit ▸ hline), by omega, ?_⟩
  rcases hline.split (List.append_assoc ..).symm hlast with ⟨more, hmore⟩ | ⟨part, hnil, hpart, htail⟩
  · refine .inl ?_
    rw [hsize, ← hmore, byteSize_append]
    omega
  · refine .inr ⟨part, hnil, hpart, ?_⟩
    rw [hsize, htail, byteSize_append, byteSize_append, byteSize_append, Nat.add_assoc]

end Source

open Text in
/-- **Positions and lines of a source.** The places between characters are those with a position, which
is counted from the newlines and from the last line of what is before the place. The lines are numbered
from one, and their spans leave nothing out but line ends. So a place that is not behind a part of a line
end lies within the span of its own line, and no two places have the same position. -/
theorem source_positions (s : Source) :
    (∀ o, (s.position? o).isSome = true ↔ String.Pos.Raw.IsValid s.text ⟨o⟩) ∧
    (∀ before after, s.chars = before ++ after →
      s.position? (byteSize before) = some (1 + newlines before, 1 + (lastLine before).length)) ∧
    (∀ l, (s.lineSpan? l).isSome = true ↔ 1 ≤ l ∧ l ≤ s.lineCount) ∧
    (∀ l span, s.lineSpan? l = some span →
      ∃ before line ending after, s.HasLine l before line ending after) ∧
    (∀ o l column, s.position? o = some (l, column) →
      ∃ before line ending after, s.HasLine l before line ending after ∧ byteSize before ≤ o ∧
        (o ≤ byteSize before + byteSize line ∨
          ∃ part, part ≠ [] ∧ part <+: ending ∧ o = byteSize (before ++ line ++ part))) ∧
    (∀ o o' p, s.position? o = some p → s.position? o' = some p → o = o') := by
  refine ⟨fun _ => Source.position?_isSome_iff, fun _ _ => Source.position?_append, fun l => ⟨?_, ?_⟩,
    fun l span h => ?_, fun _ _ _ => Source.exists_hasLine_of_position?,
    fun _ _ _ => Source.position?_inj⟩
  · intro h
    obtain ⟨span, hspan⟩ := Option.isSome_iff_exists.1 h
    exact Source.lineSpan?_bounds hspan
  · rintro ⟨hpos, hle⟩
    obtain ⟨_, _, _, _, hline⟩ := Source.exists_hasLine hpos hle
    exact Option.isSome_iff_exists.2 ⟨_, hline.span⟩
  · obtain ⟨hpos, hle⟩ := Source.lineSpan?_bounds h
    exact Source.exists_hasLine hpos hle

/-- A carriage return before a newline, and a character of two bytes. -/
theorem source_positions_two_bytes :
    let s : Source := ⟨"page", "a\r\né!"⟩
    s.position? 5 = some (2, 2) ∧ s.position? 4 = none ∧ (s.lineSpan? 2).isSome = true := by
  intro s
  obtain ⟨hplaces, hpositions, hlines, -⟩ := source_positions s
  refine ⟨hpositions "a\r\né".toList ['!'] (by decide), ?_, (hlines 2).2 ⟨by decide, by decide⟩⟩
  rw [← Option.not_isSome_iff_eq_none, hplaces]
  decide

end LiquidTemplate
