import Mathlib
import LiquidTemplate.Proofs.Scanning.Constructs
import LiquidTemplate.Proofs.Scanning.Cuts

/-!
# The first opening delimiter

Opening delimiters are texts of the settings: one can begin with another one, two can be the same, and
their places in a text can overlap. The lexer takes the first place at which one of them stands, and
there the longest one; of equal ones that of variables comes first, then that of blocks, then that of
comments.

* `Delimiters.OpensAt`: where an opening delimiter stands in a text.
* `Delimiters.OpensFirst`: the delimiter to be taken from an offset on; `OpensFirst.unique`.
* `filter_mergeSort`, `pairwise_openings`: the sorting is stable, so the delimiters are sorted by their
  size, and those of one size by their kind.
* `findOpening?_eq_some_iff`, `findOpening?_eq_none_iff`: what the search finds.
* `first_opening`: the same of every round of the lexer; a text without opening delimiters is one
  data token.
-/

namespace LiquidTemplate

open Text

variable {d : Delimiters} {cs before : List Char} {o o' : Opening} {place start : Nat} {found : Opened}

/-! ### Places of delimiters -/

/-- **An opening delimiter stands** in a text at an offset. -/
def Delimiters.OpensAt (d : Delimiters) (cs : List Char) (o : Opening) (place : Nat) : Prop :=
  ∃ before after, cs = before ++ ((d.start o).toList ++ after) ∧ byteSize before = place

/-- The order of the kinds whose delimiters are equal. -/
def Opening.rank : Opening → Nat
  | .variable => 0
  | .block => 1
  | .comment => 2

/-- **Preference** between two delimiters that stand at one place: for the longer one, or for the
kind that comes first. -/
def Delimiters.Prefers (d : Delimiters) (o o' : Opening) : Prop :=
  (d.start o').utf8ByteSize < (d.start o).utf8ByteSize ∨
    d.start o' = d.start o ∧ o.rank ≤ o'.rank

/-- **The first opening delimiter** from an offset on: none stands between, and it is preferred to all
those at its place. -/
structure Delimiters.OpensFirst (d : Delimiters) (cs : List Char) (start : Nat) (o : Opening)
    (place : Nat) : Prop where
  stands : d.OpensAt cs o place
  start_le : start ≤ place
  earliest : ∀ o' place', start ≤ place' → d.OpensAt cs o' place' → place ≤ place'
  preferred : ∀ o', d.OpensAt cs o' place → d.Prefers o o'

theorem Opening.rank_inj (h : o.rank = o'.rank) : o = o' := by
  cases o <;> cases o' <;> simp_all [Opening.rank]

/-- Of two delimiters at most one is preferred to the other one. -/
theorem Delimiters.Prefers.antisymm (h : d.Prefers o o') (h' : d.Prefers o' o) : o = o' := by
  rcases h with hlt | ⟨heq, hle⟩
  · rcases h' with hlt' | ⟨heq', -⟩
    · omega
    · rw [heq'] at hlt
      exact absurd hlt (Nat.lt_irrefl _)
  · rcases h' with hlt' | ⟨-, hle'⟩
    · rw [heq] at hlt'
      exact absurd hlt' (Nat.lt_irrefl _)
    · exact Opening.rank_inj (Nat.le_antisymm hle hle')

/-- **There is one first delimiter** at most. -/
theorem Delimiters.OpensFirst.unique {place' : Nat} (h : d.OpensFirst cs start o place)
    (h' : d.OpensFirst cs start o' place') : o = o' ∧ place = place' := by
  obtain rfl : place = place' :=
    Nat.le_antisymm (h.earliest _ _ h'.start_le h'.stands) (h'.earliest _ _ h.start_le h.stands)
  exact ⟨(h.preferred _ h'.stands).antisymm (h'.preferred _ h.stands), rfl⟩

/-- **A delimiter behind the first character** of a text, or at it. -/
theorem opensAt_cons_iff {c : Char} : d.OpensAt (c :: cs) o place ↔
    (d.start o).toList <+: c :: cs ∧ place = 0 ∨
      ∃ place', place = c.utf8Size + place' ∧ d.OpensAt cs o place' := by
  constructor
  · rintro ⟨before, after, htext, rfl⟩
    cases before with
    | nil => exact .inl ⟨⟨after, htext.symm⟩, rfl⟩
    | cons b before =>
      have hrest : cs = before ++ ((d.start o).toList ++ after) := (List.cons.inj htext).2
      rw [(List.cons.inj htext).1]
      exact .inr ⟨byteSize before, rfl, before, after, hrest, rfl⟩
  · rintro (⟨⟨after, htext⟩, rfl⟩ | ⟨_, rfl, before, after, rfl, rfl⟩)
    · exact ⟨[], after, htext.symm, rfl⟩
    · exact ⟨c :: before, after, rfl, rfl⟩

theorem opensAt_zero_iff : d.OpensAt cs o 0 ↔ (d.start o).toList <+: cs := by
  constructor
  · rintro ⟨before, after, rfl, hsize⟩
    have hbefore : before = [] := by
      by_contra hne
      have hpos := byteSize_pos hne
      omega
    rw [hbefore]
    exact List.prefix_append ..
  · rintro ⟨after, rfl⟩
    exact ⟨[], after, rfl, rfl⟩

/-- **Behind a part of the text** the places are those of the rest. -/
theorem opensAt_append_iff :
    d.OpensAt (before ++ cs) o (byteSize before + place) ↔ d.OpensAt cs o place := by
  induction before with
  | nil => rw [List.nil_append, byteSize_nil, Nat.zero_add]
  | cons c before ih =>
    rw [List.cons_append, opensAt_cons_iff, byteSize_cons]
    have hpos := c.utf8Size_pos
    constructor
    · rintro (⟨-, hzero⟩ | ⟨place', hplace, h⟩)
      · omega
      · obtain rfl : place' = byteSize before + place := by omega
        exact ih.1 h
    · intro h
      exact .inr ⟨byteSize before + place, by omega, ih.2 h⟩

/-- **The first delimiter of the rest** of a text is the first one behind its beginning. -/
theorem opensFirst_append_iff :
    d.OpensFirst (before ++ cs) (byteSize before) o (byteSize before + place) ↔
      d.OpensFirst cs 0 o place := by
  constructor
  · intro h
    refine ⟨opensAt_append_iff.1 h.stands, Nat.zero_le _, fun o' place' _ hplace' => ?_,
      fun o' hplace' => h.preferred o' (opensAt_append_iff.2 hplace')⟩
    have hle := h.earliest o' _ (Nat.le_add_right ..) (opensAt_append_iff.2 hplace')
    exact Nat.le_of_add_le_add_left hle
  · intro h
    refine ⟨opensAt_append_iff.2 h.stands, Nat.le_add_right .., fun o' place' hle hplace' => ?_,
      fun o' hplace' => h.preferred o' (opensAt_append_iff.1 hplace')⟩
    obtain ⟨place', rfl⟩ := Nat.exists_eq_add_of_le hle
    have hle := h.earliest o' place' (Nat.zero_le _) (opensAt_append_iff.1 hplace')
    exact Nat.add_le_add_left hle _

/-! ### Sorted delimiters -/

section Stability

variable {α : Type} {le : α → α → Bool} {l : List α}

/-- **Stability**: elements none of which has to come before another one keep their order. -/
theorem filter_mergeSort {p : α → Bool} (htrans : ∀ a b c, le a b → le b c → le a c)
    (htotal : ∀ a b, le a b || le b a) (hp : ∀ a b, p a → p b → le a b) :
    (l.mergeSort le).filter p = l.filter p := by
  have hpairwise : (l.filter p).Pairwise fun a b => le a b = true :=
    List.pairwise_of_forall_mem_list fun a ha b hb =>
      hp a b (List.mem_filter.1 ha).2 (List.mem_filter.1 hb).2
  have hsub : (l.filter p).Sublist (l.mergeSort le) :=
    List.sublist_mergeSort htrans htotal hpairwise List.filter_sublist
  have hfilter : (l.filter p).Sublist ((l.mergeSort le).filter p) := by
    have hboth := hsub.filter p
    simpa [List.filter_filter] using hboth
  exact (hfilter.eq_of_length ((List.mergeSort_perm l le).filter p).length_eq.symm).symm

/-- **What holds before the sorting** of two elements in their order holds behind it of those of which
both could come first. -/
theorem pairwise_mergeSort_of_pairwise {r : α → α → Prop}
    (htrans : ∀ a b c, le a b → le b c → le a c) (htotal : ∀ a b, le a b || le b a)
    (h : l.Pairwise r) :
    (l.mergeSort le).Pairwise fun a b => le a b ∧ (le b a → r a b) := by
  refine List.pairwise_iff_forall_sublist.2 fun {a b} hsub => ?_
  have hsorted := List.pairwise_mergeSort htrans htotal l
  have hle : le a b := List.pairwise_iff_forall_sublist.1 hsorted hsub
  refine ⟨hle, fun hback => ?_⟩
  have hself : le a a := htrans a b a hle hback
  -- both are among the elements that could stand where `a` stands, and these keep their order
  have hkept : [a, b].Sublist (l.filter fun x => le a x && le x a) := by
    rw [← filter_mergeSort htrans htotal fun x y hx hy =>
      htrans x a y (Bool.and_eq_true_iff.1 hx).2 (Bool.and_eq_true_iff.1 hy).1]
    have hboth := hsub.filter fun x => le a x && le x a
    simpa [hle, hback, hself] using hboth
  exact List.pairwise_iff_forall_sublist.1 h (hkept.trans List.filter_sublist)

end Stability

/-- **The delimiters are sorted** by their size, and by their kind where that is the same. -/
theorem pairwise_openings (d : Delimiters) : d.openings.Pairwise fun a b =>
    byteSize b.2 < byteSize a.2 ∨ byteSize b.2 = byteSize a.2 ∧ a.1.rank < b.1.rank := by
  have hkinds : ([Opening.variable, .block, .comment].map fun o => (o, (d.start o).toList)).Pairwise
      fun a b => a.1.rank < b.1.rank := by
    simp [Opening.rank]
  have hsorted : d.openings.Pairwise fun a b => decide (byteSize b.2 ≤ byteSize a.2) = true ∧
      (decide (byteSize a.2 ≤ byteSize b.2) = true → a.1.rank < b.1.rank) :=
    pairwise_mergeSort_of_pairwise (by simp only [decide_eq_true_eq]; omega)
      (by simp only [Bool.or_eq_true, decide_eq_true_eq]; omega) hkinds
  refine hsorted.imp fun {a b} h => ?_
  simp only [decide_eq_true_eq] at h
  omega

/-- **The order of the list is that of preference** for delimiters that stand at one place: those of
one size are then equal. -/
theorem prefers_of_sorted {rest rest' : List Char}
    (htext : (d.start o).toList ++ rest = (d.start o').toList ++ rest')
    (h : byteSize (d.start o').toList < byteSize (d.start o).toList ∨
      byteSize (d.start o').toList = byteSize (d.start o).toList ∧ o.rank < o'.rank) :
    d.Prefers o o' := by
  rcases h with hlt | ⟨hsize, hlt⟩
  · rw [byteSize_toList, byteSize_toList] at hlt
    exact .inl hlt
  · have hsame : (d.start o').toList = (d.start o).toList := eq_of_byteSize_eq htext.symm hsize
    exact .inr ⟨String.toList_inj.1 hsame, Nat.le_of_lt hlt⟩

theorem start_mem_openings (d : Delimiters) (o : Opening) :
    (o, (d.start o).toList) ∈ d.openings := by
  rw [Delimiters.openings, List.mem_mergeSort]
  cases o <;> simp

/-! ### The search -/

/-- **No delimiter is found** at the beginning of a text where none stands. -/
theorem openingAt?_eq_none_iff :
    openingAt? d.openings cs = none ↔ ∀ o, ¬ (d.start o).toList <+: cs := by
  simp only [openingAt?, List.findSome?_eq_none_iff, Option.map_eq_none_iff, after?_eq_none_iff]
  constructor
  · intro h o
    exact h _ (start_mem_openings d o)
  · rintro h ⟨o, delimiter⟩ hmem
    rw [mem_openings hmem]
    exact h o

/-- **The delimiter that is found** at the beginning of a text is preferred to all others there. -/
theorem opensFirst_of_openingAt? (h : openingAt? d.openings cs = some found) :
    found.before = [] ∧ d.OpensFirst cs 0 found.opening 0 := by
  obtain ⟨earlier, ⟨o, delimiter⟩, later, hsplit, hfound, hearlier⟩ := List.findSome?_eq_some_iff.1 h
  have hmem : ∀ x, x ∈ d.openings ↔ x ∈ earlier ∨ x = (o, delimiter) ∨ x ∈ later := by
    intro x
    rw [hsplit, List.mem_append, List.mem_cons]
  obtain rfl := mem_openings ((hmem _).2 (.inr (.inl rfl)))
  obtain ⟨rest, hrest, rfl⟩ := Option.map_eq_some_iff.1 hfound
  have htext : (d.start o).toList ++ rest = cs := (after?_eq_some_iff.1 hrest).symm
  refine ⟨rfl, opensAt_zero_iff.2 ⟨rest, htext⟩, Nat.le_refl _, fun _ _ _ _ => Nat.zero_le _, ?_⟩
  intro o' hplace
  obtain ⟨rest', htext'⟩ := opensAt_zero_iff.1 hplace
  rcases (hmem _).1 (start_mem_openings d o') with hbefore | hsame | hbehind
  · -- a delimiter in front of it in the list would have been found
    have hnone := hearlier _ hbefore
    simp [← htext'] at hnone
  · obtain rfl := (Prod.mk.inj hsame).1
    exact .inr ⟨rfl, Nat.le_refl _⟩
  · have hpairwise := pairwise_openings d
    rw [hsplit] at hpairwise
    have hlater := (List.pairwise_append.1 hpairwise).2.1
    exact prefers_of_sorted (htext.trans htext'.symm) (List.rel_of_pairwise_cons hlater hbehind)

/-- **The delimiter that is found** in a text is the first one. -/
theorem opensFirst_of_findOpening? (h : findOpening? d.openings cs = some found) :
    d.OpensFirst cs 0 found.opening (byteSize found.before) := by
  induction cs generalizing found with
  | nil => nomatch h
  | cons c cs ih =>
    unfold findOpening? at h
    split at h
    · next f hf =>
      obtain rfl := Option.some.inj h
      obtain ⟨hbefore, hfirst⟩ := opensFirst_of_openingAt? hf
      rw [hbefore]
      exact hfirst
    · next hnone =>
      obtain ⟨f, hf, rfl⟩ := Option.map_eq_some_iff.1 h
      have hlater : d.OpensFirst ([c] ++ cs) (byteSize [c]) f.opening
          (byteSize [c] + byteSize f.before) := opensFirst_append_iff.2 (ih hf)
      refine ⟨hlater.stands, Nat.zero_le _, fun o' place' _ hplace' => ?_, hlater.preferred⟩
      rcases opensAt_cons_iff.1 hplace' with ⟨hhere, -⟩ | ⟨place'', rfl, -⟩
      · exact absurd hhere (openingAt?_eq_none_iff.1 hnone o')
      · exact hlater.earliest o' _ (Nat.le_add_right ..) hplace'

/-- **The search finds nothing** exactly where nothing stands. -/
theorem findOpening?_eq_none_iff (hd : ∀ o, d.start o ≠ "") :
    findOpening? d.openings cs = none ↔ ∀ o place, ¬ d.OpensAt cs o place := by
  constructor
  · intro h
    induction cs with
    | nil =>
      rintro o place ⟨before, after, htext, -⟩
      have hempty := (List.append_eq_nil_iff.1 (List.append_eq_nil_iff.1 htext.symm).2).1
      exact hd o (String.toList_eq_nil_iff.1 hempty)
    | cons c cs ih =>
      unfold findOpening? at h
      split at h
      · nomatch h
      · next hnone =>
        intro o place hplace
        rcases opensAt_cons_iff.1 hplace with ⟨hhere, -⟩ | ⟨place', -, hlater⟩
        · exact openingAt?_eq_none_iff.1 hnone o hhere
        · exact ih (Option.map_eq_none_iff.1 h) o place' hlater
  · intro h
    cases hfound : findOpening? d.openings cs with
    | none => rfl
    | some found => exact absurd (opensFirst_of_findOpening? hfound).stands (h _ _)

/-- **The search finds the first delimiter**, and nothing else. -/
theorem findOpening?_eq_some_iff (hd : ∀ o, d.start o ≠ "") :
    findOpening? d.openings cs = some found ↔
      cs = found.before ++ (found.delimiter ++ found.after) ∧
        found.delimiter = (d.start found.opening).toList ∧
        d.OpensFirst cs 0 found.opening (byteSize found.before) := by
  constructor
  · intro h
    exact ⟨(findOpening?_eq h).1, (findOpening?_eq h).2, opensFirst_of_findOpening? h⟩
  · rintro ⟨htext, hdelimiter, hfirst⟩
    cases h : findOpening? d.openings cs with
    | none => exact absurd hfirst.stands (findOpening?_eq_none_iff hd |>.1 h _ _)
    | some found' =>
      obtain ⟨htext', hdelimiter'⟩ := findOpening?_eq h
      obtain ⟨hopening, hplace⟩ := (opensFirst_of_findOpening? h).unique hfirst
      have hbefore : found'.before = found.before :=
        eq_of_byteSize_eq (htext'.symm.trans htext) hplace
      rw [hopening, ← hdelimiter] at hdelimiter'
      rw [htext, hbefore, hdelimiter'] at htext'
      have hafter := List.append_cancel_left (List.append_cancel_left htext')
      rw [Option.some.injEq, Opened.mk.injEq]
      exact ⟨hbefore, hopening, hdelimiter', hafter.symm⟩

/-! ### The lexer -/

/-- Text in which no opening delimiter is found is the last one. -/
theorem templateTokens_of_none {strip : Bool} {c : Cursor}
    (h : findOpening? d.openings c.rest = none) : templateTokens d strip c =
      .ok (dataToken c c.rest strip false ++ [(c.past c.rest []).endToken]) := by
  rw [templateTokens]
  by_cases hempty : c.rest = []
  · have hpast := c.past_nil
    rw [hempty] at hpast
    rw [if_pos (List.isEmpty_iff.2 hempty), hempty, hpast, dataToken_nil, List.nil_append]
  · rw [if_neg (mt List.isEmpty_iff.1 hempty), h]

/-- **Opening delimiters match leftmost, then longest**, if none of them is empty. Wherever the lexer
begins a round, it finds the first delimiter of the text that is left, and none only if none stands
there. A text in which none stands is one data token, if it is not empty; the text is the source but
for a newline at its end that is not kept. -/
theorem first_opening (d : Delimiters) (hd : ∀ o, d.start o ≠ "") (source : String) :
    let text := d.textOf source
    WithoutFinalNewline d.keepTrailingNewline source.toList text ∧
      (∀ strip c, Reaches d source strip c →
        (∀ found, findOpening? d.openings c.rest = some found ↔
          c.rest = found.before ++ (found.delimiter ++ found.after) ∧
            found.delimiter = (d.start found.opening).toList ∧
            d.OpensFirst text c.offset found.opening (c.offset + byteSize found.before)) ∧
        (findOpening? d.openings c.rest = none ↔
          ∀ o place, c.offset ≤ place → ¬ d.OpensAt text o place)) ∧
      ((∀ o place, ¬ d.OpensAt text o place) → Token.ofTemplate d source = .ok
        ((if text = [] then [] else [⟨.data (String.ofList text), 1, ⟨0, byteSize text⟩⟩]) ++
          [⟨.mark .endOfTemplate, 1 + newlines text, .point (byteSize text)⟩])) := by
  intro text
  refine ⟨withoutFinalNewline_textOf d source, fun strip c hc => ?_, fun hfree => ?_⟩
  · obtain ⟨taken, rest, htext, rfl⟩ := hc.leads
    have htext : text = taken ++ rest := htext
    have hoffset : 0 + byteSize taken = byteSize taken := Nat.zero_add _
    simp only [Cursor.past, hoffset]
    rw [htext]
    constructor
    · intro found
      rw [opensFirst_append_iff]
      exact findOpening?_eq_some_iff hd
    · rw [findOpening?_eq_none_iff hd]
      constructor
      · intro h o place hle
        obtain ⟨place, rfl⟩ := Nat.exists_eq_add_of_le hle
        exact mt opensAt_append_iff.1 (h o place)
      · intro h o place
        exact mt opensAt_append_iff.2 (h o _ (Nat.le_add_right ..))
  · have hnone : findOpening? d.openings text = none := (findOpening?_eq_none_iff hd).2 hfree
    have htokens : Token.ofTemplate d source = _ := templateTokens_of_none hnone
    rw [htokens, dataToken_unstripped]
    simp [strippedEnd, Cursor.endToken, Cursor.tokenTo, Cursor.past, Span.point, text]

/-- Delimiters of which one begins with the others, and these are equal, so that the one of blocks is
taken. -/
theorem first_opening_shared :
    let d : Delimiters :=
      { variableStart := "<%=", variableEnd := "%>", blockStart := "<%", blockEnd := "%>",
        commentStart := "<%" }
    let source := "a<<%=b%><%c%>"
    let start : Cursor := ⟨source.toList, 0, 1⟩
    let behind : Cursor := ⟨"<%c%>".toList, 8, 1⟩
    (∀ o, d.start o ≠ "") ∧ Reaches d source false start ∧ Reaches d source false behind ∧
      d.OpensFirst source.toList 0 .variable 2 ∧ d.OpensFirst source.toList 8 .block 8 ∧
      (∀ o place, ¬ d.OpensAt ['a', '<'] o place) ∧ Token.ofTemplate d "a<\n" =
        .ok [⟨.data "a<", 1, ⟨0, 2⟩⟩, ⟨.mark .endOfTemplate, 1, ⟨2, 2⟩⟩] := by
  intro d source start behind
  have hd : ∀ o, d.start o ≠ "" := by
    intro o
    cases o <;> decide
  have htext : d.textOf source = source.toList := by cbv
  let found : Opened := ⟨['a', '<'], .variable, "<%=".toList, "b%><%c%>".toList⟩
  let found' : Opened := ⟨[], .block, "<%".toList, "c%>".toList⟩
  let tag : TagResult := ⟨[⟨.mark .variableBegin, 1, ⟨2, 5⟩⟩, ⟨.name "b", 1, ⟨5, 6⟩⟩,
    ⟨.mark .variableEnd, 1, ⟨6, 8⟩⟩], behind, false⟩
  have hfound : findOpening? d.openings start.rest = some found := by cbv
  have hfound' : findOpening? d.openings behind.rest = some found' := by cbv
  have hread : readTag d found (start.past found.before (found.delimiter ++ found.after)) = .ok tag := by
    cbv
  have hstart : Reaches d source false start := by
    have hbegin : Reaches d source false ⟨d.textOf source, 0, 1⟩ := .start
    rwa [htext] at hbegin
  have hbehind : Reaches d source false behind := .round hstart (.tag hfound hread)
  obtain ⟨-, hfirst, -⟩ := first_opening d hd source
  rw [htext] at hfirst
  obtain ⟨-, -, hopens⟩ := ((hfirst false start hstart).1 found).1 hfound
  obtain ⟨-, -, hopens'⟩ := ((hfirst false behind hbehind).1 found').1 hfound'
  -- the newline at the end is not kept
  have hshort : d.textOf "a<\n" = ['a', '<'] := by cbv
  have hnone : findOpening? d.openings ['a', '<'] = none := by cbv
  have hfree := (findOpening?_eq_none_iff hd).1 hnone
  obtain ⟨-, -, htokens⟩ := first_opening d hd "a<\n"
  rw [hshort] at htokens
  exact ⟨hd, hstart, hbehind, hopens, hopens', hfree, htokens hfree⟩

end LiquidTemplate
