import LiquidTemplate.Proofs.Respelling.Literals
import LiquidTemplate.Proofs.Scanning.Course

/-!
# Delimiters of respelled texts

A delimiter can be any text, so it can end inside of a word or go over it. Where no delimiter has the
first three letters of the word, none of them is found before that word that is not found with another
one, and those that are found before it are found at the same places.

* `Spares`: delimiters that do not go over a word.
* `Spares.after?_none`: none of them is found where another word is.
* `findOpening?_fits`, `cut?_fits`, `rawEnd?_fits`: the searches for delimiters before the word.
* `rawTag?_none`, `rawTag?_fits`: the tags around raw blocks.
-/

namespace LiquidTemplate

open Text

variable {w w' b x y rest delimiter : List Char}

/-- **A delimiter that spares a word** has not its first three letters. -/
def Spares (w delimiter : List Char) : Prop :=
  ¬ w.take 3 <:+: delimiter

instance (w delimiter : List Char) : Decidable (Spares w delimiter) :=
  inferInstanceAs (Decidable (¬ _))

/-- What is behind the first letter of the word is not before it. -/
theorem Stem.not_before (hw : Stem w) (h : y ++ (w ++ b) <:+ (w ++ b).tail) : False := by
  obtain ⟨more, rfl, -⟩ := hw.head
  have hlength := h.length_le
  simp at hlength
  omega

theorem Stem.ne_nil (hw : Stem w) (x : List Char) : x ++ (w ++ b) ≠ [] := by
  obtain ⟨more, rfl, -⟩ := hw.head
  simp

/-! ### Searches -/

/-- A delimiter is found at the beginning of a text or behind its first character. -/
theorem findOpening?_cases {d : Delimiters} {cs : List Char} {found : Opened}
    (h : findOpening? d.openings cs = some found) :
    openingAt? d.openings cs = some found ∨ found.after <:+ cs.tail := by
  cases cs with
  | nil => cases h
  | cons c cs =>
    rw [findOpening?] at h
    split at h
    · next hhere =>
      obtain rfl := Option.some.inj h
      exact .inl hhere
    · obtain ⟨f, hf, rfl⟩ := Option.map_eq_some_iff.1 h
      exact .inr ⟨f.before ++ f.delimiter, by rw [List.append_assoc, ← (findOpening?_eq hf).1]; rfl⟩

theorem findOpening?_here {openings : List (Opening × List Char)} {cs : List Char} {found : Opened}
    (hne : cs ≠ [])
    (h : openingAt? openings cs = some found) : findOpening? openings cs = some found := by
  cases cs with
  | nil => exact absurd rfl hne
  | cons c cs => rw [findOpening?, h]

theorem cut?_cases {cs before : List Char} (h : cut? delimiter cs = some (before, rest)) :
    after? delimiter cs = some rest ∧ before = [] ∨ rest <:+ cs.tail := by
  cases cs with
  | nil =>
    have htext := cut?_eq h
    simp only [List.nil_eq, List.append_eq_nil_iff] at htext
    obtain ⟨⟨rfl, rfl⟩, rfl⟩ := htext
    exact .inr (List.nil_suffix)
  | cons c cs =>
    rw [cut?] at h
    split at h
    · next hhere =>
      obtain ⟨rfl, rfl⟩ := by simpa using h
      exact .inl ⟨hhere, rfl⟩
    · obtain ⟨⟨f, r⟩, hf, heq⟩ := Option.map_eq_some_iff.1 h
      obtain ⟨rfl, rfl⟩ := by simpa using heq
      exact .inr ⟨f ++ delimiter, (cut?_eq hf).symm⟩

theorem cut?_here {cs : List Char} (hne : cs ≠ []) (h : after? delimiter cs = some rest) :
    cut? delimiter cs = some ([], rest) := by
  cases cs with
  | nil => exact absurd rfl hne
  | cons c cs => rw [cut?, h]

theorem rawEnd?_cases {d : Delimiters} {cs : List Char} {found : RawEnd}
    (h : rawEnd? d cs = some found) : rawEndAt? d cs = some found ∨ found.after <:+ cs.tail := by
  cases cs with
  | nil => exact .inl h
  | cons c cs =>
    rw [rawEnd?] at h
    split at h
    · next hhere =>
      obtain rfl := Option.some.inj h
      exact .inl hhere
    · obtain ⟨f, hf, rfl⟩ := Option.map_eq_some_iff.1 h
      obtain ⟨part, htext, -⟩ := rawEnd?_eq hf
      exact .inr ⟨f.before ++ part, htext.symm⟩

theorem rawEnd?_here {d : Delimiters} {cs : List Char} {found : RawEnd}
    (h : rawEndAt? d cs = some found) : rawEnd? d cs = some found := by
  cases cs with
  | nil => exact h
  | cons c cs => rw [rawEnd?, h]

section Words

variable (hw : Stem w) (hw' : Stem w')
include hw hw'

omit hw in
/-- **A delimiter at a place before the word** is there as a whole, or it ends behind its first or its
second letter. -/
theorem Spares.after? (h : Spares w' delimiter)
    (hafter : after? delimiter (x ++ (w' ++ b)) = some rest) :
    (∃ z, x = delimiter ++ z ∧ rest = z ++ (w' ++ b)) ∨
      ∃ z, (z = ['e'] ∨ z = ['e', 'l']) ∧ delimiter = x ++ z ∧ w' ++ b = z ++ rest := by
  rcases List.append_eq_append_iff.1 (after?_eq_some_iff.1 hafter) with ⟨z, rfl, hz⟩ | ⟨z, rfl, rfl⟩
  · obtain ⟨more, rfl, -⟩ := hw'.head
    match z, hz with
    | [], hz => exact .inl ⟨[], by simp, hz.symm⟩
    | [c], hz =>
      obtain ⟨rfl, -⟩ := List.cons.inj hz
      exact .inr ⟨_, .inl rfl, rfl, hz⟩
    | [c, c₂], hz =>
      simp only [List.cons_append, List.cons.injEq] at hz
      obtain ⟨rfl, rfl, hz⟩ := hz
      exact .inr ⟨_, .inr rfl, rfl, by simpa using hz⟩
    | c :: c₂ :: c₃ :: z, hz =>
      -- it goes on with the third letter
      have hstart : ('e' :: 'l' :: more).take 3 <+: c :: c₂ :: c₃ :: z := by
        have hword : ('e' :: 'l' :: more).take 3 <+: 'e' :: 'l' :: more ++ b :=
          (List.take_prefix 3 _).trans (List.prefix_append _ _)
        refine List.prefix_of_prefix_length_le hword (hz ▸ List.prefix_append _ _) ?_
        simp
      exact absurd (hstart.isInfix.trans (List.suffix_append x _).isInfix) h
  · exact .inl ⟨z, rfl, rfl⟩

/-- **A delimiter that is not there** is not there with the other word. -/
theorem Spares.after?_none (h : Spares w' delimiter)
    (hnone : Text.after? delimiter (x ++ (w ++ b)) = none) :
    Text.after? delimiter (x ++ (w' ++ b)) = none := by
  cases hsome : Text.after? delimiter (x ++ (w' ++ b)) with
  | none => rfl
  | some rest =>
    rcases h.after? hw' hsome with ⟨z, rfl, rfl⟩ | ⟨z, hz, rfl, -⟩
    · simp at hnone
    · obtain ⟨more, rfl, -⟩ := hw.head
      have hword : z <+: 'e' :: 'l' :: more ++ b := by
        rcases hz with rfl | rfl
        · exact ⟨'l' :: more ++ b, rfl⟩
        · exact ⟨more ++ b, rfl⟩
      obtain ⟨behind, hbehind⟩ := hword
      rw [← hbehind, ← List.append_assoc, after?_append] at hnone
      cases hnone

omit hw in
/-- A text apart from the word is not there with another word. -/
theorem Apart.after?_none {start : List Char} (h : Apart start)
    (hnone : Text.after? start (x ++ (w ++ b)) = none) : Text.after? start (x ++ (w' ++ b)) = none := by
  cases hsome : Text.after? start (x ++ (w' ++ b)) with
  | none => rfl
  | some rest =>
    obtain ⟨z, rfl, rfl⟩ := hw'.after?_before h hsome
    simp at hnone

omit hw in
/-- A dash before a delimiter. -/
theorem Spares.dash (h : Spares w' delimiter) : Spares w' ('-' :: delimiter) := by
  obtain ⟨more, rfl, -⟩ := hw'.head
  intro hinfix
  rcases List.infix_cons_iff.1 hinfix with hstart | hinfix
  · obtain ⟨behind, hbehind⟩ := hstart
    cases hbehind
  · exact h hinfix

/-! ### Closing delimiters -/

theorem Closing.match?_none {closing : Closing} (h : Spares w' closing.delimiter)
    (hnone : closing.match? (x ++ (w ++ b)) = none) : closing.match? (x ++ (w' ++ b)) = none := by
  unfold Closing.match? at hnone ⊢
  split at hnone
  · cases hnone
  · next hdash =>
    rw [(h.dash hw').after?_none hw hw' hdash, h.after?_none hw hw' (Option.map_eq_none_iff.1 hnone)]
    rfl

/-- **A closing delimiter before the word** is found with another word. -/
theorem Closing.match?_fits {closing : Closing} (h : Spares w' closing.delimiter) {dashed : Bool}
    {taken : List Char} (hsome : closing.match? (x ++ (w ++ b)) = some (dashed, taken, y ++ (w ++ b))) :
    closing.match? (x ++ (w' ++ b)) = some (dashed, taken, y ++ (w' ++ b)) := by
  unfold Closing.match? at hsome ⊢
  split at hsome
  · next rest hdash =>
    obtain ⟨rfl, rfl, rfl⟩ := by simpa using hsome
    rw [after?_fits hdash]
  · next hdash =>
    obtain ⟨rest, hrest, heq⟩ := Option.map_eq_some_iff.1 hsome
    obtain ⟨rfl, rfl, rfl⟩ := by simpa using heq
    rw [(h.dash hw').after?_none hw hw' hdash, after?_fits hrest]
    rfl

/-! ### Opening delimiters -/

theorem openingAt?_none {openings : List (Opening × List Char)} (h : ∀ o ∈ openings, Spares w' o.2)
    (hnone : openingAt? openings (x ++ (w ++ b)) = none) :
    openingAt? openings (x ++ (w' ++ b)) = none := by
  refine List.findSome?_eq_none_iff.2 fun o ho => ?_
  have hwithout := List.findSome?_eq_none_iff.1 hnone o ho
  exact Option.map_eq_none_iff.2 ((h o ho).after?_none hw hw' (Option.map_eq_none_iff.1 hwithout))

theorem openingAt?_fits {openings : List (Opening × List Char)} (h : ∀ o ∈ openings, Spares w' o.2)
    {found : Opened} (hsome : openingAt? openings (x ++ (w ++ b)) = some found)
    (hafter : found.after = y ++ (w ++ b)) :
    openingAt? openings (x ++ (w' ++ b)) = some { found with after := y ++ (w' ++ b) } := by
  induction openings with
  | nil => cases hsome
  | cons o openings ih =>
    obtain ⟨kind, delimiter⟩ := o
    obtain ⟨ho, h⟩ := List.forall_mem_cons.1 h
    rw [openingAt?, List.findSome?_cons] at hsome ⊢
    dsimp only at hsome ⊢
    cases hhere : Text.after? delimiter (x ++ (w ++ b)) with
    | some rest =>
      rw [hhere] at hsome
      obtain rfl := by simpa using hsome
      obtain rfl : rest = y ++ (w ++ b) := hafter
      rw [after?_fits hhere]
      rfl
    | none =>
      rw [hhere] at hsome
      rw [ho.after?_none hw hw' hhere]
      exact ih h hsome

/-- **An opening delimiter before the word** is the first one with another word as well. -/
theorem findOpening?_fits {d : Delimiters} (h : ∀ o ∈ d.openings, Spares w' o.2) {found : Opened}
    (hsome : findOpening? d.openings (x ++ (w ++ b)) = some found)
    (hafter : found.after = y ++ (w ++ b)) :
    findOpening? d.openings (x ++ (w' ++ b)) = some { found with after := y ++ (w' ++ b) } := by
  induction x generalizing found with
  | nil =>
    rcases findOpening?_cases hsome with hhere | hlater
    · exact findOpening?_here (hw'.ne_nil []) (openingAt?_fits hw hw' h hhere hafter)
    · exact (hw.not_before (hafter ▸ hlater)).elim
  | cons c x ih =>
    rw [List.cons_append, findOpening?, ← List.cons_append] at hsome ⊢
    split at hsome
    · next hhere =>
      obtain rfl := Option.some.inj hsome
      rw [openingAt?_fits hw hw' h hhere hafter]
    · next hhere =>
      obtain ⟨f, hf, rfl⟩ := Option.map_eq_some_iff.1 hsome
      rw [openingAt?_none hw hw' h hhere, ih hf hafter]
      rfl

/-- **The end of a comment before the word** is the first one with another word as well. -/
theorem cut?_fits (h : Spares w' delimiter) {before : List Char}
    (hsome : cut? delimiter (x ++ (w ++ b)) = some (before, y ++ (w ++ b))) :
    cut? delimiter (x ++ (w' ++ b)) = some (before, y ++ (w' ++ b)) := by
  induction x generalizing before with
  | nil =>
    rcases cut?_cases hsome with ⟨hhere, rfl⟩ | hlater
    · exact cut?_here (hw'.ne_nil []) (after?_fits hhere _)
    · exact (hw.not_before hlater).elim
  | cons c x ih =>
    rw [List.cons_append, cut?, ← List.cons_append] at hsome ⊢
    split at hsome
    · next hhere =>
      obtain ⟨rfl, rfl⟩ := by simpa using hsome
      rw [after?_fits hhere]
    · next hhere =>
      obtain ⟨⟨f, r⟩, hf, heq⟩ := Option.map_eq_some_iff.1 hsome
      obtain ⟨rfl, rfl⟩ := by simpa using heq
      rw [h.after?_none hw hw' hhere, ih hf]
      rfl

/-! ### Raw blocks -/

omit hw' in
theorem optionalDash_word (x : List Char) :
    optionalDash (x ++ (w ++ b)) = ((optionalDash x).1, (optionalDash x).2 ++ (w ++ b)) := by
  cases x with
  | nil =>
    obtain ⟨more, rfl, -⟩ := hw.head
    rfl
  | cons c x =>
    by_cases hc : c = '-'
    · subst hc
      rfl
    · rw [List.cons_append, optionalDash, optionalDash]
      · rfl
      · exact fun _ h => hc (List.cons.inj h).1
      · exact fun _ h => hc (List.cons.inj h).1

omit hw hw' in
/-- An optional dash and a delimiter are the end of a tag. -/
theorem dashThen?_eq_match (delimiter cs : List Char) : dashThen? delimiter cs =
    ((⟨delimiter, .blockEnd⟩ : Closing).match? cs).map fun found => (found.1, found.2.2) := by
  have hbind : (after? ['-'] cs).bind (after? delimiter) = after? ('-' :: delimiter) cs := by
    cases cs with
    | nil => rfl
    | cons c cs =>
      by_cases hc : '-' = c
      · subst hc
        simp [after?]
      · simp [after?, hc]
  unfold dashThen? Closing.match?
  rw [hbind]
  cases after? ('-' :: delimiter) cs with
  | some rest => rfl
  | none => cases after? delimiter cs <;> rfl

theorem dashThen?_none (h : Spares w' delimiter) (hnone : dashThen? delimiter (x ++ (w ++ b)) = none) :
    dashThen? delimiter (x ++ (w' ++ b)) = none := by
  rw [dashThen?_eq_match, Option.map_eq_none_iff] at hnone ⊢
  exact Closing.match?_none hw hw' h hnone

theorem dashThen?_fits (h : Spares w' delimiter) {dashed : Bool}
    (hsome : dashThen? delimiter (x ++ (w ++ b)) = some (dashed, y ++ (w ++ b))) :
    dashThen? delimiter (x ++ (w' ++ b)) = some (dashed, y ++ (w' ++ b)) := by
  rw [dashThen?_eq_match] at hsome ⊢
  obtain ⟨⟨dashed', taken, rest⟩, hmatch, heq⟩ := Option.map_eq_some_iff.1 hsome
  obtain ⟨rfl, rfl⟩ := by simpa using heq
  rw [Closing.match?_fits hw hw' h hmatch]
  rfl

omit hw hw' in
theorem blanksThen?_cons (delimiter : List Char) (c : Char) (cs : List Char) :
    blanksThen? delimiter (c :: cs) =
      ((if isBlank c then blanksThen? delimiter cs else none) <|> dashThen? delimiter (c :: cs)) :=
  rfl

omit hw' in
/-- Before the word there is no blank. -/
theorem blanksThen?_word : blanksThen? delimiter (w ++ b) = dashThen? delimiter (w ++ b) := by
  obtain ⟨more, rfl, -⟩ := hw.head
  rfl

theorem blanksThen?_none (h : Spares w' delimiter)
    (hnone : blanksThen? delimiter (x ++ (w ++ b)) = none) :
    blanksThen? delimiter (x ++ (w' ++ b)) = none := by
  induction x with
  | nil =>
    rw [List.nil_append, blanksThen?_word hw] at hnone
    rw [List.nil_append, blanksThen?_word hw']
    exact dashThen?_none (x := []) hw hw' h hnone
  | cons c x ih =>
    rw [List.cons_append, blanksThen?_cons, Option.orElse_eq_none, ← List.cons_append] at hnone ⊢
    refine ⟨?_, dashThen?_none hw hw' h hnone.2⟩
    by_cases hc : isBlank c = true
    · rw [if_pos hc] at hnone ⊢
      exact ih hnone.1
    · rw [if_neg hc]

theorem blanksThen?_fits (h : Spares w' delimiter) {dashed : Bool}
    (hsome : blanksThen? delimiter (x ++ (w ++ b)) = some (dashed, y ++ (w ++ b))) :
    blanksThen? delimiter (x ++ (w' ++ b)) = some (dashed, y ++ (w' ++ b)) := by
  induction x with
  | nil =>
    rw [List.nil_append, blanksThen?_word hw] at hsome
    rw [List.nil_append, blanksThen?_word hw']
    exact dashThen?_fits (x := []) hw hw' h hsome
  | cons c x ih =>
    rw [List.cons_append, blanksThen?_cons, ← List.cons_append] at hsome ⊢
    by_cases hc : isBlank c = true
    · rw [if_pos hc] at hsome ⊢
      cases hblanks : blanksThen? delimiter (x ++ (w ++ b)) with
      | some found =>
        rw [hblanks] at hsome
        obtain rfl : found = (dashed, y ++ (w ++ b)) := by simpa using hsome
        rw [ih hblanks]
        rfl
      | none =>
        rw [hblanks] at hsome
        rw [blanksThen?_none hw hw' h hblanks]
        exact dashThen?_fits hw hw' h hsome
    · rw [if_neg hc] at hsome ⊢
      exact dashThen?_fits hw hw' h hsome

omit hw hw' in
/-- The parts of a tag of a raw block. -/
theorem rawTag?_eq_some_iff {keyword : String} {cs : List Char} {before behind : Bool} :
    rawTag? keyword delimiter cs = some (before, behind, rest) ↔ before = (optionalDash cs).1 ∧
      ∃ more, after? keyword.toList (trimStart (optionalDash cs).2) = some more ∧
        blanksThen? delimiter more = some (behind, rest) := by
  simp only [rawTag?, bind, Option.bind_eq_some_iff, Prod.exists, pure, Option.some.injEq, Prod.mk.injEq]
  constructor
  · rintro ⟨more, hmore, _, _, hblanks, rfl, rfl, rfl⟩
    exact ⟨rfl, more, hmore, hblanks⟩
  · rintro ⟨rfl, more, hmore, hblanks⟩
    exact ⟨more, hmore, _, _, hblanks, rfl, rfl, rfl⟩

theorem rawTag?_none {keyword : String} (hkeyword : Apart keyword.toList) (h : Spares w' delimiter)
    (hnone : rawTag? keyword delimiter (x ++ (w ++ b)) = none) :
    rawTag? keyword delimiter (x ++ (w' ++ b)) = none := by
  cases hsome : rawTag? keyword delimiter (x ++ (w' ++ b)) with
  | none => rfl
  | some found =>
    obtain ⟨before, behind, rest⟩ := found
    obtain ⟨-, more, hmore, hblanks⟩ := rawTag?_eq_some_iff.1 hsome
    rw [optionalDash_word hw', hw'.trimStart] at hmore
    obtain ⟨z, hz, rfl⟩ := hw'.after?_before hkeyword hmore
    have hmore' :
        after? keyword.toList (trimStart (optionalDash (x ++ (w ++ b))).2) = some (z ++ (w ++ b)) := by
      rw [optionalDash_word hw, hw.trimStart, hz, List.append_assoc, after?_append]
    cases hblanks' : blanksThen? delimiter (z ++ (w ++ b)) with
    | none =>
      rw [blanksThen?_none hw hw' h hblanks'] at hblanks
      cases hblanks
    | some found =>
      rw [rawTag?_eq_some_iff.2 ⟨rfl, _, hmore', hblanks'⟩] at hnone
      cases hnone

/-- **A tag of a raw block before the word** is one with another word. -/
theorem rawTag?_fits {keyword : String} (hkeyword : Apart keyword.toList) (h : Spares w' delimiter)
    {before behind : Bool}
    (hsome : rawTag? keyword delimiter (x ++ (w ++ b)) = some (before, behind, y ++ (w ++ b))) :
    rawTag? keyword delimiter (x ++ (w' ++ b)) = some (before, behind, y ++ (w' ++ b)) := by
  obtain ⟨hbefore, more, hmore, hblanks⟩ := rawTag?_eq_some_iff.1 hsome
  rw [optionalDash_word hw] at hbefore
  rw [optionalDash_word hw, hw.trimStart] at hmore
  obtain ⟨z, hz, rfl⟩ := hw.after?_before hkeyword hmore
  refine rawTag?_eq_some_iff.2 ⟨?_, z ++ (w' ++ b), ?_, blanksThen?_fits hw hw' h hblanks⟩
  · rw [optionalDash_word hw', hbefore]
  · rw [optionalDash_word hw', hw'.trimStart, hz, List.append_assoc, after?_append]

omit hw hw' in
theorem rawEndAt?_eq_some_iff {d : Delimiters} {cs : List Char} {found : RawEnd} :
    rawEndAt? d cs = some found ↔ ∃ more, after? d.blockStart.toList cs = some more ∧
      ∃ before behind rest, rawTag? "endraw" d.blockEnd.toList more = some (before, behind, rest) ∧
        found = ⟨[], before, behind, rest⟩ := by
  simp only [rawEndAt?, bind, Option.bind_eq_some_iff, Prod.exists, pure, Option.some.injEq]
  constructor
  · rintro ⟨more, hmore, before, behind, rest, hraw, rfl⟩
    exact ⟨more, hmore, before, behind, rest, hraw, rfl⟩
  · rintro ⟨more, hmore, before, behind, rest, hraw, rfl⟩
    exact ⟨more, hmore, before, behind, rest, hraw, rfl⟩

omit hw hw' in
/-- The keyword at the end of a raw block begins with another letter. -/
theorem rawTag?_of_name {c : Char} (hc : isNameChar c = true) (hne : c ≠ 'e') (cs : List Char) :
    rawTag? "endraw" delimiter (c :: cs) = none := by
  cases hsome : rawTag? "endraw" delimiter (c :: cs) with
  | none => rfl
  | some found =>
    obtain ⟨before, behind, rest⟩ := found
    obtain ⟨-, more, hmore, -⟩ := rawTag?_eq_some_iff.1 hsome
    have hdash : c ≠ '-' := by
      rintro rfl
      exact absurd hc (by decide)
    have hstart : optionalDash (c :: cs) = (false, c :: cs) := by
      rw [optionalDash]
      exact fun _ h => hdash (List.cons.inj h).1
    have hblank : ¬ isBlank c = true := by simp [isBlank_of_isNameChar hc]
    rw [hstart, trimStart, List.dropWhile_cons_of_neg hblank] at hmore
    exact absurd (List.cons.inj (after?_eq_some_iff.1 hmore)).1 hne

variable {d : Delimiters} (hstart : Spares w' d.blockStart.toList) (hend : Spares w' d.blockEnd.toList)
include hstart hend

theorem rawEndAt?_none (hnone : rawEndAt? d (x ++ (w ++ b)) = none) :
    rawEndAt? d (x ++ (w' ++ b)) = none := by
  cases hsome : rawEndAt? d (x ++ (w' ++ b)) with
  | none => rfl
  | some found =>
    obtain ⟨more, hmore, before, behind, rest, hraw, rfl⟩ := rawEndAt?_eq_some_iff.1 hsome
    rcases hstart.after? hw' hmore with ⟨z, rfl, rfl⟩ | ⟨z, hz, -, htext⟩
    · cases hraw' : rawTag? "endraw" d.blockEnd.toList (z ++ (w ++ b)) with
      | none =>
        rw [rawTag?_none hw hw' (by decide) hend hraw'] at hraw
        cases hraw
      | some found =>
        rw [rawEndAt?_eq_some_iff.2
          ⟨_, by rw [List.append_assoc, after?_append], _, _, _, hraw', rfl⟩] at hnone
        cases hnone
    · -- behind a delimiter that ends in the word, the word goes on
      obtain ⟨⟨letters, rfl, c, hc, hne⟩, hnames⟩ := hw'
      obtain ⟨letters, rfl⟩ := List.head?_eq_some_iff.1 hc
      rcases hz with rfl | rfl
      · simp only [List.cons_append, List.nil_append, List.cons.injEq, true_and] at htext
        rw [← htext, rawTag?_of_name (by decide) (by decide)] at hraw
        cases hraw
      · simp only [List.cons_append, List.nil_append, List.cons.injEq, true_and] at htext
        rw [← htext, rawTag?_of_name (hnames c (by simp)) hne] at hraw
        cases hraw

omit hstart in
theorem rawEndAt?_fits {found : RawEnd} (hsome : rawEndAt? d (x ++ (w ++ b)) = some found)
    (hafter : found.after = y ++ (w ++ b)) :
    rawEndAt? d (x ++ (w' ++ b)) = some { found with after := y ++ (w' ++ b) } := by
  obtain ⟨more, hmore, before, behind, rest, hraw, rfl⟩ := rawEndAt?_eq_some_iff.1 hsome
  obtain rfl : rest = y ++ (w ++ b) := hafter
  -- the word is behind the delimiter
  obtain ⟨-, before', behind', -, -, htext⟩ := rawTag?_eq hraw
  rw [← List.append_assoc] at htext
  subst htext
  refine rawEndAt?_eq_some_iff.2 ⟨_, after?_fits hmore _, before, behind, _, ?_, rfl⟩
  exact rawTag?_fits hw hw' (by decide) hend hraw

/-- **The end of a raw block before the word** is the first one with another word as well. -/
theorem rawEnd?_fits {found : RawEnd} (hsome : rawEnd? d (x ++ (w ++ b)) = some found)
    (hafter : found.after = y ++ (w ++ b)) :
    rawEnd? d (x ++ (w' ++ b)) = some { found with after := y ++ (w' ++ b) } := by
  induction x generalizing found with
  | nil =>
    rcases rawEnd?_cases hsome with hhere | hlater
    · exact rawEnd?_here (rawEndAt?_fits (x := []) hw hw' hend hhere hafter)
    · exact (hw.not_before (hafter ▸ hlater)).elim
  | cons c x ih =>
    rw [List.cons_append, rawEnd?, ← List.cons_append] at hsome ⊢
    split at hsome
    · next hhere =>
      obtain rfl := Option.some.inj hsome
      rw [rawEndAt?_fits hw hw' hend hhere hafter]
    · next hhere =>
      obtain ⟨f, hf, rfl⟩ := Option.map_eq_some_iff.1 hsome
      rw [rawEndAt?_none hw hw' hstart hend hhere, ih hf hafter]
      rfl

end Words

end LiquidTemplate
