import LiquidTemplate.Proofs.Scanning.Printed

/-!
# Respelled texts

Two texts can be the same but for one word, where both have a name that begins with the letters `el`.
A recogniser either stops before that word, in both texts at the same place, or it goes over the whole
word in both: no literal ends inside of a name.

* `Stem`: such names.
* `Respelled`: what is left of both texts, before the word or behind it.
* `Held`: recognisers that leave respelled texts of respelled texts.
* `Held.fits`: what they take is the same, if the word is left.
* `Lexeme.scan_respelled`: any lexeme before the word.
-/

namespace LiquidTemplate

open Text

variable {w w' b x y cs cs' taken rest : List Char} {p : Char → Bool}

/-- **Names that begin with `el`** and have a further letter. -/
structure Stem (w : List Char) : Prop where
  head : ∃ more, w = 'e' :: 'l' :: more ∧ ∃ c ∈ more.head?, c ≠ 'e'
  names : ∀ c ∈ w, isNameChar c = true

/-- **Texts apart from such names**: none of them ends where such a name goes on. -/
def Apart (start : List Char) : Prop :=
  ∀ z, z <:+ start → z = [] ∨ z ≠ ['e'] ∧ ¬ ['e', 'l'] <+: z

instance (start : List Char) : Decidable (Apart start) :=
  decidable_of_iff (∀ z ∈ start.tails, z = [] ∨ z ≠ ['e'] ∧ ¬ ['e', 'l'] <+: z) (by
    simp only [List.mem_tails]
    rfl)

/-- **Respelled texts**: the same text with one of two words before `b`, or what is left of both texts
behind these words. -/
inductive Respelled (w w' b : List Char) : List Char → List Char → Prop where
  | before (x : List Char) : Respelled w w' b (x ++ (w ++ b)) (x ++ (w' ++ b))
  | behind {cs : List Char} (h : cs <:+ b) : Respelled w w' b cs cs

namespace Respelled

theorem symm (h : Respelled w w' b cs cs') : Respelled w' w b cs' cs := by
  cases h with
  | before x => exact .before x
  | behind h => exact .behind h

/-- Where the word is left of one text, it is left of the other one as well. -/
theorem of_append (hw : Stem w) (h : Respelled w w' b (y ++ (w ++ b)) cs') : cs' = y ++ (w' ++ b) := by
  generalize hcs : y ++ (w ++ b) = cs at h
  cases h with
  | before x => rw [List.append_cancel_right hcs]
  | behind h =>
    obtain ⟨more, rfl, -⟩ := hw.head
    have hlength := h.length_le
    rw [← hcs] at hlength
    simp at hlength
    omega

end Respelled

/-- A beginning of a text before its end is there whatever the end is. -/
theorem after?_fits {start : List Char} (h : after? start (x ++ cs) = some (y ++ cs)) (cs' : List Char) :
    after? start (x ++ cs') = some (y ++ cs') := by
  have htext := after?_eq_some_iff.1 h
  rw [← List.append_assoc start] at htext
  rw [List.append_cancel_right htext, List.append_assoc, after?_append]

namespace Stem

/-- A class without the first letter ends before the word. -/
theorem takeWhile (hw : Stem w) (hp : p 'e' = false) (x : List Char) :
    (x ++ (w ++ b)).takeWhile p = x.takeWhile p := by
  obtain ⟨more, rfl, -⟩ := hw.head
  induction x with
  | nil => simp [hp]
  | cons c x ih => rw [List.cons_append, List.takeWhile_cons, List.takeWhile_cons, ih]

theorem dropWhile (hw : Stem w) (hp : p 'e' = false) (x : List Char) :
    (x ++ (w ++ b)).dropWhile p = x.dropWhile p ++ (w ++ b) := by
  obtain ⟨more, rfl, -⟩ := hw.head
  induction x with
  | nil => simp [hp]
  | cons c x ih =>
    simp only [List.cons_append, List.dropWhile_cons] at ih ⊢
    split
    · exact ih
    · rfl

theorem trimStart (hw : Stem w) (x : List Char) :
    trimStart (x ++ (w ++ b)) = Text.trimStart x ++ (w ++ b) :=
  hw.dropWhile rfl x

/-- **A beginning that does not reach into the word.** -/
theorem after?_before (hw : Stem w) {start : List Char} (hstart : Apart start)
    (h : after? start (x ++ (w ++ b)) = some rest) : ∃ z, x = start ++ z ∧ rest = z ++ (w ++ b) := by
  rcases List.append_eq_append_iff.1 (after?_eq_some_iff.1 h) with ⟨z, rfl, hz⟩ | ⟨z, rfl, rfl⟩
  · rcases hstart z (by simp) with rfl | ⟨hone, htwo⟩
    · exact ⟨[], by simp, hz.symm⟩
    · obtain ⟨more, rfl, -⟩ := hw.head
      cases z with
      | nil => exact ⟨[], by simp, hz.symm⟩
      | cons c₁ z =>
        cases z with
        | nil =>
          obtain ⟨rfl, -⟩ := List.cons.inj hz
          exact absurd rfl hone
        | cons c₂ z =>
          simp only [List.cons_append, List.cons.injEq] at hz
          obtain ⟨rfl, rfl, -⟩ := hz
          exact absurd ⟨z, rfl⟩ htwo
  · exact ⟨z, rfl, rfl⟩

/-- The word has no quote and no backslash. -/
theorem ne_quote (hw : Stem w) {quote : Char} (hquote : isNameChar quote = false) :
    ∀ c ∈ w, c ≠ quote ∧ c ≠ '\\' := by
  intro c hc
  have hname := hw.names c hc
  refine ⟨?_, ?_⟩
  · rintro rfl
    rw [hquote] at hname
    cases hname
  · rintro rfl
    cases hname

end Stem

/-- What is left behind a class with all letters of the words. -/
theorem respelled_dropWhile (hw : ∀ c ∈ w, p c = true) (hw' : ∀ c ∈ w', p c = true) (x : List Char) :
    Respelled w w' b ((x ++ (w ++ b)).dropWhile p) ((x ++ (w' ++ b)).dropWhile p) := by
  induction x with
  | nil =>
    rw [List.nil_append, List.nil_append, List.dropWhile_append_of_pos hw,
      List.dropWhile_append_of_pos hw']
    exact .behind (List.dropWhile_suffix p)
  | cons c x ih =>
    simp only [List.cons_append, List.dropWhile_cons]
    split
    · exact ih
    · exact .before (c :: x)

/-! ### Recognisers -/

/-- **A held recogniser** finds in a respelled text what it finds in the text, and leaves respelled
texts. -/
def Held (w w' b : List Char) (f : List Char → Option (List Char × List Char)) : Prop :=
  ∀ ⦃cs cs' taken rest⦄, Respelled w w' b cs cs' → f cs = some (taken, rest) →
    ∃ taken' rest', f cs' = some (taken', rest') ∧ Respelled w w' b rest rest'

namespace Held

variable {f : List Char → Option (List Char × List Char)}

/-- Behind the word there is nothing to be shown of a recogniser that loses nothing. -/
theorem of_before (heq : ∀ {cs taken rest}, f cs = some (taken, rest) → cs = taken ++ rest)
    (h : ∀ x taken rest, f (x ++ (w ++ b)) = some (taken, rest) →
      ∃ taken' rest', f (x ++ (w' ++ b)) = some (taken', rest') ∧ Respelled w w' b rest rest') :
    Held w w' b f := by
  intro cs cs' taken rest hcs hf
  cases hcs with
  | before x => exact h x taken rest hf
  | behind hcs => exact ⟨taken, rest, hf, .behind ((heq hf ▸ List.suffix_append taken rest).trans hcs)⟩

/-- What is found nowhere in a text is not found in the respelled one. -/
theorem eq_none (h : Held w' w b f) (hcs : Respelled w w' b cs cs') (hf : f cs = none) :
    f cs' = none := by
  cases hf' : f cs' with
  | none => rfl
  | some found =>
    obtain ⟨_, _, hsome, -⟩ := h hcs.symm hf'
    rw [hf] at hsome
    cases hsome

/-- **Where the word is left**, the same is taken. -/
theorem fits (hw : Stem w) (h : Held w w' b f)
    (heq : ∀ {cs taken rest}, f cs = some (taken, rest) → cs = taken ++ rest)
    (hf : f (x ++ (w ++ b)) = some (taken, y ++ (w ++ b))) :
    f (x ++ (w' ++ b)) = some (taken, y ++ (w' ++ b)) := by
  obtain ⟨taken', rest', hf', hrest⟩ := h (.before x) hf
  obtain rfl := hrest.of_append hw
  have htext := heq hf
  have htext' := heq hf'
  rw [← List.append_assoc taken] at htext
  rw [← List.append_assoc taken'] at htext'
  have htaken : taken ++ y = taken' ++ y :=
    (List.append_cancel_right htext).symm.trans (List.append_cancel_right htext')
  rw [List.append_cancel_right htaken]
  exact hf'

end Held

namespace Literal

variable (hw : Stem w) (hw' : Stem w')
include hw hw'

/-! ### Numbers and names -/

theorem held_digits : Held w w' b digits? := by
  refine .of_before (fun h => (digits?_eq h).1) fun x taken rest h => ?_
  unfold digits? at h ⊢
  rw [hw.takeWhile rfl, hw.dropWhile rfl] at h
  rw [hw'.takeWhile rfl, hw'.dropWhile rfl]
  dsimp only at h ⊢
  split at h
  · cases h
  · next hne =>
    obtain ⟨rfl, rfl⟩ := by simpa using h
    exact ⟨_, _, if_neg hne, .before _⟩

section Groups

variable {separator c d : Char}
omit hw hw'

theorem groups_rest_of_mem (hc : p c = true) (cs : List Char) :
    (groups separator p (c :: cs)).2 = (groups separator p cs).2 := by
  rw [groups.eq_def]
  simp [hc]

theorem groups_rest_of_separator (hc : ¬ p c = true) (hd : c = separator ∧ p d = true) (cs : List Char) :
    (groups separator p (c :: d :: cs)).2 = (groups separator p cs).2 := by
  obtain ⟨rfl, hd⟩ := hd
  rw [groups.eq_def]
  simp [hc, hd]

theorem groups_rest_of_stop (hc : ¬ p c = true) (hd : ¬ (c = separator ∧ p d = true)) (cs : List Char) :
    (groups separator p (c :: d :: cs)).2 = c :: d :: cs := by
  rw [groups.eq_def]
  simp [hc, hd]

include hw hw' in
/-- **Groups** of a class with no letter of the words, or with all of them. -/
theorem respelled_groups
    (hp : p 'e' = false ∧ 'e' ≠ separator ∨ (∀ c ∈ w, p c = true) ∧ ∀ c ∈ w', p c = true)
    (x : List Char) :
    Respelled w w' b (groups separator p (x ++ (w ++ b))).2 (groups separator p (x ++ (w' ++ b))).2 := by
  have hsuffix : (groups separator p b).2 <:+ b := ⟨_, groups_eq separator p b⟩
  fun_induction groups separator p x
  case case1 =>
    rcases hp with ⟨hp, hs⟩ | ⟨hall, hall'⟩
    · obtain ⟨more, rfl, -⟩ := hw.head
      obtain ⟨more', rfl, -⟩ := hw'.head
      have hstop (cs : List Char) : (groups separator p ('e' :: 'l' :: cs)).2 = 'e' :: 'l' :: cs :=
        groups_rest_of_stop (by simp [hp]) (fun h => hs h.1) cs
      simp only [List.nil_append, List.cons_append, hstop]
      exact .before []
    · rw [List.nil_append, List.nil_append, groups_append hall, groups_append hall']
      exact .behind hsuffix
  case case2 c x hc _ _ _ ih =>
    rw [List.cons_append, List.cons_append, groups_rest_of_mem hc, groups_rest_of_mem hc]
    exact ih
  case case3 c hc d x hd _ _ _ ih =>
    simp only [List.cons_append, groups_rest_of_separator hc hd]
    exact ih
  case case4 c hc d x hd =>
    simp only [List.cons_append, groups_rest_of_stop hc hd]
    exact .before (c :: d :: x)
  case case5 c hc =>
    -- the separator can be the last character before the word
    obtain ⟨more, rfl, -⟩ := hw.head
    obtain ⟨more', rfl, -⟩ := hw'.head
    by_cases hd : c = separator ∧ p 'e' = true
    · rcases hp with ⟨hp, -⟩ | ⟨hall, hall'⟩
      · rw [hp] at hd
        exact absurd hd.2 Bool.false_ne_true
      · obtain ⟨-, hmore⟩ := List.forall_mem_cons.1 hall
        obtain ⟨-, hmore'⟩ := List.forall_mem_cons.1 hall'
        simp only [List.cons_append, List.nil_append, groups_rest_of_separator hc hd]
        rw [← List.cons_append, ← List.cons_append, groups_append hmore, groups_append hmore']
        exact .behind hsuffix
    · simp only [List.cons_append, List.nil_append, groups_rest_of_stop hc hd]
      exact .before [c]

end Groups

theorem held_grouped : Held w w' b grouped? := by
  refine .of_before (fun h => (grouped?_eq h).1) fun x taken rest h => ?_
  cases x with
  | nil =>
    obtain ⟨more, rfl, -⟩ := hw.head
    cases h
  | cons c x =>
    rw [List.cons_append, grouped?] at h ⊢
    split at h
    · next hc =>
      obtain ⟨-, rfl⟩ := by simpa using h
      exact ⟨_, _, if_pos hc, respelled_groups hw hw' (.inl ⟨rfl, by decide⟩) x⟩
    · cases h

theorem held_fraction : Held w w' b fraction? := by
  refine .of_before fraction?_eq fun x taken rest h => ?_
  cases x with
  | nil =>
    obtain ⟨more, rfl, -⟩ := hw.head
    cases h
  | cons c x =>
    rw [List.cons_append] at h ⊢
    by_cases hc : c = '.'
    · subst hc
      obtain ⟨⟨t, r⟩, hr, heq⟩ := Option.map_eq_some_iff.1 h
      obtain ⟨rfl, rfl⟩ := by simpa using heq
      obtain ⟨t', r', hr', hrest⟩ := held_grouped hw hw' (.before x) hr
      exact ⟨_, r', Option.map_eq_some_iff.2 ⟨_, hr', rfl⟩, hrest⟩
    · rw [fraction?] at h
      · cases h
      · exact fun _ h => hc (List.cons.inj h).1

theorem respelled_sign (h : Respelled w w' b cs cs') : Respelled w w' b (sign cs).2 (sign cs').2 := by
  have hsuffix (cs : List Char) : (sign cs).2 <:+ cs := ⟨_, sign_eq cs⟩
  cases h with
  | behind h => exact .behind ((hsuffix _).trans h)
  | before x =>
    obtain ⟨more, rfl, -⟩ := hw.head
    obtain ⟨more', rfl, -⟩ := hw'.head
    fun_cases sign x
    case case1 x => exact .before x
    case case2 x => exact .before x
    case case3 hplus hminus =>
      cases x with
      | nil => exact .before []
      | cons c x =>
        rw [List.cons_append, List.cons_append, sign, sign]
        · exact .before (c :: x)
        all_goals
          rintro cs h
          obtain ⟨rfl, -⟩ := List.cons.inj h
          first | exact hplus x rfl | exact hminus x rfl

theorem held_exponent : Held w w' b exponent? := by
  refine .of_before exponent?_eq fun x taken rest h => ?_
  cases x with
  | nil =>
    obtain ⟨more, rfl, -⟩ := hw.head
    cases h
  | cons c x =>
    rw [List.cons_append, exponent?] at h ⊢
    split at h
    · next hc =>
      obtain ⟨⟨t, r⟩, hr, heq⟩ := Option.map_eq_some_iff.1 h
      obtain ⟨rfl, rfl⟩ := by simpa using heq
      obtain ⟨t', r', hr', hrest⟩ := held_digits hw hw' (respelled_sign hw hw' (.before x)) hr
      exact ⟨_, r', (if_pos hc).trans (Option.map_eq_some_iff.2 ⟨_, hr', rfl⟩), hrest⟩
    · cases h

theorem respelled_optionalExponent (h : Respelled w w' b cs cs') :
    Respelled w w' b (optionalExponent cs).2 (optionalExponent cs').2 := by
  unfold optionalExponent
  cases hcs : exponent? cs with
  | none =>
    rw [(held_exponent hw' hw).eq_none h hcs]
    exact h
  | some found =>
    obtain ⟨_, _, hcs', hrest⟩ := held_exponent hw hw' h hcs
    rw [hcs']
    exact hrest

theorem held_float : Held w w' b float? := by
  intro cs cs' taken rest h hf
  obtain ⟨⟨whole, r⟩, hwhole, hf⟩ := Option.bind_eq_some_iff.1 hf
  obtain ⟨whole', r', hwhole', hr⟩ := held_grouped hw hw' h hwhole
  unfold float?
  rw [hwhole', Option.bind_some]
  dsimp only at hf ⊢
  cases hfraction : fraction? r with
  | some found =>
    obtain ⟨_, _, hfraction', hmore⟩ := held_fraction hw hw' hr hfraction
    rw [hfraction] at hf
    rw [hfraction']
    obtain ⟨-, rfl⟩ := by simpa using hf
    exact ⟨_, _, rfl, respelled_optionalExponent hw hw' hmore⟩
  | none =>
    rw [hfraction] at hf
    rw [(held_fraction hw' hw).eq_none hr hfraction]
    obtain ⟨⟨e, more⟩, hexponent, heq⟩ := Option.map_eq_some_iff.1 hf
    obtain ⟨-, rfl⟩ := by simpa using heq
    obtain ⟨_, more', hexponent', hmore⟩ := held_exponent hw hw' hr hexponent
    exact ⟨_, more', Option.map_eq_some_iff.2 ⟨_, hexponent', rfl⟩, hmore⟩

omit hw' in
/-- A name that begins with the word. -/
theorem name?_word : name? (w ++ b) = some (w ++ b.takeWhile isNameChar, b.dropWhile isNameChar) := by
  obtain ⟨⟨more, rfl, -⟩, hnames⟩ := hw
  obtain ⟨-, hmore⟩ := List.forall_mem_cons.1 hnames
  rw [List.cons_append, name?, if_pos (by decide), List.takeWhile_append_of_pos hmore,
    List.dropWhile_append_of_pos hmore]
  rfl

theorem held_name : Held w w' b name? := by
  refine .of_before (fun h => (name?_eq h).1) fun x taken rest h => ?_
  cases x with
  | nil =>
    rw [List.nil_append, name?_word hw] at h
    rw [List.nil_append]
    obtain ⟨-, rfl⟩ := by simpa using h
    exact ⟨_, _, name?_word hw', .behind (List.dropWhile_suffix _)⟩
  | cons c x =>
    rw [List.cons_append, name?] at h ⊢
    split at h
    · next hc =>
      obtain ⟨-, rfl⟩ := by simpa using h
      exact ⟨_, _, if_pos hc, respelled_dropWhile hw.names hw'.names x⟩
    · cases h

/-! ### Strings -/

section Strings

variable {quote : Char}
omit hw hw'

theorem stringBody?_quote (cs : List Char) : stringBody? quote (quote :: cs) = some ([], cs) := by
  rw [stringBody?.eq_def]
  simp

theorem stringBody?_other {c : Char} (hquote : c ≠ quote) (hescape : c ≠ '\\') (cs : List Char) :
    stringBody? quote (c :: cs) = (stringBody? quote cs).map fun (body, rest) => (c :: body, rest) := by
  rw [stringBody?.eq_def]
  simp [hquote, hescape]

theorem stringBody?_append (h : ∀ c ∈ y, c ≠ quote ∧ c ≠ '\\') :
    stringBody? quote (y ++ b) = (stringBody? quote b).map fun (body, rest) => (y ++ body, rest) := by
  induction y with
  | nil => simp
  | cons c y ih =>
    obtain ⟨⟨hquote, hescape⟩, hy⟩ := List.forall_mem_cons.1 h
    rw [List.cons_append, stringBody?_other hquote hescape, ih hy, Option.map_map]
    rfl

include hw hw' in
theorem held_stringBody (hquote : isNameChar quote = false) : Held w w' b (stringBody? quote) := by
  have hsuffix {cs body rest : List Char} (h : stringBody? quote cs = some (body, rest)) : rest <:+ cs :=
    ⟨body ++ [quote], by rw [stringBody?_eq h]; simp⟩
  have hword := hw.ne_quote hquote
  have hword' := hw'.ne_quote hquote
  intro cs cs' body rest hcs h
  cases hcs with
  | behind hcs => exact ⟨body, rest, h, .behind ((hsuffix h).trans hcs)⟩
  | before x =>
    fun_induction stringBody? quote x generalizing body rest
    case case1 =>
      rw [List.nil_append, stringBody?_append hword] at h
      rw [List.nil_append, stringBody?_append hword']
      obtain ⟨⟨more, r⟩, hmore, heq⟩ := Option.map_eq_some_iff.1 h
      obtain ⟨rfl, rfl⟩ := by simpa using heq
      exact ⟨_, r, Option.map_eq_some_iff.2 ⟨_, hmore, rfl⟩, .behind (hsuffix hmore)⟩
    case case2 x =>
      rw [List.cons_append, stringBody?_quote] at h ⊢
      obtain ⟨-, rfl⟩ := by simpa using h
      exact ⟨_, _, rfl, .before x⟩
    case case3 hc =>
      -- the backslash takes the first letter of the word
      obtain ⟨more, rfl, -⟩ := hw.head
      obtain ⟨more', rfl, -⟩ := hw'.head
      simp only [List.cons_append, List.nil_append, stringBody?, hc, ↓reduceIte] at h ⊢
      rw [← List.cons_append, stringBody?_append (List.forall_mem_cons.1 hword).2] at h
      rw [← List.cons_append, stringBody?_append (List.forall_mem_cons.1 hword').2]
      obtain ⟨found, hfound, heq⟩ := Option.map_eq_some_iff.1 h
      obtain ⟨⟨more, r⟩, hmore, rfl⟩ := Option.map_eq_some_iff.1 hfound
      obtain ⟨-, rfl⟩ := by simpa using heq
      exact ⟨_, r, by rw [hmore]; rfl, .behind (hsuffix hmore)⟩
    case case4 d x hc ih =>
      simp only [List.cons_append, stringBody?, hc, ↓reduceIte] at h ⊢
      obtain ⟨⟨more, r⟩, hmore, heq⟩ := Option.map_eq_some_iff.1 h
      obtain ⟨-, rfl⟩ := by simpa using heq
      obtain ⟨_, r', hmore', hr⟩ := ih hmore
      exact ⟨_, r', by rw [hmore']; rfl, hr⟩
    case case5 c x hc hd ih =>
      rw [List.cons_append, stringBody?_other hc hd] at h ⊢
      obtain ⟨⟨more, r⟩, hmore, heq⟩ := Option.map_eq_some_iff.1 h
      obtain ⟨-, rfl⟩ := by simpa using heq
      obtain ⟨_, r', hmore', hr⟩ := ih hmore
      exact ⟨_, r', by rw [hmore']; rfl, hr⟩

include hw hw' in
/-- **A string before the word** is the same in both texts. -/
theorem stringBody?_fits (hquote : isNameChar quote = false)
    (h : stringBody? quote (x ++ (w ++ b)) = some (taken, y ++ (w ++ b))) :
    stringBody? quote (x ++ (w' ++ b)) = some (taken, y ++ (w' ++ b)) := by
  obtain ⟨taken', rest', h', hrest⟩ := held_stringBody hw hw' hquote (.before x) h
  obtain rfl := hrest.of_append hw
  have htext : x ++ (w ++ b) = (taken ++ quote :: y) ++ (w ++ b) := by simpa using stringBody?_eq h
  have htext' : x ++ (w' ++ b) = (taken' ++ quote :: y) ++ (w' ++ b) := by simpa using stringBody?_eq h'
  have htaken : taken ++ quote :: y = taken' ++ quote :: y :=
    (List.append_cancel_right htext).symm.trans (List.append_cancel_right htext')
  rw [List.append_cancel_right htaken]
  exact h'

end Strings

/-! ### Range literals -/

theorem held_numberBound : Held w w' b numberBound? := by
  refine .of_before numberBound?_eq fun x taken rest h => ?_
  cases x with
  | nil =>
    obtain ⟨more, rfl, -⟩ := hw.head
    cases h
  | cons c x =>
    rw [List.cons_append, numberBound?] at h ⊢
    split at h
    · next hc =>
      obtain ⟨⟨t, r⟩, hr, heq⟩ := Option.map_eq_some_iff.1 h
      obtain ⟨rfl, rfl⟩ := by simpa using heq
      obtain ⟨_, r', hr', hrest⟩ := held_digits hw hw' (.before x) hr
      exact ⟨_, r', (if_pos hc).trans (Option.map_eq_some_iff.2 ⟨_, hr', rfl⟩), hrest⟩
    · next hc =>
      obtain ⟨_, r', hr', hrest⟩ := held_digits hw hw' (.before (c :: x)) h
      exact ⟨_, r', (if_neg hc).trans hr', hrest⟩

theorem held_pathBound : Held w w' b pathBound? := by
  have hwords {w : List Char} (hw : Stem w) : ∀ c ∈ w, isWordChar c = true :=
    fun c hc => isWordChar_of_isNameChar (hw.names c hc)
  refine .of_before pathBound?_eq fun x taken rest h => ?_
  cases x with
  | nil =>
    have hpath {w : List Char} (hw : Stem w) : ∃ taken, pathBound? (w ++ b) =
        some (taken, (groups '.' isWordChar b).2) := by
      have hwords := hwords hw
      obtain ⟨more, rfl, -⟩ := hw.head
      rw [List.cons_append, pathBound?, if_pos (by decide),
        groups_append (List.forall_mem_cons.1 hwords).2]
      exact ⟨_, rfl⟩
    obtain ⟨_, hpaths⟩ := hpath hw
    obtain ⟨_, hpaths'⟩ := hpath hw'
    rw [List.nil_append, hpaths] at h
    obtain ⟨-, rfl⟩ := by simpa using h
    exact ⟨_, _, hpaths', .behind ⟨_, groups_eq '.' isWordChar b⟩⟩
  | cons c x =>
    rw [List.cons_append, pathBound?] at h ⊢
    split at h
    · next hc =>
      obtain ⟨-, rfl⟩ := by simpa using h
      exact ⟨_, _, if_pos hc, respelled_groups hw hw' (.inr ⟨hwords hw, hwords hw'⟩) x⟩
    · cases h

theorem held_bound : Held w w' b bound? := by
  intro cs cs' taken rest h hf
  unfold bound? at hf ⊢
  cases hnumber : numberBound? cs with
  | some found =>
    obtain ⟨t', r', hnumber', hrest⟩ := held_numberBound hw hw' h hnumber
    rw [hnumber] at hf
    obtain ⟨-, rfl⟩ := by simpa using hf
    exact ⟨t', r', by rw [hnumber']; rfl, hrest⟩
  | none =>
    rw [hnumber] at hf
    obtain ⟨t', r', hpath', hrest⟩ := held_pathBound hw hw' h (by simpa using hf)
    rw [(held_numberBound hw' hw).eq_none h hnumber]
    exact ⟨t', r', hpath', hrest⟩

omit hw' in
/-- A beginning that does not reach into the word leaves it. -/
theorem after?_respelled {start : List Char} (hstart : Apart start) (h : Respelled w w' b cs cs')
    (hf : after? start cs = some rest) :
    ∃ rest', after? start cs' = some rest' ∧ Respelled w w' b rest rest' := by
  cases h with
  | behind h => exact ⟨rest, hf, .behind (List.IsSuffix.trans ⟨start, (after?_eq_some_iff.1 hf).symm⟩ h)⟩
  | before x =>
    obtain ⟨z, rfl, rfl⟩ := hw.after?_before hstart hf
    exact ⟨z ++ (w' ++ b), by simp, .before z⟩

theorem respelled_trimStart (h : Respelled w w' b cs cs') :
    Respelled w w' b (trimStart cs) (trimStart cs') := by
  cases h with
  | before x =>
    rw [hw.trimStart, hw'.trimStart]
    exact .before _
  | behind h => exact .behind ((List.dropWhile_suffix _).trans h)

omit hw hw' in
/-- The parts of a range literal. -/
theorem range?_eq_some {r : Range} : range? cs = some r ↔ ∃ a c e start stop afterStart afterStop,
    after? ['('] cs = some a ∧ bound? (trimStart a) = some (start, afterStart) ∧
      after? ['.', '.'] (trimStart afterStart) = some c ∧ bound? (trimStart c) = some (stop, afterStop) ∧
      after? [')'] (trimStart afterStop) = some e ∧ r = ⟨start, stop, '(' :: blanks a ++ start ++
        blanks afterStart ++ ['.', '.'] ++ blanks c ++ stop ++ blanks afterStop ++ [')'], e⟩ := by
  simp only [range?, bind, Option.bind_eq_some_iff, Prod.exists, pure, Option.some.injEq]
  constructor
  · rintro ⟨a, ha, start, afterStart, hstart, c, hc, stop, afterStop, hstop, e, he, rfl⟩
    exact ⟨a, c, e, start, stop, afterStart, afterStop, ha, hstart, hc, hstop, he, rfl⟩
  · rintro ⟨a, c, e, start, stop, afterStart, afterStop, ha, hstart, hc, hstop, he, rfl⟩
    exact ⟨a, ha, start, afterStart, hstart, c, hc, stop, afterStop, hstop, e, he, rfl⟩

theorem range?_respelled {r : Range} (h : Respelled w w' b cs cs') (hr : range? cs = some r) :
    ∃ r', range? cs' = some r' ∧ Respelled w w' b r.rest r'.rest := by
  obtain ⟨a, c, e, start, stop, afterStart, afterStop, ha, hstart, hc, hstop, he, rfl⟩ :=
    range?_eq_some.1 hr
  have htrim {cs cs' : List Char} : Respelled w w' b cs cs' → _ := respelled_trimStart hw hw'
  obtain ⟨a', ha', haa⟩ := after?_respelled hw (by decide) h ha
  obtain ⟨start', afterStart', hstart', hss⟩ := held_bound hw hw' (htrim haa) hstart
  obtain ⟨c', hc', hcc⟩ := after?_respelled hw (by decide) (htrim hss) hc
  obtain ⟨stop', afterStop', hstop', htt⟩ := held_bound hw hw' (htrim hcc) hstop
  obtain ⟨e', he', hee⟩ := after?_respelled hw (by decide) (htrim htt) he
  exact ⟨_, range?_eq_some.2 ⟨a', c', e', start', stop', afterStart', afterStop', ha', hstart', hc',
    hstop', he', rfl⟩, hee⟩

theorem range?_none (h : Respelled w w' b cs cs') (hr : range? cs = none) : range? cs' = none := by
  cases hr' : range? cs' with
  | none => rfl
  | some r =>
    obtain ⟨_, hsome, -⟩ := range?_respelled hw' hw h.symm hr'
    rw [hr] at hsome
    cases hsome

/-- **A range literal before the word** is the same in both texts. -/
theorem range?_fits {r : Range} (hr : range? (x ++ (w ++ b)) = some r) (hrest : r.rest = y ++ (w ++ b)) :
    range? (x ++ (w' ++ b)) = some { r with rest := y ++ (w' ++ b) } := by
  obtain ⟨a, c, e, start, stop, afterStart, afterStop, ha, hstart, hc, hstop, he, rfl⟩ :=
    range?_eq_some.1 hr
  obtain rfl : e = y ++ (w ++ b) := hrest
  -- the word is left of every part
  have hleft {cs taken z : List Char} (h : trimStart cs = taken ++ (z ++ (w ++ b))) :
      ∃ z', cs = z' ++ (w ++ b) := by
    have hblanks := trimStart_eq cs
    rw [h] at hblanks
    exact ⟨cs.takeWhile isBlank ++ taken ++ z, by simpa using hblanks.symm⟩
  obtain ⟨z₄, rfl⟩ := hleft (after?_eq_some_iff.1 he)
  obtain ⟨z₃, rfl⟩ := hleft (bound?_eq hstop)
  obtain ⟨z₂, rfl⟩ := hleft (after?_eq_some_iff.1 hc)
  obtain ⟨z₁, rfl⟩ := hleft (bound?_eq hstart)
  have hbound {x y taken : List Char} : bound? (x ++ (w ++ b)) = some (taken, y ++ (w ++ b)) → _ :=
    (held_bound hw hw').fits hw bound?_eq
  rw [hw.trimStart] at hstart hc hstop he
  refine range?_eq_some.2 ⟨z₁ ++ (w' ++ b), z₃ ++ (w' ++ b), y ++ (w' ++ b), start, stop,
    z₂ ++ (w' ++ b), z₄ ++ (w' ++ b), after?_fits ha _, ?_, ?_, ?_, ?_, ?_⟩
  · rw [hw'.trimStart]
    exact hbound hstart
  · rw [hw'.trimStart]
    exact after?_fits hc _
  · rw [hw'.trimStart]
    exact hbound hstop
  · rw [hw'.trimStart]
    exact after?_fits he _
  · have hblanks (z : List Char) : blanks (z ++ (w ++ b)) = blanks (z ++ (w' ++ b)) := by
      rw [blanks, blanks, hw.takeWhile rfl, hw'.takeWhile rfl]
    simp only [hblanks]

/-! ### Strings between quotes -/

omit hw hw' in
/-- A quote is no letter of a name. -/
theorem isNameChar_of_quote {c : Char} (h : c = '\'' ∨ c = '"') : isNameChar c = false := by
  rcases h with rfl | rfl <;> decide

theorem quoted?_respelled (h : quoted? (x ++ (w ++ b)) = none) : quoted? (x ++ (w' ++ b)) = none := by
  cases x with
  | nil =>
    obtain ⟨more, rfl, -⟩ := hw'.head
    rfl
  | cons c x =>
    rw [List.cons_append, quoted?] at h ⊢
    split at h
    · next hc =>
      rw [if_pos hc, Option.map_eq_none_iff]
      exact (held_stringBody hw' hw (isNameChar_of_quote hc)).eq_none (.before x)
        (Option.map_eq_none_iff.1 h)
    · next hc => rw [if_neg hc]

theorem quoted?_fits {quote : Char} (h : quoted? (x ++ (w ++ b)) = some (quote, taken, y ++ (w ++ b))) :
    quoted? (x ++ (w' ++ b)) = some (quote, taken, y ++ (w' ++ b)) := by
  cases x with
  | nil =>
    obtain ⟨more, rfl, -⟩ := hw.head
    cases h
  | cons c x =>
    rw [List.cons_append, quoted?] at h ⊢
    split at h
    · next hc =>
      obtain ⟨⟨body, rest⟩, hbody, heq⟩ := Option.map_eq_some_iff.1 h
      obtain ⟨rfl, rfl, rfl⟩ := by simpa using heq
      rw [if_pos hc, stringBody?_fits hw hw' (isNameChar_of_quote hc) hbody]
      rfl
    · cases h

end Literal

/-! ### Lexemes -/

namespace Lexeme

variable {previous : Option TokenType} {opened after : List Bracket} {line : Nat} {l : Lexeme}

theorem literal?_eq_none_iff : literal? previous cs = none ↔ Literal.range? cs = none ∧
    float? previous cs = none ∧ Literal.grouped? cs = none ∧ Literal.name? cs = none ∧
      Literal.quoted? cs = none := by
  unfold literal?
  cases hrange : Literal.range? cs with
  | some r => simp
  | none =>
    cases hfloat : float? previous cs with
    | some found =>
      dsimp only
      split <;> simp
    | none =>
      cases hgrouped : Literal.grouped? cs with
      | some found =>
        dsimp only
        split <;> simp
      | none => cases hname : Literal.name? cs <;> simp

variable (hw : Stem w) (hw' : Stem w')
include hw hw'

theorem held_float : Held w w' b (float? previous) := by
  intro cs cs' taken rest h hf
  unfold float? at hf ⊢
  split at hf
  · cases hf
  · next hprevious =>
    rw [if_neg hprevious]
    exact Literal.held_float hw hw' h hf

theorem literal?_none (h : literal? previous (x ++ (w ++ b)) = none) :
    literal? previous (x ++ (w' ++ b)) = none := by
  obtain ⟨hrange, hfloat, hgrouped, hname, hquoted⟩ := literal?_eq_none_iff.1 h
  refine literal?_eq_none_iff.2 ⟨?_, (held_float hw' hw).eq_none (.before x) hfloat,
    (Literal.held_grouped hw' hw).eq_none (.before x) hgrouped,
    (Literal.held_name hw' hw).eq_none (.before x) hname, Literal.quoted?_respelled hw hw' hquoted⟩
  exact Literal.range?_none hw hw' (.before x) hrange

omit hw hw' in
theorem float?_eq {cs taken rest : List Char} (h : float? previous cs = some (taken, rest)) :
    cs = taken ++ rest := by
  unfold float? at h
  split at h
  · cases h
  · exact (Literal.float?_eq h).1

/-- **A literal before the word** is the same in both texts: each recogniser that finds nothing in one
of them finds nothing in the other one. -/
theorem literal?_fits (h : literal? previous (x ++ (w ++ b)) = some (.ok l))
    (hrest : l.rest = y ++ (w ++ b)) :
    literal? previous (x ++ (w' ++ b)) = some (.ok { l with rest := y ++ (w' ++ b) }) := by
  unfold literal? at h ⊢
  split at h
  · next r hrange =>
    obtain rfl := by simpa using h
    rw [Literal.range?_fits hw hw' hrange hrest]
  · next hrange =>
    rw [Literal.range?_none hw hw' (.before x) hrange]
    dsimp only
    split at h
    · next chars rest hfloat =>
      split at h
      · next value hvalue =>
        obtain rfl := by simpa using h
        obtain rfl : rest = y ++ (w ++ b) := hrest
        rw [(held_float hw hw').fits hw float?_eq hfloat]
        dsimp only
        rw [hvalue]
      · cases h
    · next hfloat =>
      rw [(held_float hw' hw).eq_none (.before x) hfloat]
      dsimp only
      split at h
      · next chars rest hgrouped =>
        split at h
        · next value hvalue =>
          obtain rfl := by simpa using h
          obtain rfl : rest = y ++ (w ++ b) := hrest
          rw [(Literal.held_grouped hw hw').fits hw (fun h => (Literal.grouped?_eq h).1) hgrouped]
          dsimp only
          rw [hvalue]
        · cases h
      · next hgrouped =>
        rw [(Literal.held_grouped hw' hw).eq_none (.before x) hgrouped]
        dsimp only
        split at h
        · next chars rest hname =>
          obtain rfl := by simpa using h
          obtain rfl : rest = y ++ (w ++ b) := hrest
          rw [(Literal.held_name hw hw').fits hw (fun h => (Literal.name?_eq h).1) hname]
        · next hname =>
          rw [(Literal.held_name hw' hw).eq_none (.before x) hname]
          obtain ⟨⟨quote, body, rest⟩, hquoted, heq⟩ := Option.map_eq_some_iff.1 h
          obtain rfl := by simpa using heq
          obtain rfl : rest = y ++ (w ++ b) := hrest
          dsimp only
          rw [Literal.quoted?_fits hw hw' hquoted]
          rfl

omit hw in
/-- The first of some beginnings without the first letter of the word. -/
theorem findSome?_fits {symbols : List Symbol} (hletter : ∀ s ∈ symbols, Apart s.spelling.toList)
    {s : Symbol}
    (h : symbols.findSome? (fun s =>
      (after? s.spelling.toList (x ++ (w ++ b))).map fun rest => (s, rest)) =
        some (s, y ++ (w ++ b))) :
    symbols.findSome? (fun s => (after? s.spelling.toList (x ++ (w' ++ b))).map fun rest => (s, rest)) =
      some (s, y ++ (w' ++ b)) := by
  induction symbols with
  | nil => cases h
  | cons s' symbols ih =>
    obtain ⟨hs', hletter⟩ := List.forall_mem_cons.1 hletter
    rw [List.findSome?_cons] at h ⊢
    cases hafter : after? s'.spelling.toList (x ++ (w ++ b)) with
    | some rest =>
      rw [hafter] at h
      obtain ⟨rfl, rfl⟩ := by simpa using h
      rw [after?_fits hafter]
      rfl
    | none =>
      rw [hafter] at h
      have hnone : after? s'.spelling.toList (x ++ (w' ++ b)) = none := by
        cases hsome : after? s'.spelling.toList (x ++ (w' ++ b)) with
        | none => rfl
        | some rest =>
          obtain ⟨_, hsome, -⟩ := Literal.after?_respelled hw' hs' (.before x) hsome
          rw [hafter] at hsome
          cases hsome
      rw [hnone]
      exact ih hletter h

omit hw in
/-- **A bracket or an operator before the word** is the same in both texts. -/
theorem symbol_fits {c : Char} (h : symbol opened line c (x ++ (w ++ b)) = .ok (l, after))
    (hrest : l.rest = y ++ (w ++ b)) :
    symbol opened line c (x ++ (w' ++ b)) = .ok ({ l with rest := y ++ (w' ++ b) }, after) := by
  have hbehind (h : x ++ (w ++ b) = y ++ (w ++ b)) : x ++ (w' ++ b) = y ++ (w' ++ b) := by
    rw [List.append_cancel_right h]
  unfold symbol at h ⊢
  split at h
  · obtain ⟨rfl, rfl⟩ := by simpa using h
    rw [hbehind hrest]
  · split at h
    · split at h
      · cases h
      · split at h
        · next hc =>
          obtain ⟨rfl, rfl⟩ := by simpa using h
          dsimp only
          rw [if_pos hc, hbehind hrest]
        · cases h
    · split at h
      · next s rest hs =>
        obtain ⟨rfl, rfl⟩ := by simpa using h
        obtain rfl : rest = y ++ (w ++ b) := hrest
        have hs' : operator? ((c :: x) ++ (w' ++ b)) = some (s, y ++ (w' ++ b)) :=
          findSome?_fits hw' (by decide) hs
        rw [List.cons_append] at hs'
        rw [hs']
      · split at h <;> cases h

/-- **A lexeme before the word** is the same in both texts. -/
theorem scan_fits (h : scan previous opened line (x ++ (w ++ b)) = .ok (l, after))
    (hrest : l.rest = y ++ (w ++ b)) :
    scan previous opened line (x ++ (w' ++ b)) = .ok ({ l with rest := y ++ (w' ++ b) }, after) := by
  unfold scan at h ⊢
  split at h
  · next l' hliteral =>
    obtain ⟨rfl, rfl⟩ := by simpa using h
    rw [literal?_fits hw hw' hliteral hrest]
  · cases h
  · next hliteral =>
    rw [literal?_none hw hw' hliteral]
    cases x with
    | nil =>
      -- a name can be read at the word
      have hname := (literal?_eq_none_iff.1 hliteral).2.2.2.1
      rw [List.nil_append, Literal.name?_word hw] at hname
      cases hname
    | cons c x => exact symbol_fits hw' h hrest

end Lexeme

end LiquidTemplate
