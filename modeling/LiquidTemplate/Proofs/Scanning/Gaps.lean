import LiquidTemplate.Proofs.Scanning.Constructs

/-!
# Nothing else is dropped

Between the tokens of a template with the standard delimiters stand only blanks of tags, dashes next
to opening delimiters, hidden parts, and the blanks that a dash strips. Conversely, all blanks next to
a dash are stripped.

* `Dropped`: the characters that can stand under no token.
* `Trimmed`: texts that have no blanks next to a dash.
* `Throughout`: what holds of every character of a stretch.
* `dropped_of_template`: the characters between the tokens of a template.
-/

namespace LiquidTemplate

open Text

/-! ### What is dropped -/

/-- **Dropped characters** of the text `cs` by what is before them: a blank in a tag; a dash next to
the delimiter that opens a tag; a character of a hidden part; and a blank of a run that touches a
construct on a side where that has a dash. -/
inductive Dropped (d : Delimiters) (cs : List Char) (tokens : List Token) :
    List Char → Char → Prop where
  | inTag {before front back : List Char} {c : Char} {dashBefore dashBehind : Bool}
      (h : TagAt cs tokens before (front ++ c :: back) dashBefore dashBehind)
      (hc : isBlank c = true) : Dropped d cs tokens (before ++ front) c
  | dash {t : Token} {before shown : List Char} (ht : t ∈ tokens) (hbegins : t.Begins)
      (h : t.Stands cs before shown) : Dropped d cs tokens (before ++ shown) '-'
  | hidden {before front back behind : List Char} {c : Char} {dashBefore dashBehind : Bool}
      (h : HiddenAt d cs tokens before (front ++ c :: back) behind dashBefore dashBehind) :
      Dropped d cs tokens (before ++ front) c
  | behind {before part behind blanks : List Char} {c : Char} {dashBefore : Bool}
      (h : Construct d cs tokens before part behind dashBefore true)
      (hblanks : ∀ x ∈ blanks, isBlank x = true) (hc : isBlank c = true) :
      Dropped d cs tokens (before ++ part ++ blanks) c
  | before {front part behind blanks : List Char} {c : Char} {dashBehind : Bool}
      (h : Construct d cs tokens (front ++ c :: blanks) part behind true dashBehind)
      (hblanks : ∀ x ∈ blanks, isBlank x = true) (hc : isBlank c = true) :
      Dropped d cs tokens front c

/-- **Trimmed text**: the characters `shown` behind those in `before` do not begin with a blank if
the construct before them, from which only blanks can part them, has a dash at its end; nor do they
end with a blank if the construct behind them has a dash at its beginning. -/
structure Trimmed (d : Delimiters) (cs : List Char) (tokens : List Token)
    (before shown : List Char) : Prop where
  head : ∀ {front part behind blanks : List Char} {dashBefore : Bool},
    Construct d cs tokens front part behind dashBefore true → (∀ x ∈ blanks, isBlank x = true) →
      before = front ++ part ++ blanks → ∀ c ∈ shown.head?, isBlank c = false
  last : ∀ {part behind blanks : List Char} {dashBehind : Bool},
    Construct d cs tokens (before ++ shown ++ blanks) part behind true dashBehind →
      (∀ x ∈ blanks, isBlank x = true) → ∀ c ∈ shown.getLast?, isBlank c = false

/-- A token covers a character, by what is before that. -/
def Token.Covers (t : Token) (before : List Char) (c : Char) : Prop :=
  t.span.lo ≤ byteSize before ∧ byteSize before + c.utf8Size ≤ t.span.hi

/-- **Characters that are accounted for**: a token covers them, or they are dropped. -/
def Accounted (d : Delimiters) (cs : List Char) (tokens : List Token) (before : List Char)
    (c : Char) : Prop :=
  (∃ t ∈ tokens, t.Covers before c) ∨ Dropped d cs tokens before c

/-! ### Stretches of characters -/

/-- **Throughout a stretch** of characters behind those in `before`, a property holds. -/
def Throughout (p : List Char → Char → Prop) (before part : List Char) : Prop :=
  ∀ front c back, part = front ++ c :: back → p (before ++ front) c

section Stretches

variable {p q : List Char → Char → Prop} {cs before part more shown : List Char} {t : Token}

theorem Throughout.nil : Throughout p before [] := by
  intro front c back h
  have hne : front ++ c :: back ≠ [] := by simp
  exact absurd h.symm hne

/-- **Two stretches** make up one. -/
theorem Throughout.append (h : Throughout p before part) (h' : Throughout p (before ++ part) more) :
    Throughout p before (part ++ more) := by
  intro front c back heq
  rcases List.append_eq_append_iff.1 heq with ⟨as, rfl, hmore⟩ | ⟨as, hpart, hback⟩
  · rw [← List.append_assoc]
    exact h' as c back hmore
  · cases as with
    | nil =>
      rw [List.append_nil] at hpart
      have hfirst := h' [] c back hback.symm
      rwa [hpart, List.append_nil] at hfirst
    | cons x as =>
      obtain ⟨rfl, -⟩ := List.cons.inj hback
      exact h front c as hpart

theorem Throughout.imp (h : Throughout p before part)
    (himp : ∀ front c back, part = front ++ c :: back → p (before ++ front) c →
      q (before ++ front) c) : Throughout q before part :=
  fun front c back heq => himp front c back heq (h front c back heq)

/-- A token covers all characters over which it stands. -/
theorem Token.Stands.covers (h : t.Stands cs before shown) : Throughout t.Covers before shown := by
  intro front c back heq
  unfold Token.Covers
  rw [h.span, heq]
  simp only [byteSize_append, byteSize_cons]
  omega

end Stretches

/-! ### Blanks at the ends of a text -/

/-- **A text without the blanks at its end** is determined by the whole. -/
theorem eq_of_trail {us vs as bs : List Char} (h : us ++ as = vs ++ bs)
    (has : ∀ x ∈ as, isBlank x = true) (hbs : ∀ x ∈ bs, isBlank x = true)
    (hus : ∀ x ∈ us.getLast?, isBlank x = false) (hvs : ∀ x ∈ vs.getLast?, isBlank x = false) :
    us = vs := by
  have hnil {us more : List Char} (hmore : ∀ x ∈ more, isBlank x = true)
      (hlast : ∀ x ∈ (us ++ more).getLast?, isBlank x = false) : more = [] := by
    rcases List.eq_nil_or_concat more with rfl | ⟨front, x, rfl⟩
    · rfl
    · have hblank := hmore x (by simp)
      have hno := hlast x (by simp)
      rw [hblank] at hno
      nomatch hno
  rcases List.append_eq_append_iff.1 h with ⟨more, rfl, rfl⟩ | ⟨more, rfl, rfl⟩
  · rw [hnil (fun x hx => has x (List.mem_append_left _ hx)) hvs, List.append_nil]
  · rw [hnil (fun x hx => hbs x (List.mem_append_left _ hx)) hus, List.append_nil]

/-- **A text without the blanks at its start** is determined by the whole. -/
theorem eq_of_lead {us vs as bs : List Char} (h : as ++ us = bs ++ vs)
    (has : ∀ x ∈ as, isBlank x = true) (hbs : ∀ x ∈ bs, isBlank x = true)
    (hus : ∀ x ∈ us.head?, isBlank x = false) (hvs : ∀ x ∈ vs.head?, isBlank x = false) :
    us = vs := by
  have hreverse := congrArg List.reverse h
  rw [List.reverse_append, List.reverse_append] at hreverse
  have hall {as : List Char} (has : ∀ x ∈ as, isBlank x = true) :
      ∀ x ∈ as.reverse, isBlank x = true := fun x hx => has x (List.mem_reverse.1 hx)
  rw [← List.getLast?_reverse] at hus hvs
  exact List.reverse_inj.1 (eq_of_trail hreverse (hall has) (hall hbs) hus hvs)

/-! ### One stretch of text -/

section Texts

variable {keep strip stripEnd : Bool} {cs before text rest lead shown trail : List Char}
  {all tokens : List Token} {c : Cursor}

/-- What is before a text: the start of the template, or a construct, with a dash if `strip`. -/
def Behind (d : Delimiters) (cs : List Char) (tokens : List Token) (before : List Char)
    (strip : Bool) : Prop :=
  before = [] ∧ strip = false ∨ ∃ front part behind dashBefore, before = front ++ part ∧
    Construct d cs tokens front part behind dashBefore strip

/-- What follows the characters `before`: the end of the template, or a construct, with a dash if
`strip`. -/
def Ahead (d : Delimiters) (cs : List Char) (tokens : List Token) (before : List Char)
    (strip : Bool) : Prop :=
  before = cs ∧ strip = false ∨ ∃ part behind dashBehind,
    Construct d cs tokens before part behind strip dashBehind

theorem isBlank_brace : isBlank '\x7b' = false ∧ isBlank '\x7d' = false := by
  decide

/-- **A construct ends** with a delimiter, and so does what is up to it. -/
theorem Construct.last_not_blank {front part behind : List Char} {dashBefore dashBehind : Bool}
    (hf : Faithful (.standard keep) cs none 0 all)
    (h : Construct (.standard keep) cs all front part behind dashBefore dashBehind) :
    ∀ x ∈ (front ++ part).getLast?, isBlank x = false := by
  rw [List.getLast?_append, (h.braces hf).2]
  rintro x ⟨⟩
  exact isBlank_brace.2

/-- **A construct begins** with a delimiter, and so does what is from it on. -/
theorem Construct.head_not_blank {front part behind : List Char} {dashBefore dashBehind : Bool}
    (hf : Faithful (.standard keep) cs none 0 all)
    (h : Construct (.standard keep) cs all front part behind dashBefore dashBehind) :
    ∀ x ∈ (part ++ behind).head?, isBlank x = false := by
  rw [List.head?_append, (h.braces hf).1]
  rintro x ⟨⟩
  exact isBlank_brace.1

/-- A stripped text is trimmed. -/
theorem Stripped.trimmed (hf : Faithful (.standard keep) cs none 0 all)
    (h : Stripped strip stripEnd text lead shown trail)
    (hbehind : Behind (.standard keep) cs all before strip)
    (hahead : Ahead (.standard keep) cs all (before ++ text) stripEnd) :
    Trimmed (.standard keep) cs all (before ++ lead) shown := by
  constructor
  · intro front part behind blanks dashBefore hconstruct hblanks hbefore
    have hlast := hconstruct.last_not_blank hf
    rcases hbehind with ⟨rfl, -⟩ | ⟨front', part', behind', dashBefore', rfl, hconstruct'⟩
    · have hnil : [] = front ++ part := eq_of_trail hbefore h.lead_blank hblanks nofun hlast
      have hpart := (hconstruct.braces hf).2
      obtain ⟨-, rfl⟩ := List.append_eq_nil_iff.1 hnil.symm
      nomatch hpart
    · have hlast' := hconstruct'.last_not_blank hf
      have hsame := eq_of_trail hbefore h.lead_blank hblanks hlast' hlast
      exact h.head_shown (hconstruct'.dashBehind_unique hf hconstruct hsame)
  · intro part behind blanks dashBehind hconstruct hblanks
    have hhead := hconstruct.head_not_blank hf
    have htext := hconstruct.text
    rw [h.text_eq] at hahead
    simp only [List.append_assoc] at htext hahead
    rcases hahead with ⟨hend, -⟩ | ⟨part', behind', dashBehind', hconstruct'⟩
    · have hgap : blanks ++ (part ++ behind) = trail ++ [] := by
        rw [htext] at hend
        simpa using hend.symm
      have hnil := eq_of_lead hgap hblanks h.trail_blank hhead nofun
      have hpart := (hconstruct.braces hf).1
      rw [(List.append_eq_nil_iff.1 hnil).1] at hpart
      nomatch hpart
    · have hhead' := hconstruct'.head_not_blank hf
      have hgap : blanks ++ (part ++ behind) = trail ++ (part' ++ behind') := by
        have htext' := htext.symm.trans hconstruct'.text
        simpa using htext'
      have hsame := eq_of_lead hgap hblanks h.trail_blank hhead hhead'
      rw [hsame] at hgap
      obtain rfl := List.append_cancel_right hgap
      simp only [List.append_assoc] at hconstruct
      exact h.last_shown (hconstruct'.dashBefore_unique hf hconstruct)

/-- **One text**: all its characters are accounted for, and what it shows is trimmed. -/
theorem Stripped.accounted (h : Stripped strip stripEnd text lead shown trail)
    (hbehind : Behind (.standard keep) cs all before strip)
    (hahead : Ahead (.standard keep) cs all (before ++ text) stripEnd)
    (hshown : shown ≠ [] → ∃ t ∈ all, t.Stands cs (before ++ lead) shown) :
    Throughout (Accounted (.standard keep) cs all) before text := by
  rw [h.text_eq]
  refine Throughout.append (.append ?_ ?_) ?_
  · intro front x back hlead
    have hstrip : strip = true := by
      cases strip with
      | true => rfl
      | false =>
        rw [h.lead_eq_nil rfl] at hlead
        simp at hlead
    obtain ⟨hfront, hx⟩ : (∀ y ∈ front, isBlank y = true) ∧ isBlank x = true := by
      have hblank := h.lead_blank
      rw [hlead] at hblank
      exact ⟨fun y hy => hblank y (List.mem_append_left _ hy), hblank x (by simp)⟩
    rcases hbehind with ⟨-, hno⟩ | ⟨_, _, _, _, rfl, hconstruct⟩
    · rw [hstrip] at hno
      nomatch hno
    · rw [hstrip] at hconstruct
      exact .inr (.behind hconstruct hfront hx)
  · by_cases hne : shown = []
    · rw [hne]
      exact .nil
    · obtain ⟨t, ht, hstands⟩ := hshown hne
      exact hstands.covers.imp fun _ _ _ _ hcovers => .inl ⟨t, ht, hcovers⟩
  · intro front x back htrail
    have hstrip : stripEnd = true := by
      cases stripEnd with
      | true => rfl
      | false =>
        rw [h.trail_eq_nil rfl] at htrail
        simp at htrail
    obtain ⟨hback, hx⟩ : (∀ y ∈ back, isBlank y = true) ∧ isBlank x = true := by
      have hblank := h.trail_blank
      rw [htrail] at hblank
      exact ⟨fun y hy => hblank y (by simp [hy]), hblank x (by simp)⟩
    rcases hahead with ⟨-, hno⟩ | ⟨part, behind, dashBehind, hconstruct⟩
    · rw [hstrip] at hno
      nomatch hno
    · rw [hstrip, h.text_eq, htrail, ← List.append_assoc, ← List.append_assoc] at hconstruct
      exact .inr (.before hconstruct hback hx)

end Texts

/-! ### Tags -/

section Tags

variable {cs before : List Char} {c : Cursor} {previous : Option TokenType} {opened : List Bracket}

/-- **The inside of a tag** with its end: the last token is that of the end, and blanks are all that
is between the tokens. -/
theorem TagCourse.accounted {x : Closing} {tag : TagTokens}
    (h : TagCourse (some x) previous opened c tag) (hc : c.At cs before) :
    ∃ inside last middle, tag.tokens = inside ++ [last] ∧ last.kind = .mark x.mark ∧
      (∀ t ∈ inside, t.kind.Inner) ∧
      last.Stands cs (before ++ middle) (dash tag.dashed ++ x.delimiter) ∧
      tag.after.At cs (before ++ (middle ++ (dash tag.dashed ++ x.delimiter))) ∧
      (∀ t ∈ tag.tokens, t.span.hi ≤ tag.after.offset) ∧
      Throughout (fun front y => (∃ t ∈ tag.tokens, t.Covers front y) ∨ isBlank y = true) before
        (middle ++ (dash tag.dashed ++ x.delimiter)) := by
  induction h generalizing before with
  | finish hx _ => nomatch hx
  | @close _ c y dashed rest hx h =>
    obtain rfl := Option.some.inj hx
    obtain ⟨blanks, hblanks, hrest, hskip⟩ := c.skipBlanks_eq
    have hd := hc.past hrest
    rw [← hskip] at hd
    have hstands := hd.stands_here h (.mark x.mark)
    have hafter := hd.past h
    rw [List.append_assoc] at hafter
    refine ⟨[], _, blanks, rfl, rfl, nofun, hstands, hafter, ?_, Throughout.append ?_ ?_⟩
    · intro t ht
      rw [List.mem_singleton.1 ht]
      exact Nat.le_refl _
    · intro front y back heq
      exact .inr (hblanks y (by rw [heq]; simp))
    · exact hstands.covers.imp fun _ _ _ _ hcovers => .inl ⟨_, List.mem_singleton_self _, hcovers⟩
  | @token previous _ _ c k taken rest tag h _ hs _ ih =>
    obtain ⟨blanks, hblanks, hrest, hskip⟩ := c.skipBlanks_eq
    have hd := hc.past hrest
    rw [← hskip] at hd
    have hstands := hd.stands_here h k
    obtain ⟨inside, last, middle, htokens, hlast, hinside, hfinish, hafter, hhi, hthroughout⟩ :=
      ih (hd.past h)
    have hle := At.offset_le (hd.past h) hafter
    refine ⟨_ :: inside, last, blanks ++ (taken ++ middle), congrArg (_ :: ·) htokens, hlast,
      List.forall_mem_cons.2 ⟨hs.inner, hinside⟩, ?_, ?_, List.forall_mem_cons.2 ⟨hle, hhi⟩, ?_⟩
    · simpa using hfinish
    · simpa using hafter
    · rw [List.append_assoc, List.append_assoc]
      refine Throughout.append ?_ (Throughout.append ?_ ?_)
      · intro front y back heq
        exact .inr (hblanks y (by rw [heq]; simp))
      · exact hstands.covers.imp fun _ _ _ _ hcovers => .inl ⟨_, List.mem_cons_self, hcovers⟩
      · refine hthroughout.imp fun _ _ _ _ hy => hy.imp ?_ id
        rintro ⟨t, ht, hcovers⟩
        exact ⟨t, List.mem_cons_of_mem _ ht, hcovers⟩

end Tags

/-! ### Templates -/

section Templates

variable {keep strip stripEnd : Bool} {cs before text part rest : List Char}
  {all earlier tokens : List Token} {c : Cursor}

/-- **The data token of a round** stands over a trimmed text; all characters are accounted for. -/
theorem dataToken_accounted (hf : Faithful (.standard keep) cs none 0 all) (hc : c.At cs before)
    (hrest : c.rest = text ++ rest) (hmem : ∀ t ∈ dataToken c text strip stripEnd, t ∈ all)
    (hbehind : Behind (.standard keep) cs all before strip)
    (hahead : Ahead (.standard keep) cs all (before ++ text) stripEnd) :
    Throughout (Accounted (.standard keep) cs all) before text ∧
      ∀ t ∈ dataToken c text strip stripEnd, ∀ data, t.kind = .data data →
        ∃ front, t.Stands cs front data.toList ∧
          Trimmed (.standard keep) cs all front data.toList := by
  obtain ⟨lead, shown, trail, hstripped, htoken⟩ := dataToken_eq c text strip stripEnd
  have hsplit : c.rest = lead ++ shown ++ (trail ++ rest) := by
    rw [hrest, hstripped.text_eq, List.append_assoc]
  have hstands := hc.stands hsplit (.data (String.ofList shown)) (shown ++ trail) trail
  rw [htoken] at hmem ⊢
  constructor
  · refine hstripped.accounted hbehind hahead fun hne => ?_
    rw [if_neg hne] at hmem
    exact ⟨_, hmem _ (List.mem_singleton_self _), hstands⟩
  · intro t ht data hdata
    by_cases hne : shown = []
    · rw [if_pos hne] at ht
      nomatch ht
    · rw [if_neg hne] at ht
      obtain rfl := List.mem_singleton.1 ht
      obtain rfl : String.ofList shown = data := Token.Kind.data.inj hdata
      rw [String.toList_ofList]
      exact ⟨_, hstands, hstripped.trimmed hf hbehind hahead⟩

/-- A data token ends with its text at the latest. -/
theorem hi_of_dataToken : ∀ t ∈ dataToken c text strip stripEnd,
    t.span.hi ≤ c.offset + byteSize text := by
  obtain ⟨lead, shown, trail, hstripped, htoken⟩ := dataToken_eq c text strip stripEnd
  rw [htoken]
  intro t ht
  by_cases hne : shown = []
  · rw [if_pos hne] at ht
    nomatch ht
  · rw [if_neg hne] at ht
    obtain rfl := List.mem_singleton.1 ht
    show c.offset + byteSize (lead ++ shown) ≤ _
    rw [hstripped.text_eq, byteSize_append (lead ++ shown)]
    omega

/-- The tokens before the construct of a round end before that. -/
theorem hi_of_earlier (hearlier : ∀ t ∈ earlier, t.span.hi ≤ c.offset) :
    ∀ t ∈ earlier ++ dataToken c text strip stripEnd, t.span.hi ≤ c.offset + byteSize text := by
  intro t ht
  rcases List.mem_append.1 ht with ht | ht
  · have hle := hearlier t ht
    omega
  · exact hi_of_dataToken t ht

/-- **The characters of a tag** are accounted for. -/
theorem TagAt.accounted {first : Token} {start inner : List Char} {dashed dashedEnd : Bool}
    (h : TagAt cs all before (start ++ (dash dashed ++ inner)) dashed dashedEnd)
    (hmem : first ∈ all) (hfirst : first.Begins) (hstart : first.Stands cs before start)
    (hinner : Throughout (fun front y => (∃ t ∈ all, t.Covers front y) ∨ isBlank y = true)
      (before ++ start ++ dash dashed) inner) :
    Throughout (Accounted (.standard keep) cs all) before (start ++ (dash dashed ++ inner)) := by
  refine Throughout.append ?_ (Throughout.append ?_ ?_)
  · exact hstart.covers.imp fun _ _ _ _ hcovers => .inl ⟨first, hmem, hcovers⟩
  · cases dashed with
    | false => exact .nil
    | true =>
      intro front y back heq
      cases front with
      | cons _ _ => simp [dash] at heq
      | nil =>
        obtain ⟨rfl, -⟩ := List.cons.inj heq
        rw [List.append_nil]
        exact .inr (.dash hmem hfirst hstart)
  · refine hinner.imp fun front y back heq hy => ?_
    rcases hy with hcovers | hblank
    · exact .inl hcovers
    · rw [heq, ← List.append_assoc, ← List.append_assoc] at h
      have hdropped := Dropped.inTag (d := .standard keep) h hblank
      simp only [← List.append_assoc] at hdropped
      exact .inr hdropped

/-- **The tag of a round** of a course is one of the text, with its tokens and dashes. -/
theorem TagCourse.construct {mark : Mark} {closing : Closing} {start : List Char}
    {front back : List Token} {first : Token} {dashed : Bool} {tag : TagTokens}
    (hinside : TagCourse (some closing) (some (.mark mark)) [] c tag)
    (htag : Tagged (.standard keep) mark start closing) (hc : c.At cs (before ++ start ++ dash dashed))
    (hdash : dashed = ((dash dashed ++ c.rest).head? == some '-')) (hfirst : first.kind = .mark mark)
    (hstart : first.Stands cs before start) (hall : all = front ++ (first :: tag.tokens) ++ back) :
    ∃ inner, c.rest = inner ++ tag.after.rest ∧
      tag.after.At cs (before ++ (start ++ (dash dashed ++ inner))) ∧
      Construct (.standard keep) cs all before (start ++ (dash dashed ++ inner)) tag.after.rest dashed
        tag.dashed ∧
      Throughout (Accounted (.standard keep) cs all) before (start ++ (dash dashed ++ inner)) ∧
      (∀ t ∈ tag.tokens, t.span.hi ≤ tag.after.offset) ∧
      ∀ t ∈ first :: tag.tokens, ∀ data, t.kind ≠ .data data := by
  obtain ⟨inner, last, middle, htokens, hlast, hinner, hfinish, hafter, hhi, hthroughout⟩ :=
    hinside.accounted hc
  generalize hdelimiter : dash tag.dashed ++ closing.delimiter = finish at *
  have hbegins : first.Begins ∧ last.Ends := by
    unfold Token.Begins Token.Ends
    rw [hfirst, hlast]
    cases htag <;> simp
  have hdashEnd : tag.dashed = (finish.head? == some '-') ∧ finish ≠ [] := by
    rw [← hdelimiter]
    cases htag <;> cases tag.dashed <;> simp [dash]
  have hrest : c.rest = middle ++ finish ++ tag.after.rest := by
    have htext := hc.text.symm.trans hafter.text
    rw [List.append_assoc _ _ tag.after.rest] at htext
    exact List.append_cancel_left htext
  have hdashBegin : dashed = ((dash dashed ++ middle ++ finish).head? == some '-') := by
    rw [hrest] at hdash
    cases dashed with
    | true => rfl
    | false =>
      cases middle with
      | cons _ _ => exact hdash
      | nil =>
        cases finish with
        | nil => exact absurd rfl hdashEnd.2
        | cons _ _ => exact hdash
  have hat : TagAt cs all before (start ++ (dash dashed ++ (middle ++ finish))) dashed tag.dashed := by
    rw [htokens] at hall
    rw [List.append_assoc _ (dash dashed)] at hfinish
    have htag : all = front ++ (first :: inner ++ last :: back) := by simpa using hall
    have hat := TagAt.intro htag hbegins.1 hbegins.2 hinner hstart hfinish
    rw [← hdashBegin, ← hdashEnd.1] at hat
    simpa using hat
  have hafter' : tag.after.At cs (before ++ (start ++ (dash dashed ++ (middle ++ finish)))) := by
    simpa using hafter
  refine ⟨middle ++ finish, hrest, hafter', .tag hafter'.text hat, ?_, hhi, ?_⟩
  · refine hat.accounted (by simp [hall]) hbegins.1 hstart (hthroughout.imp fun _ _ _ _ hy => ?_)
    refine hy.imp ?_ id
    rintro ⟨t, ht, hcovers⟩
    exact ⟨t, by simp [hall, ht], hcovers⟩
  · rw [htokens]
    intro t ht data hkind
    rcases List.mem_cons.1 ht with rfl | ht
    · rw [hfirst] at hkind
      cases hkind
    · rcases List.mem_append.1 ht with ht | ht
      · have hinner := hinner t ht
        rw [hkind] at hinner
        exact hinner
      · rw [List.mem_singleton.1 ht, hlast] at hkind
        cases hkind

/-- **A hidden part of a round** is one of the text. -/
theorem Hidden.construct {front back : List Token} {dashBefore dashBehind : Bool}
    (h : Hidden (.standard keep) rest dashBefore dashBehind part) (htext : cs = before ++ part ++ rest)
    (hall : all = front ++ back) (hfront : ∀ t ∈ front, t.span.hi ≤ byteSize before)
    (hback : ∀ t ∈ back, byteSize (before ++ part) ≤ t.span.lo) :
    Construct (.standard keep) cs all before part rest dashBefore dashBehind ∧
      Throughout (Accounted (.standard keep) cs all) before part := by
  have hat : HiddenAt (.standard keep) cs all before part rest dashBefore dashBehind := by
    refine ⟨htext, h, fun t ht => ?_⟩
    rw [hall] at ht
    rcases List.mem_append.1 ht with ht | ht
    · exact .inl (hfront t ht)
    · exact .inr (hback t ht)
  refine ⟨.hidden hat, fun front x back hx => ?_⟩
  rw [hx] at hat
  exact .inr (.hidden hat)

/-- What the tokens of a template account for: all characters from `before` on in `part`, and the
texts of the data tokens among those in `tokens`. -/
def Accounts (d : Delimiters) (cs : List Char) (all : List Token) (before part : List Char)
    (tokens : List Token) : Prop :=
  Throughout (Accounted d cs all) before part ∧
    ∀ t ∈ tokens, ∀ data, t.kind = .data data → ∃ front, t.Stands cs front data.toList ∧
      Trimmed d cs all front data.toList

/-- **One round** of a course: a text, a construct and what is behind that. -/
theorem Accounts.round {middle later : List Token} {dashBehind : Bool}
    (hf : Faithful (.standard keep) cs none 0 all) (hc : c.At cs before)
    (hrest : c.rest = text ++ (part ++ rest))
    (hall : all = earlier ++ (dataToken c text strip stripEnd ++ middle) ++ later)
    (hbehind : Behind (.standard keep) cs all before strip)
    (hconstruct : Construct (.standard keep) cs all (before ++ text) part rest stripEnd dashBehind)
    (hpart : Throughout (Accounted (.standard keep) cs all) (before ++ text) part)
    (hmiddle : ∀ t ∈ middle, ∀ data, t.kind ≠ .data data)
    (next : Accounts (.standard keep) cs all (before ++ text ++ part) rest later) :
    Accounts (.standard keep) cs all before c.rest
      (dataToken c text strip stripEnd ++ middle ++ later) := by
  have hmem : ∀ t ∈ dataToken c text strip stripEnd, t ∈ all := by
    intro t ht
    rw [hall]
    simp [ht]
  obtain ⟨hthroughout, hdata⟩ := dataToken_accounted hf hc hrest hmem hbehind
    (.inr ⟨_, _, _, hconstruct⟩)
  constructor
  · rw [hrest]
    exact hthroughout.append (hpart.append next.1)
  · intro t ht data hkind
    rcases List.mem_append.1 ht with ht | ht
    · rcases List.mem_append.1 ht with ht | ht
      · exact hdata t ht data hkind
      · exact absurd hkind (hmiddle t ht data)
    · exact next.2 t ht data hkind

/-- **A course accounts for all characters**, and its data tokens stand over trimmed texts. -/
theorem Course.accounts (h : Course (.standard keep) strip c tokens)
    (hf : Faithful (.standard keep) cs none 0 all) (hc : c.At cs before)
    (hall : all = earlier ++ tokens) (hearlier : ∀ t ∈ earlier, t.span.hi ≤ c.offset)
    (hbehind : Behind (.standard keep) cs all before strip) :
    Accounts (.standard keep) cs all before c.rest tokens := by
  induction h generalizing before earlier with
  | @finish strip c =>
    have hmem : ∀ t ∈ dataToken c c.rest strip false, t ∈ all := by
      intro t ht
      rw [hall]
      simp [ht]
    obtain ⟨hthroughout, hdata⟩ := dataToken_accounted hf hc (List.append_nil _).symm hmem hbehind
      (.inl ⟨hc.text.symm, rfl⟩)
    refine ⟨hthroughout, fun t ht data hkind => ?_⟩
    rcases List.mem_append.1 ht with ht | ht
    · exact hdata t ht data hkind
    · rw [List.mem_singleton.1 ht] at hkind
      nomatch hkind
  | @hidden strip dashBefore dashBehind c text part rest tokens h hpart hnext ih =>
    have hc' := hc.past h
    rw [← List.append_assoc] at hc'
    have hall' : all = earlier ++ (dataToken c text strip dashBefore ++ []) ++ tokens := by
      simpa using hall
    have hfront : ∀ t ∈ earlier ++ (dataToken c text strip dashBefore ++ []),
        t.span.hi ≤ byteSize (before ++ text) := by
      rw [List.append_nil, byteSize_append, ← hc.offset]
      exact hi_of_earlier hearlier
    have hfaithful : Faithful (.standard keep) cs none _ tokens :=
      hnext.faithful hc' (Nat.le_refl _)
    have hlater := hfaithful.lo_le
    rw [hc'.offset] at hlater
    obtain ⟨hconstruct, hthroughout⟩ := hpart.construct hc'.text hall' hfront hlater
    rw [← List.append_nil (dataToken c text strip dashBefore)]
    refine Accounts.round hf hc (by rw [h, List.append_assoc]) hall' hbehind hconstruct hthroughout
      nofun (ih hc' hall' ?_ (.inr ⟨_, _, _, _, rfl, hconstruct⟩))
    intro t ht
    have hle := hfront t ht
    rw [hc'.offset, byteSize_append _ part]
    omega
  | @tag strip dashed c text start inside newline rest mark closing tag tokens htag h hdash hinside
      hnewline hrest hnext ih =>
    obtain rfl : newline = [] := by
      rcases hnewline with hnewline | ⟨htrim, -⟩
      · exact hnewline
      · nomatch htrim
    obtain rfl : tag.after.rest = rest := hrest
    rw [Cursor.past_nil] at hnext ih
    have hsplit : c.rest = text ++ start ++ dash dashed ++ inside := by
      rw [h, List.append_assoc _ (dash dashed)]
    have hc' := hc.past hsplit
    rw [← List.append_assoc, ← List.append_assoc] at hc'
    have hstart := hc.stands h (.mark mark) (start ++ (dash dashed ++ inside)) (dash dashed ++ inside)
    generalize hfirst : (c.past text (start ++ (dash dashed ++ inside))).tokenTo (.mark mark)
      (c.past (text ++ start) (dash dashed ++ inside)) = first at *
    have hkind : first.kind = .mark mark := by
      rw [← hfirst]
      rfl
    have hall' : all = earlier ++ (dataToken c text strip dashed ++ first :: tag.tokens) ++ tokens := by
      simpa using hall
    have htokens :
        all = earlier ++ dataToken c text strip dashed ++ (first :: tag.tokens) ++ tokens := by
      simpa using hall'
    obtain ⟨inner, hinner, hafter, hconstruct, hthroughout, hhi, hmiddle⟩ :=
      hinside.construct htag hc' hdash hkind hstart htokens
    refine Accounts.round hf hc ?_ hall' hbehind hconstruct hthroughout hmiddle
      (ih hafter hall' ?_ (.inr ⟨_, _, _, _, rfl, hconstruct⟩))
    · have hinner : inside = inner ++ tag.after.rest := hinner
      rw [h, hinner]
      simp
    · have hoffset : byteSize (before ++ text ++ start) ≤ tag.after.offset := by
        rw [hafter.offset]
        simp only [byteSize_append]
        omega
      have hsize : c.offset + byteSize text ≤ byteSize (before ++ text ++ start) := by
        rw [byteSize_append, byteSize_append, hc.offset]
        omega
      rw [← List.append_assoc]
      intro t ht
      rcases List.mem_append.1 ht with ht | ht
      · exact Nat.le_trans (hi_of_earlier hearlier t ht) (Nat.le_trans hsize hoffset)
      · rcases List.mem_cons.1 ht with rfl | ht
        · rw [hstart.span]
          exact hoffset
        · exact hhi t ht

end Templates

/-- **Every byte** of a text belongs to a character. -/
theorem exists_char_of_byte {cs : List Char} {n : Nat} (h : n < byteSize cs) :
    ∃ before c behind, cs = before ++ c :: behind ∧ byteSize before ≤ n ∧
      n < byteSize before + c.utf8Size := by
  induction cs generalizing n with
  | nil => nomatch h
  | cons c cs ih =>
    rw [byteSize_cons] at h
    by_cases hn : n < c.utf8Size
    · exact ⟨[], c, cs, rfl, Nat.zero_le n, by simpa using hn⟩
    · obtain ⟨before, x, behind, rfl, hlo, hhi⟩ := ih (n := n - c.utf8Size) (by omega)
      refine ⟨c :: before, x, behind, rfl, ?_, ?_⟩ <;> rw [byteSize_cons] <;> omega

/-- **Nothing else is dropped.** A byte of a template with the standard delimiters that lies under no
token belongs to a blank of a tag, a dash next to an opening delimiter, a hidden part, or a blank of
a run at a dash; and no data token has a blank next to a dash. -/
theorem dropped_of_template {keep : Bool} {source : String} {tokens : List Token}
    (h : Token.ofTemplate (.standard keep) source = .ok tokens) :
    let text := (Delimiters.standard keep).textOf source
    WithoutFinalNewline keep source.toList text ∧
      (∀ n < byteSize text, (∀ t ∈ tokens, ¬(t.span.lo ≤ n ∧ n < t.span.hi)) →
        ∃ before c behind, text = before ++ c :: behind ∧ byteSize before ≤ n ∧
          n < byteSize before + c.utf8Size ∧ Dropped (.standard keep) text tokens before c) ∧
      ∀ t ∈ tokens, ∀ data, t.kind = .data data → ∃ before, t.Stands text before data.toList ∧
        Trimmed (.standard keep) text tokens before data.toList := by
  intro text
  have hcourse := course_of_ok h
  have hstart := Cursor.at_start text
  have hfaithful : Faithful (.standard keep) text none 0 tokens :=
    hcourse.faithful hstart (Nat.le_refl _)
  obtain ⟨hthroughout, hdata⟩ := hcourse.accounts hfaithful hstart (List.nil_append _).symm nofun
    (.inl ⟨rfl, rfl⟩)
  refine ⟨withoutFinalNewline_textOf (.standard keep) source, fun n hn hfree => ?_, hdata⟩
  obtain ⟨before, c, behind, htext, hlo, hhi⟩ := exists_char_of_byte hn
  refine ⟨before, c, behind, htext, hlo, hhi, ?_⟩
  rcases hthroughout before c behind htext with ⟨t, ht, hcovers⟩ | hdropped
  · rw [List.nil_append] at hcovers
    have hcovered : t.span.lo ≤ n ∧ n < t.span.hi :=
      ⟨Nat.le_trans hcovers.1 hlo, Nat.lt_of_lt_of_le hhi hcovers.2⟩
    exact absurd hcovered (hfree t ht)
  · exact hdropped

/-- The blank that the dash of an output strips, and the text behind it. -/
theorem dropped_of_template_output :
    let source := "\x7b\x7bx-\x7d\x7d a"
    let text := (Delimiters.standard false).textOf source
    let data : Token := ⟨.data "a", 1, ⟨7, 8⟩⟩
    ∃ tokens, Token.ofTemplate (.standard false) source = .ok tokens ∧
      (∃ before c behind, text = before ++ c :: behind ∧ byteSize before ≤ 6 ∧
        6 < byteSize before + c.utf8Size ∧ Dropped (.standard false) text tokens before c) ∧
      ∃ before, data.Stands text before ['a'] ∧
        Trimmed (.standard false) text tokens before ['a'] := by
  intro source text data
  let tokens : List Token := [⟨.mark .variableBegin, 1, ⟨0, 2⟩⟩, ⟨.name "x", 1, ⟨2, 3⟩⟩,
    ⟨.mark .variableEnd, 1, ⟨3, 6⟩⟩, data, ⟨.mark .endOfTemplate, 1, ⟨8, 8⟩⟩]
  have htokens : Token.ofTemplate (.standard false) source = .ok tokens := by cbv
  obtain ⟨-, hdropped, htrimmed⟩ := dropped_of_template htokens
  have hsize : 6 < byteSize ((Delimiters.standard false).textOf source) := by cbv
  have hfree : ∀ t ∈ tokens, ¬(t.span.lo ≤ 6 ∧ 6 < t.span.hi) := by decide
  refine ⟨tokens, htokens, hdropped 6 hsize hfree, ?_⟩
  exact htrimmed data (by simp [tokens]) "a" rfl

end LiquidTemplate
