import LiquidTemplate.Proofs.Scanning.Places

/-!
# The constructs of a template

What stands between the texts of a template is a tag, with the tokens of it, or a hidden part, which
no token covers. A dash at either end of such a construct strips the text next to it.

* `Delimiters.standard`: the delimiters of the common dialect.
* `TagAt`, `HiddenAt`, `Construct`: what stands at a place of a text, and its dashes.
* `Construct.dashBefore_unique`, `Construct.dashBehind_unique`: a text and its tokens determine the
  dashes of what begins or ends at a place.
-/

namespace LiquidTemplate

open Text

/-- **The standard delimiters**, with or without a newline that is kept at the end. -/
def Delimiters.standard (keep : Bool) : Delimiters :=
  { keepTrailingNewline := keep }

section Standard

variable (keep : Bool)

@[simp] theorem Delimiters.standard_blockStart : (standard keep).blockStart = "\x7b%" := rfl
@[simp] theorem Delimiters.standard_blockEnd : (standard keep).blockEnd = "%\x7d" := rfl
@[simp] theorem Delimiters.standard_variableStart : (standard keep).variableStart = "\x7b\x7b" := rfl
@[simp] theorem Delimiters.standard_variableEnd : (standard keep).variableEnd = "\x7d\x7d" := rfl
@[simp] theorem Delimiters.standard_commentStart : (standard keep).commentStart = "\x7b#" := rfl
@[simp] theorem Delimiters.standard_commentEnd : (standard keep).commentEnd = "#\x7d" := rfl

end Standard

/-! ### Tags and hidden parts -/

/-- Marks of the beginning of a tag. -/
def Token.Begins (t : Token) : Prop :=
  t.kind = .mark .variableBegin ∨ t.kind = .mark .blockBegin

/-- Marks of the end of a tag. -/
def Token.Ends (t : Token) : Prop :=
  t.kind = .mark .variableEnd ∨ t.kind = .mark .blockEnd

/-- **A tag** of the text `cs`, behind the characters `before`: the characters from the mark of its
beginning to that of its end, with only inner tokens between them. The flags tell whether a dash is
next to the opening delimiter, and whether the end has one. -/
inductive TagAt (cs : List Char) (tokens : List Token) (before : List Char) :
    List Char → (dashBefore dashBehind : Bool) → Prop where
  | intro {front inside back : List Token} {first last : Token} {start middle finish : List Char}
      (htokens : tokens = front ++ (first :: inside ++ last :: back)) (hfirst : first.Begins)
      (hlast : last.Ends) (hinside : ∀ t ∈ inside, t.kind.Inner)
      (hstart : first.Stands cs before start)
      (hfinish : last.Stands cs (before ++ start ++ middle) finish) :
      TagAt cs tokens before (start ++ middle ++ finish) ((middle ++ finish).head? == some '-')
        (finish.head? == some '-')

/-- **A hidden part** of the text `cs`, between the characters `before` and `behind`: a comment or a
tag at an end of a raw block, over which no token stands. -/
structure HiddenAt (d : Delimiters) (cs : List Char) (tokens : List Token)
    (before part behind : List Char) (dashBefore dashBehind : Bool) : Prop where
  text : cs = before ++ part ++ behind
  hidden : Hidden d behind dashBefore dashBehind part
  free : ∀ t ∈ tokens, t.span.hi ≤ byteSize before ∨ byteSize (before ++ part) ≤ t.span.lo

/-- **A construct**: a tag or a hidden part, between the characters `before` and `behind`. -/
inductive Construct (d : Delimiters) (cs : List Char) (tokens : List Token)
    (before part behind : List Char) (dashBefore dashBehind : Bool) : Prop where
  | tag (text : cs = before ++ part ++ behind) (h : TagAt cs tokens before part dashBefore dashBehind)
  | hidden (h : HiddenAt d cs tokens before part behind dashBefore dashBehind)

/-! ### Places of characters -/

theorem byteSize_pos {cs : List Char} (h : cs ≠ []) : 0 < byteSize cs := by
  cases cs with
  | nil => exact absurd rfl h
  | cons c cs =>
    rw [byteSize_cons]
    have hc := c.utf8Size_pos
    omega

/-- **Beginnings of a text** are determined by their sizes. -/
theorem eq_of_byteSize_eq {as bs cs ds : List Char} (h : as ++ cs = bs ++ ds)
    (hsize : byteSize as = byteSize bs) : as = bs := by
  have hextra {us vs : List Char} (hus : byteSize us = byteSize (us ++ vs)) : vs = [] := by
    rw [byteSize_append] at hus
    by_cases hvs : vs = []
    · exact hvs
    · have hpos := byteSize_pos hvs
      omega
  rcases List.append_eq_append_iff.1 h with ⟨more, rfl, -⟩ | ⟨more, rfl, -⟩
  · rw [hextra hsize, List.append_nil]
  · rw [hextra hsize.symm, List.append_nil]

variable {cs : List Char} {t u : Token} {tokens : List Token}

/-- **A token stands at one place only.** -/
theorem Token.Stands.unique {as bs as' bs' : List Char} (h : t.Stands cs as bs)
    (h' : t.Stands cs as' bs') : as = as' ∧ bs = bs' := by
  obtain ⟨⟨cs₁, hcs⟩, hspan, -⟩ := h
  obtain ⟨⟨cs₂, hcs'⟩, hspan', -⟩ := h'
  have hlo : byteSize as = byteSize as' := by
    have hspan := congrArg Span.lo (hspan.symm.trans hspan')
    exact hspan
  have hhi : byteSize (as ++ bs) = byteSize (as' ++ bs') := by
    have hspan := congrArg Span.hi (hspan.symm.trans hspan')
    exact hspan
  have htext := hcs.symm.trans hcs'
  have hboth : as ++ bs = as' ++ bs' := eq_of_byteSize_eq htext hhi
  obtain rfl : as = as' := eq_of_byteSize_eq hboth hlo
  exact ⟨rfl, List.append_cancel_left hboth⟩

/-- **Tokens that overlap** are the same. -/
theorem eq_of_overlap (h : tokens.Pairwise fun t u => t.span.hi ≤ u.span.lo) (ht : t ∈ tokens)
    (hu : u ∈ tokens) (hlo : t.span.lo < u.span.hi) (hhi : u.span.lo < t.span.hi) : t = u := by
  induction h with
  | nil => nomatch ht
  | cons hfirst _ ih =>
    rcases List.mem_cons.1 ht with rfl | ht <;> rcases List.mem_cons.1 hu with rfl | hu
    · rfl
    · have hle := hfirst u hu
      omega
    · have hle := hfirst t (by assumption)
      omega
    · exact ih ht hu

/-! ### The standard delimiters -/

section Standard

variable {keep dashBefore dashBehind : Bool} {previous : Option TokenType}
  {before part behind shown : List Char}

/-- The mark of a beginning has two characters. -/
theorem Token.Begins.spelled (h : t.Begins) (hs : t.kind.Spells (.standard keep) previous shown) :
    ∃ y, shown = ['\x7b', y] := by
  rcases h with h | h <;> rw [h] at hs
  · exact ⟨'\x7b', by simpa [Token.Kind.Spells] using hs⟩
  · exact ⟨'%', by simpa [Token.Kind.Spells] using hs⟩

/-- The mark of an end has two characters, and a dash before them if there is one. -/
theorem Token.Ends.spelled (h : t.Ends) (hs : t.kind.Spells (.standard keep) previous shown) :
    ∃ y, shown = [y, '\x7d'] ∨ shown = ['-', y, '\x7d'] := by
  rcases h with h | h <;> rw [h] at hs
  · exact ⟨'\x7d', by simpa [Token.Kind.Spells] using hs⟩
  · exact ⟨'%', by simpa [Token.Kind.Spells] using hs⟩

theorem head_of_blanks {blanks : List Char} {c : Char} (hb : ∀ x ∈ blanks, isBlank x = true)
    (hc : c ≠ '-') (rest : List Char) : ((blanks ++ c :: rest).head? == some '-') = false := by
  cases blanks with
  | nil => simpa using hc
  | cons b blanks =>
    have hblank := hb b List.mem_cons_self
    have hne : b ≠ '-' := by
      rintro rfl
      have hdash : isBlank '-' = false := by decide
      rw [hdash] at hblank
      nomatch hblank
    simpa using hne

/-- **The shape of a hidden part**: two characters at either end of it, and a dash behind the first
two or before the last two if there is one. -/
theorem Hidden.shape (h : Hidden (.standard keep) behind dashBefore dashBehind part) :
    ∃ x y inside, part = '\x7b' :: x :: inside ++ [y, '\x7d'] ∧
      dashBefore = ((inside ++ [y]).head? == some '-') ∧
      dashBehind = ((x :: inside).getLast? == some '-') := by
  cases h with
  | @comment inside _ =>
    refine ⟨'#', '#', inside, ?_, ?_, ?_⟩
    · simp
    · cases inside <;> simp
    · cases inside <;> simp [List.getLast?_cons]
  | @raw keyword blanks blanks' _ _ hk hb hb' =>
    obtain ⟨c, cs, e, hkeyword, hc, he⟩ : ∃ c cs e, keyword.toList = c :: (cs ++ [e]) ∧ c ≠ '-' ∧
        e ≠ '-' := by
      rcases hk with rfl | rfl
      · exact ⟨'r', ['a'], 'w', by simp, by decide, by decide⟩
      · exact ⟨'e', ['n', 'd', 'r', 'a'], 'w', by simp, by decide, by decide⟩
    refine ⟨'%', '%', dash dashBefore ++ blanks ++ keyword.toList ++ blanks' ++ dash dashBehind, ?_,
      ?_, ?_⟩
    · simp
    · rw [hkeyword]
      cases dashBefore with
      | true => rfl
      | false =>
        have hhead := head_of_blanks hb hc (cs ++ e :: (blanks' ++ (dash dashBehind ++ ['%'])))
        simpa [dash] using hhead.symm
    · rw [hkeyword, ← List.head?_reverse]
      cases dashBehind with
      | true => simp [dash]
      | false =>
        have hreverse : ∀ x ∈ blanks'.reverse, isBlank x = true := fun x hx =>
          hb' x (List.mem_reverse.1 hx)
        have hhead := head_of_blanks hreverse he
          (cs.reverse ++ (c :: (blanks.reverse ++ ((dash dashBefore).reverse ++ ['%']))))
        simpa [dash] using hhead.symm

end Standard

/-! ### Dashes of constructs -/

section Dashes

variable {keep dashBefore dashBehind dashBefore' dashBehind' : Bool}
  {before part behind before' part' behind' shown : List Char}

theorem Faithful.stands_spelled {d : Delimiters} {previous : Option TokenType} {lo : Nat}
    (hf : Faithful d cs previous lo tokens) (ht : t ∈ tokens) (hs : t.Stands cs before shown) :
    ∃ previous, t.kind.Spells d previous shown := by
  obtain ⟨front, back, htokens⟩ := List.append_of_mem ht
  obtain ⟨_, _, hs', hspells⟩ := hf.split htokens
  obtain ⟨rfl, rfl⟩ := hs'.unique hs
  exact ⟨_, hspells⟩

/-- **The shape of a tag**: the first two characters, with a dash behind them if there is one, and
the token of its end, which is not empty. -/
theorem TagAt.shape (hf : Faithful (.standard keep) cs none 0 tokens)
    (h : TagAt cs tokens before part dashBefore dashBehind) :
    (∃ x rest, part = '\x7b' :: x :: rest ∧ rest ≠ [] ∧ dashBefore = (rest.head? == some '-')) ∧
      ∃ inner finish, ∃ t ∈ tokens, part = inner ++ finish ∧ t.Stands cs (before ++ inner) finish ∧
        finish.getLast? = some '\x7d' ∧ dashBehind = (finish.head? == some '-') := by
  cases h with
  | @intro front inside back first last start middle finish htokens hfirst hlast _ hstart hfinish =>
    have hmem : first ∈ tokens ∧ last ∈ tokens := by simp [htokens]
    obtain ⟨_, hspells⟩ := hf.stands_spelled hmem.1 hstart
    obtain ⟨_, hspells'⟩ := hf.stands_spelled hmem.2 hfinish
    obtain ⟨x, rfl⟩ := hfirst.spelled hspells
    obtain ⟨y, hy⟩ := hlast.spelled hspells'
    have hne : finish ≠ [] ∧ finish.getLast? = some '\x7d' := by
      rcases hy with rfl | rfl <;> simp
    refine ⟨⟨x, middle ++ finish, by simp, by simp [hne.1], rfl⟩, _, finish, last, hmem.2, rfl, ?_,
      hne.2, rfl⟩
    rw [← List.append_assoc]
    exact hfinish

/-- **Both ends of a construct** are braces, so no blanks are there. -/
theorem Construct.braces (hf : Faithful (.standard keep) cs none 0 tokens)
    (h : Construct (.standard keep) cs tokens before part behind dashBefore dashBehind) :
    part.head? = some '\x7b' ∧ part.getLast? = some '\x7d' := by
  cases h with
  | tag _ h =>
    obtain ⟨⟨_, _, hpart, -⟩, inner, finish, _, -, hpart', -, hlast, -⟩ := h.shape hf
    refine ⟨by rw [hpart]; rfl, ?_⟩
    rw [hpart', List.getLast?_append, hlast]
    rfl
  | hidden h =>
    obtain ⟨x, y, inside, rfl, -⟩ := h.hidden.shape
    exact ⟨rfl, by simp [List.getLast?_cons]⟩

theorem Construct.text (h : Construct (.standard keep) cs tokens before part behind dashBefore
    dashBehind) : cs = before ++ part ++ behind := by
  cases h with
  | tag h _ => exact h
  | hidden h => exact h.text

/-- The dash at the beginning of a construct is its third character. -/
theorem Construct.dashBefore_eq (hf : Faithful (.standard keep) cs none 0 tokens)
    (h : Construct (.standard keep) cs tokens before part behind dashBefore dashBehind) :
    dashBefore = (((part ++ behind).drop 2).head? == some '-') := by
  cases h with
  | tag _ h =>
    obtain ⟨⟨x, rest, rfl, hne, rfl⟩, -⟩ := h.shape hf
    show _ = ((rest ++ behind).head? == some '-')
    cases rest with
    | nil => exact absurd rfl hne
    | cons _ _ => rfl
  | hidden h =>
    obtain ⟨x, y, inside, rfl, rfl, -⟩ := h.hidden.shape
    show _ = ((inside ++ [y, '\x7d'] ++ behind).head? == some '-')
    cases inside <;> rfl

/-- **What begins at a place** has a dash there or has none. -/
theorem Construct.dashBefore_unique (hf : Faithful (.standard keep) cs none 0 tokens)
    (h : Construct (.standard keep) cs tokens before part behind dashBefore dashBehind)
    (h' : Construct (.standard keep) cs tokens before part' behind' dashBefore' dashBehind') :
    dashBefore = dashBefore' := by
  have htext := h.text.symm.trans h'.text
  rw [List.append_assoc, List.append_assoc] at htext
  rw [h.dashBefore_eq hf, h'.dashBefore_eq hf, List.append_cancel_left htext]

/-- No hidden part ends where a tag ends. -/
theorem not_tag_of_hidden (hf : Faithful (.standard keep) cs none 0 tokens)
    (h : TagAt cs tokens before part dashBefore dashBehind)
    (h' : HiddenAt (.standard keep) cs tokens before' part' behind' dashBefore' dashBehind')
    (hend : before ++ part = before' ++ part') : False := by
  obtain ⟨-, inner, finish, t, ht, rfl, hstands, hlast, -⟩ := h.shape hf
  obtain ⟨x, y, inside, hpart, -⟩ := h'.hidden.shape
  have hfinish : 0 < byteSize finish := byteSize_pos (by rintro rfl; nomatch hlast)
  have hpart : 0 < byteSize part' := byteSize_pos (by rw [hpart]; nofun)
  have hsize := congrArg byteSize hend
  have hfree := h'.free t ht
  rw [hstands.span] at hfree
  simp only [byteSize_append] at hfree hsize
  omega

/-- **What ends at a place** has a dash there or has none. -/
theorem Construct.dashBehind_unique (hf : Faithful (.standard keep) cs none 0 tokens)
    (h : Construct (.standard keep) cs tokens before part behind dashBefore dashBehind)
    (h' : Construct (.standard keep) cs tokens before' part' behind' dashBefore' dashBehind')
    (hend : before ++ part = before' ++ part') : dashBehind = dashBehind' := by
  cases h with
  | tag _ h =>
    cases h' with
    | tag _ h' =>
      obtain ⟨-, inner, finish, t, ht, rfl, hstands, hlast, rfl⟩ := h.shape hf
      obtain ⟨-, inner', finish', u, hu, rfl, hstands', hlast', rfl⟩ := h'.shape hf
      have hfinish : 0 < byteSize finish := byteSize_pos (by rintro rfl; nomatch hlast)
      have hfinish' : 0 < byteSize finish' := byteSize_pos (by rintro rfl; nomatch hlast')
      have hsize := congrArg byteSize hend
      obtain rfl : t = u := by
        apply eq_of_overlap hf.pairwise ht hu <;> rw [hstands.span, hstands'.span] <;>
          simp only [byteSize_append] at hsize ⊢ <;> omega
      rw [(hstands.unique hstands').2]
    | hidden h' => exact (not_tag_of_hidden hf h h' hend).elim
  | hidden h =>
    cases h' with
    | tag _ h' => exact (not_tag_of_hidden hf h' h hend.symm).elim
    | hidden h' =>
      obtain ⟨x, y, inside, rfl, -, rfl⟩ := h.hidden.shape
      obtain ⟨x', y', inside', rfl, -, rfl⟩ := h'.hidden.shape
      rw [← List.append_assoc, ← List.append_assoc] at hend
      have hinside := congrArg List.getLast? (List.append_inj' hend rfl).1
      have hlast : (x :: inside).getLast? = (x' :: inside').getLast? := by
        simpa [List.getLast?_append, List.getLast?_cons] using hinside
      rw [hlast]

end Dashes

end LiquidTemplate
