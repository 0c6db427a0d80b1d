import LiquidTemplate.Token.Template

/-!
# What the tokens of a template are

The last token of a template is its end and no other token is. No text among them is empty, and every
name begins as one.

* `Token.Kind.Proper`: what stands before the end.
* `Lexeme.scan_proper`, `TagTokens.read_proper`: the tokens of tags.
* `readTag_proper`: one tag with its marks, or a raw block.
* `Token.ofTemplate_eq`: all tokens of a template.
* `TokenStream.close_ofTemplate`: a stream delivers just these.
-/

namespace LiquidTemplate

open Text

variable {d : Delimiters} {c : Cursor} {opened : List Bracket} {previous : Option TokenType}

/-- **Proper kinds**: texts that are not empty, names that begin as names, and all others but the end
of the template. -/
def Token.Kind.Proper : Token.Kind → Prop
  | .data text => text.isEmpty = false
  | .name text => ∃ c ∈ text.toList.head?, isNameStart c = true
  | .mark .endOfTemplate => False
  | _ => True

/-! ### Lexemes -/

namespace Lexeme

theorem nameKind_proper {cs chars rest : List Char} (h : Literal.name? cs = some (chars, rest)) :
    (nameKind previous chars).Proper := by
  unfold nameKind
  split
  · exact ⟨'e', rfl, by decide⟩
  · unfold Literal.name? at h
    split at h
    · cases h
    · split at h
      · next c cs hc =>
        obtain ⟨rfl, -⟩ := Prod.mk.inj (Option.some.inj h)
        exact ⟨c, by rw [String.toList_ofList]; rfl, hc⟩
      · cases h

theorem literal?_proper {cs : List Char} {l : Lexeme} (h : literal? previous cs = some (.ok l)) :
    l.kind.Proper := by
  unfold literal? at h
  split at h
  · obtain rfl := by simpa using h
    trivial
  split at h
  · split at h
    · obtain rfl := by simpa using h
      trivial
    · simp at h
  split at h
  · split at h
    · obtain rfl := by simpa using h
      trivial
    · simp at h
  split at h
  · next hname =>
    obtain rfl := by simpa using h
    exact nameKind_proper hname
  · obtain ⟨⟨quote, body, rest⟩, _, hl⟩ := Option.map_eq_some_iff.1 h
    obtain rfl := by simpa using hl
    trivial

theorem symbol_proper {after : List Bracket} {line : Nat} {a : Char} {cs : List Char} {l : Lexeme}
    (h : symbol opened line a cs = .ok (l, after)) : l.kind.Proper := by
  unfold symbol at h
  split at h
  · obtain ⟨rfl, rfl⟩ := by simpa using h
    trivial
  split at h
  · split at h
    · simp at h
    · split at h
      · obtain ⟨rfl, rfl⟩ := by simpa using h
        trivial
      · simp at h
  split at h
  · obtain ⟨rfl, rfl⟩ := by simpa using h
    trivial
  · split at h <;> simp at h

/-- **No lexeme is a text or a mark.** -/
theorem scan_proper {after : List Bracket} {line : Nat} {cs : List Char} {l : Lexeme}
    (h : scan previous opened line cs = .ok (l, after)) : l.kind.Proper := by
  unfold scan at h
  split at h
  · next l' hl =>
    obtain ⟨rfl, rfl⟩ := by simpa using h
    exact literal?_proper hl
  · simp at h
  · split at h
    · simp at h
    · exact symbol_proper h

end Lexeme

/-! ### Tags -/

theorem nextToken_proper {after : List Bracket} {c' : Cursor} {t : Token}
    (h : nextToken previous opened c = .ok (t, after, c')) : t.kind.Proper := by
  obtain ⟨l, hl, -, rfl⟩ := exists_of_nextToken h
  exact Lexeme.scan_proper hl

theorem TagTokens.close?_proper {closing : Option Closing} {tag : TagTokens}
    (hclosing : ∀ x ∈ closing, (Token.Kind.mark x.mark).Proper)
    (h : close? closing opened c = some tag) : ∀ t ∈ tag.tokens, t.kind.Proper := by
  cases closing with
  | none => nomatch h
  | some x =>
      cases opened with
      | nil =>
          obtain ⟨y, _, rfl⟩ := Option.map_eq_some_iff.1 h
          intro t ht
          rw [List.mem_singleton.1 ht]
          exact hclosing x rfl
      | cons b outer => nomatch h

/-- **The tokens of a tag** with its closing mark. -/
theorem TagTokens.read_proper {closing : Option Closing} {tag : TagTokens}
    (hclosing : ∀ x ∈ closing, (Token.Kind.mark x.mark).Proper)
    (h : read closing previous opened c = .ok tag) : ∀ t ∈ tag.tokens, t.kind.Proper := by
  fun_induction read closing previous opened c generalizing tag
  case case1 =>
    unfold atEnd at h
    split at h
    · nomatch h
    · nomatch h
    · obtain rfl := by simpa using h
      exact nofun
  case case2 hfound =>
    obtain rfl := by simpa using h
    exact close?_proper hclosing hfound
  case case3 => nomatch h
  case case4 t after c' hnext ih =>
    obtain ⟨rest, hrest, rfl⟩ := exists_of_map_eq_ok h
    intro u hu
    rcases List.mem_cons.1 hu with rfl | hu
    · exact nextToken_proper hnext
    · exact ih hrest u hu

/-! ### Whole templates -/

/-- **Texts** are not empty. -/
theorem dataToken_proper {text : List Char} {stripStart stripEnd : Bool} :
    ∀ t ∈ dataToken c text stripStart stripEnd, t.kind.Proper := by
  intro t ht
  unfold dataToken at ht
  extract_lets kept start shown at ht
  split at ht
  · nomatch ht
  · next hshown =>
    rw [List.mem_singleton.1 ht]
    have hempty : (String.ofList shown).isEmpty ≠ true := by
      simpa using hshown
    exact Bool.eq_false_iff.2 hempty

theorem readMarked_proper {opening closing : Mark} {closer delimiter after : List Char}
    {tag : TagResult} (hopening : (Token.Kind.mark opening).Proper)
    (hclosing : (Token.Kind.mark closing).Proper)
    (h : readMarked opening closing closer delimiter c after = .ok tag) :
    ∀ t ∈ tag.tokens, t.kind.Proper := by
  unfold readMarked at h
  extract_lets inside at h
  split at h
  next dashed rest _ =>
    extract_lets start at h
    cases hread : TagTokens.read (some ⟨closer, closing⟩) (some (.mark opening)) [] start with
    | error e =>
        rw [hread] at h
        nomatch h
    | ok inner =>
        rw [hread] at h
        obtain rfl := Except.ok.inj h
        have hmark : ∀ x ∈ some (Closing.mk closer closing), (Token.Kind.mark x.mark).Proper := by
          intro x hx
          obtain rfl := Option.some.inj hx
          exact hclosing
        intro t ht
        rcases List.mem_cons.1 ht with rfl | ht
        · exact hopening
        · exact TagTokens.read_proper hmark hread t ht

theorem readRaw_proper {line : Nat} {strip : Bool} {tag : TagResult}
    (h : readRaw d line strip c = .ok tag) : ∀ t ∈ tag.tokens, t.kind.Proper := by
  unfold readRaw at h
  split at h
  · nomatch h
  · obtain rfl := Except.ok.inj h
    exact dataToken_proper

theorem readBlock_proper {delimiter after : List Char} {tag : TagResult}
    (h : readBlock d delimiter c after = .ok tag) : ∀ t ∈ tag.tokens, t.kind.Proper := by
  unfold readBlock at h
  split at h
  · exact readRaw_proper h
  · cases hm : readMarked .blockBegin .blockEnd d.blockEnd.toList delimiter c after with
    | error e =>
        rw [hm] at h
        nomatch h
    | ok marked =>
        rw [hm] at h
        have hbegin : (Token.Kind.mark .blockBegin).Proper := trivial
        have hend : (Token.Kind.mark .blockEnd).Proper := trivial
        have hmarked := readMarked_proper hbegin hend hm
        obtain rfl := Except.ok.inj h
        split
        · exact hmarked
        · exact hmarked

/-- **One tag** with its marks, or a raw block. -/
theorem readTag_proper {found : Opened} {tag : TagResult} (h : readTag d found c = .ok tag) :
    ∀ t ∈ tag.tokens, t.kind.Proper := by
  unfold readTag at h
  split at h
  · unfold readComment at h
    split at h
    · nomatch h
    · obtain rfl := Except.ok.inj h
      exact nofun
  · exact readBlock_proper h
  · have hbegin : (Token.Kind.mark .variableBegin).Proper := trivial
    have hend : (Token.Kind.mark .variableEnd).Proper := trivial
    exact readMarked_proper hbegin hend h

/-- **The last token is the end of the template**, and the others are proper. -/
theorem templateTokens_eq {strip : Bool} {tokens : List Token}
    (h : templateTokens d strip c = .ok tokens) :
    ∃ proper last, tokens = proper ++ [last] ∧ (∀ t ∈ proper, t.kind.Proper) ∧
      last.kind = .mark .endOfTemplate := by
  fun_induction templateTokens d strip c generalizing tokens
  case case1 =>
    obtain rfl := Except.ok.inj h
    exact ⟨[], _, rfl, nofun, rfl⟩
  case case2 =>
    obtain rfl := Except.ok.inj h
    exact ⟨_, _, rfl, dataToken_proper, rfl⟩
  case case3 => nomatch h
  case case4 tag htag hlt ih =>
    obtain ⟨rest, hrest, rfl⟩ := exists_of_map_eq_ok h
    obtain ⟨proper, last, rfl, hproper, hlast⟩ := ih hrest
    refine ⟨_, last, (List.append_assoc ..).symm, fun t ht => ?_, hlast⟩
    rcases List.mem_append.1 ht with ht | ht
    · rcases List.mem_append.1 ht with ht | ht
      · exact dataToken_proper t ht
      · exact readTag_proper htag t ht
    · exact hproper t ht
  case case5 => nomatch h

/-- **All tokens of a template.** -/
theorem Token.ofTemplate_eq {source : String} {tokens : List Token}
    (h : ofTemplate d source = .ok tokens) :
    ∃ proper last, tokens = proper ++ [last] ∧ (∀ t ∈ proper, t.kind.Proper) ∧
      last.kind = .mark .endOfTemplate :=
  templateTokens_eq h

/-- **The stream of a template** delivers just its tokens. -/
theorem TokenStream.close_ofTemplate {source : String} {tokens : List Token}
    (h : Token.ofTemplate d source = .ok tokens) : close tokens = tokens := by
  obtain ⟨proper, last, rfl, _, hlast⟩ := Token.ofTemplate_eq h
  have hend : last.isEnd = true := Token.isEnd_iff.2 hlast
  rw [close, List.getLast?_concat, Option.map_some, Option.getD_some, if_pos hend]

end LiquidTemplate
