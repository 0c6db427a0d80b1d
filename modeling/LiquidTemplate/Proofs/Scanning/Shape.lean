import LiquidTemplate.Proofs.Scanning.Course

/-!
# The shape of the tokens of a template

Between its texts a template has tags: the mark of a beginning, inner tokens whose brackets are
balanced, and the mark of the end that fits. Behind all of them stands the end of the template.

* `Balanced`: every bracket has its partner.
* `Shaped`: the tokens of a template.
* `Closes`: tokens that close the brackets of a stack.
* `shaped_of_ok`: what is read of a template is shaped.
-/

namespace LiquidTemplate

open Text

/-! ### Brackets -/

/-- The partner of an opening bracket. -/
def Symbol.closer? : Symbol → Option Symbol
  | lParen => some rParen
  | lBracket => some rBracket
  | lBrace => some rBrace
  | _ => none

/-- **Brackets** of the three kinds. -/
def Symbol.isBracket : Symbol → Bool
  | lParen | rParen | lBracket | rBracket | lBrace | rBrace => true
  | _ => false

/-- Tokens that are brackets. -/
def Token.Kind.isBracket : Token.Kind → Bool
  | .symbol s => s.isBracket
  | _ => false

/-- **Balanced tokens**: every bracket has a partner of its kind, and the tokens between the two are
balanced. -/
inductive Balanced : List Token → Prop where
  | nil : Balanced []
  | other {t : Token} {ts : List Token} (ht : t.kind.isBracket = false) (rest : Balanced ts) :
      Balanced (t :: ts)
  | enclosed {t u : Token} {s closer : Symbol} {inside rest : List Token}
      (ht : t.kind = .symbol s) (hu : u.kind = .symbol closer) (hs : s.closer? = some closer)
      (inner : Balanced inside) (outer : Balanced rest) : Balanced (t :: inside ++ u :: rest)

/-- **Shaped tokens** of a template: texts that are not empty, output tags and block tags, and the
end of the template. -/
inductive Shaped : List Token → Prop where
  | finish {t : Token} (ht : t.kind = .mark .endOfTemplate) : Shaped [t]
  | text {t : Token} {data : String} {ts : List Token} (ht : t.kind = .data data) (hne : data ≠ "")
      (rest : Shaped ts) : Shaped (t :: ts)
  | output {t u : Token} {inside ts : List Token} (ht : t.kind = .mark .variableBegin)
      (hu : u.kind = .mark .variableEnd) (hinside : ∀ x ∈ inside, x.kind.Inner)
      (hbalanced : Balanced inside) (rest : Shaped ts) : Shaped (t :: inside ++ u :: ts)
  | block {t u : Token} {inside ts : List Token} (ht : t.kind = .mark .blockBegin)
      (hu : u.kind = .mark .blockEnd) (hinside : ∀ x ∈ inside, x.kind.Inner)
      (hbalanced : Balanced inside) (rest : Shaped ts) : Shaped (t :: inside ++ u :: ts)

/-! ### Stacks of brackets -/

/-- **Tokens that close a stack** of brackets, whose partners are in `closers`, the innermost first:
balanced tokens before each of them, and behind the last. -/
inductive Closes : (closers : List Symbol) → List Token → Prop where
  | done {ts : List Token} (h : Balanced ts) : Closes [] ts
  | close {closer : Symbol} {closers : List Symbol} {u : Token} {ts rest : List Token}
      (h : Balanced ts) (hu : u.kind = .symbol closer) (next : Closes closers rest) :
      Closes (closer :: closers) (ts ++ u :: rest)

section Stacks

variable {t : Token} {ts rest : List Token} {closers : List Symbol} {s closer : Symbol}

/-- Balanced tokens in front close nothing. -/
theorem Closes.prepend (ts : List Token) (hb : ∀ rest, Balanced rest → Balanced (ts ++ rest))
    (h : Closes closers rest) : Closes closers (ts ++ rest) := by
  cases h with
  | done hr => exact .done (hb _ hr)
  | close hr hu next =>
    rw [← List.append_assoc]
    exact .close (hb _ hr) hu next

theorem Closes.other (ht : t.kind.isBracket = false) (h : Closes closers ts) :
    Closes closers (t :: ts) :=
  h.prepend [t] fun _ hr => .other ht hr

/-- **An opening bracket** is closed by the first of the brackets behind it. -/
theorem Closes.opening (ht : t.kind = .symbol s) (hs : s.closer? = some closer)
    (h : Closes (closer :: closers) ts) : Closes closers (t :: ts) := by
  cases h with
  | @close _ _ u inside rest hinside hu next =>
    have hpair (more : List Token) (hmore : Balanced more) :
        Balanced ((t :: inside ++ [u]) ++ more) := by
      have henclosed := Balanced.enclosed ht hu hs hinside hmore
      simpa using henclosed
    have hclose := next.prepend _ hpair
    simpa using hclose

theorem Closes.closing (ht : t.kind = .symbol closer) (h : Closes closers ts) :
    Closes (closer :: closers) (t :: ts) :=
  .close .nil ht h

end Stacks

/-- The symbol that closes an open bracket. -/
def Bracket.partner (b : Bracket) : Symbol :=
  if b.char = '(' then .rParen else if b.char = '[' then .rBracket else .rBrace

theorem closer?_of_opening {c : Char} {s : Symbol} (line : Nat) (h : openingBracket? c = some s) :
    s.closer? = some (Bracket.partner ⟨c, line⟩) := by
  unfold openingBracket? at h
  split at h
  · next hc => rw [← Option.some.inj h, hc]; rfl
  · split at h
    · next hc => rw [← Option.some.inj h, hc]; rfl
    · split at h
      · next hc => rw [← Option.some.inj h, hc]; rfl
      · nomatch h

theorem partner_of_closing {s : Symbol} {b : Bracket} (h : closingBracket? b.closer = some s) :
    b.partner = s := by
  unfold Bracket.closer at h
  unfold Bracket.partner
  by_cases hparen : b.char = '('
  · rw [if_pos hparen] at h ⊢
    exact Option.some.inj h
  · rw [if_neg hparen] at h ⊢
    by_cases hbracket : b.char = '['
    · rw [if_pos hbracket] at h ⊢
      exact Option.some.inj h
    · rw [if_neg hbracket] at h ⊢
      exact Option.some.inj h

/-- **A lexeme** does to the open brackets what its token does. -/
theorem closes_lexeme {previous : Option TokenType} {opened after : List Bracket} {line : Nat}
    {t : Token} {cs : List Char} {ts : List Token}
    (h : Lexeme.Scanned previous opened line t.kind cs after)
    (hts : Closes (after.map Bracket.partner) ts) :
    Closes (opened.map Bracket.partner) (t :: ts) := by
  generalize hk : t.kind = k at h
  cases h with
  | literal hlit _ =>
    refine hts.other ?_
    rw [hk]
    cases k with
    | symbol s => exact hlit.elim
    | _ => rfl
  | opening hc => exact hts.opening hk (closer?_of_opening line hc)
  | @closing c s b outer ho hc hb =>
    subst ho hb
    rw [List.map_cons, partner_of_closing hc]
    exact hts.closing hk
  | @operator s hs =>
    refine hts.other ?_
    rw [hk]
    have hnone : ∀ s ∈ operators, s.isBracket = false := by decide
    exact hnone s hs

/-! ### Tags and templates -/

/-- **Tokens of a tag**: inner tokens that close the open brackets, and the mark of its end. -/
theorem TagCourse.shape {x : Closing} {previous : Option TokenType} {opened : List Bracket}
    {c : Cursor} {tag : TagTokens} (h : TagCourse (some x) previous opened c tag) :
    ∃ inside last, tag.tokens = inside ++ [last] ∧ last.kind = .mark x.mark ∧
      (∀ t ∈ inside, t.kind.Inner) ∧ Closes (opened.map Bracket.partner) inside := by
  induction h with
  | finish hc _ => nomatch hc
  | close hx _ =>
    obtain rfl := Option.some.inj hx
    exact ⟨[], _, rfl, rfl, nofun, .done .nil⟩
  | token _ _ hs _ ih =>
    obtain ⟨inside, last, htokens, hlast, hinside, hcloses⟩ := ih
    refine ⟨_ :: inside, last, congrArg (_ :: ·) htokens, hlast, ?_, closes_lexeme hs hcloses⟩
    exact List.forall_mem_cons.2 ⟨hs.inner, hinside⟩

theorem Shaped.dataToken {c : Cursor} {text : List Char} {stripStart stripEnd : Bool}
    {ts : List Token} (h : Shaped ts) :
    Shaped (LiquidTemplate.dataToken c text stripStart stripEnd ++ ts) := by
  obtain ⟨lead, shown, trail, -, htoken⟩ := dataToken_eq c text stripStart stripEnd
  rw [htoken]
  by_cases hshown : shown = []
  · rw [if_pos hshown]
    exact h
  · rw [if_neg hshown]
    have hne : String.ofList shown ≠ "" := fun he => hshown (by simpa using he)
    exact .text rfl hne h

/-- **A course gives shaped tokens.** -/
theorem Course.shaped {d : Delimiters} {strip : Bool} {c : Cursor} {tokens : List Token}
    (h : Course d strip c tokens) : Shaped tokens := by
  induction h with
  | finish => exact Shaped.dataToken (.finish rfl)
  | hidden _ _ _ ih => exact ih.dataToken
  | tag htag _ _ hinside _ _ _ ih =>
    obtain ⟨inside, last, htokens, hlast, hinner, hcloses⟩ := hinside.shape
    rw [List.append_assoc]
    refine Shaped.dataToken ?_
    rw [htokens, List.cons_append, List.append_assoc]
    cases hcloses with
    | done hbalanced =>
      cases htag with
      | output => exact .output rfl hlast hinner hbalanced ih
      | block => exact .block rfl hlast hinner hbalanced ih

/-- **The tokens of a template** are shaped, whatever its delimiters are. -/
theorem shaped_of_ok {d : Delimiters} {source : String} {tokens : List Token}
    (h : Token.ofTemplate d source = .ok tokens) : Shaped tokens :=
  (course_of_ok h).shaped

end LiquidTemplate
