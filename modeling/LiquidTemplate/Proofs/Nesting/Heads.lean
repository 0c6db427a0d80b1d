import LiquidTemplate.Proofs.Texts.Quiet

/-!
# Heads of tags and how they nest

The head of a tag is its name, with the answer whether the tag assigns a value. The heads of all
tags of a template are a word, and the words of nested tags are those of a grammar.

* `TagHead`, `tagHeads`: the heads of the tags among some tokens.
* `TagHead.IsSimple`, `TagHead.Encloses`: tags that stand alone, and tags with a body and an end.
* `NestedBody`, `NestedTag`, `NestedTail`: the grammar of nested tags.
* `NestedBody.opens`: no body begins with an alternative or an end.
* `tagHeads_passes`, `tagHeads_begin`: what steps of a parser do to the heads that are left.
-/

namespace LiquidTemplate

/-! ### Heads -/

/-- **Head of a tag**: its name, and whether an assignment sign stands in the tag. -/
structure TagHead where
  name : String
  assigns : Bool
deriving DecidableEq, Repr

/-- Whether an assignment sign stands before the end of the tag that these tokens go on with. -/
def assignsAhead : List Token → Bool
  | [] => false
  | t :: ts => !t.isMark .blockEnd && (t.isSymbol .assign || assignsAhead ts)

/-- The head of the tag whose name is the first of these tokens, if that is a name. -/
def tagHead? : List Token → Option TagHead
  | [] => none
  | t :: ts => t.name?.map fun name => ⟨name, assignsAhead ts⟩

/-- **Heads of tags**: the names that directly follow the beginnings of tags, in their order. -/
def tagHeads : List Token → List TagHead
  | [] => []
  | t :: ts => (if t.isMark .blockBegin then (tagHead? ts).toList else []) ++ tagHeads ts

/-! ### Nested tags -/

namespace TagHead

/-- The tags that stand alone. -/
def simpleTags : List String :=
  ["break", "continue", "extends", "print", "include", "section", "from", "import", "do", "shout"]

/-- The tags that stand alone if they assign a value, and have a body if they do not. -/
def assigningTags : List String :=
  ["set", "assign", "capture"]

/-- The tags with one body. -/
def enclosingTags : List String :=
  ["macro", "with", "autoescape", "block", "call", "filter"]

/-- The tags with a body and alternatives to it. -/
def branchingTags : List String :=
  ["for", "if", "unless", "case"]

/-- The name of the tag before a further branch. -/
def furtherTag? : String → Option String
  | "if" | "unless" => some "elif"
  | "case" => some "when"
  | _ => none

/-- **Standing alone.** -/
def IsSimple (h : TagHead) : Prop :=
  h.name ∈ simpleTags ∨ h.name ∈ assigningTags ∧ h.assigns = true

/-- **Having one body** and an end. -/
def Encloses (h : TagHead) : Prop :=
  h.name ∈ enclosingTags ∨ h.name ∈ assigningTags ∧ h.assigns = false

/-- **Opening** a tag, which an alternative or an end does not. -/
def Opens (h : TagHead) : Prop :=
  h.IsSimple ∨ h.Encloses ∨ h.name ∈ branchingTags

/-- **Ending** the tag with the given name. -/
def Ends (h : TagHead) (tag : String) : Prop :=
  h.name = "end" ++ tag

end TagHead

mutual

/-- **Body**: any number of tags, one after the other. -/
inductive NestedBody : List TagHead → Prop where
  | empty : NestedBody []
  | more {hs ts : List TagHead} (body : NestedBody hs) (tag : NestedTag ts) : NestedBody (hs ++ ts)

/-- **Tag**: one that stands alone, or one with its bodies and its end. -/
inductive NestedTag : List TagHead → Prop where
  | simple {h : TagHead} (hsimple : h.IsSimple) : NestedTag [h]
  | enclosing {h e : TagHead} {hs : List TagHead} (hencloses : h.Encloses) (body : NestedBody hs)
      (hend : e.Ends h.name) : NestedTag (h :: (hs ++ [e]))
  | branching {h : TagHead} {hs ts : List TagHead} (hbranching : h.name ∈ TagHead.branchingTags)
      (body : NestedBody hs) (tail : NestedTail h.name ts) : NestedTag (h :: (hs ++ ts))

/-- **What follows the body of a branching tag**: its end, another body and the end, or a further
branch. -/
inductive NestedTail : String → List TagHead → Prop where
  | close {tag : String} {e : TagHead} (hend : e.Ends tag) : NestedTail tag [e]
  | otherwise {tag : String} {h e : TagHead} {hs : List TagHead} (helse : h.name = "else")
      (body : NestedBody hs) (hend : e.Ends tag) : NestedTail tag (h :: (hs ++ [e]))
  | further {tag : String} {h : TagHead} {hs ts : List TagHead}
      (hfurther : h.name ∈ TagHead.furtherTag? tag) (body : NestedBody hs)
      (tail : NestedTail tag ts) : NestedTail tag (h :: (hs ++ ts))

end

/-- A tag begins with a head that opens it. -/
theorem NestedTag.opens {ts : List TagHead} (h : NestedTag ts) :
    ∃ e us, ts = e :: us ∧ e.Opens := by
  cases h with
  | simple hsimple => exact ⟨_, _, rfl, .inl hsimple⟩
  | enclosing hencloses => exact ⟨_, _, rfl, .inr (.inl hencloses)⟩
  | branching hbranching => exact ⟨_, _, rfl, .inr (.inr hbranching)⟩

/-- **A body begins with an opening tag**, never with an alternative or an end. -/
theorem NestedBody.opens : ∀ {hs : List TagHead}, NestedBody hs →
    hs = [] ∨ ∃ e us, hs = e :: us ∧ e.Opens
  | _, .empty => .inl rfl
  | _, .more body tag => by
      obtain ⟨e, us, rfl, he⟩ := tag.opens
      rcases body.opens with rfl | ⟨e', us', rfl, he'⟩
      · exact .inr ⟨e, us, rfl, he⟩
      · exact .inr ⟨e', us' ++ e :: us, rfl, he'⟩

/-! ### Steps -/

variable {s t : ParserState} {ts : List Token}

theorem tagHeads_plain {u : Token} (h : u.kind ≠ .mark .blockBegin) :
    tagHeads (u :: ts) = tagHeads ts := by
  have hmark : u.isMark .blockBegin = false := by
    rw [Bool.eq_false_iff]
    exact fun hu => h (Token.isMark_iff.1 hu)
  rw [tagHeads, hmark]
  rfl

/-- **Plain tokens** bring no head. -/
theorem tagHeads_passes (h : s.Passes t) : tagHeads s.stream.tokens = tagHeads t.stream.tokens := by
  obtain ⟨used, hs, hplain⟩ := h
  rw [hs]
  clear hs
  induction used with
  | nil => rfl
  | cons u used ih =>
      have hu : u.kind ≠ .mark .blockBegin := by
        intro hk
        have hu := hplain u List.mem_cons_self
        rw [hk] at hu
        exact hu
      rw [List.cons_append, tagHeads_plain hu]
      exact ih fun x hx => hplain x (List.mem_cons_of_mem _ hx)

/-- A step from a token that begins no tag. -/
theorem tagHeads_stepped {k : Token.Kind} (hk : s.stream.current.kind = k)
    (h : k.type ≠ .mark .blockBegin) : tagHeads s.stream.tokens = tagHeads s.stepped.stream.tokens := by
  have hbegin : s.stream.current.kind ≠ .mark .blockBegin := by
    intro hcurrent
    rw [← hk, hcurrent] at h
    exact h rfl
  by_cases hend : k.type = .mark .endOfTemplate
  · show _ = tagHeads s.stream.next.tokens
    rw [TokenStream.tokens_next]
    split
    · rfl
    · exact tagHeads_plain hbegin
  · rw [s.tokens_stepped hk hend]
    exact tagHeads_plain hbegin

/-- **The beginning of a tag** brings the head of that tag. -/
theorem tagHeads_begin (hk : s.stream.current.kind = .mark .blockBegin) :
    tagHeads s.stream.tokens =
      (tagHead? s.stepped.stream.tokens).toList ++ tagHeads s.stepped.stream.tokens := by
  rw [s.tokens_stepped hk nofun, TokenStream.tokens, tagHeads, if_pos (Token.isMark_iff.2 hk)]

/-- **The head of a tag** is that of a parser before the name of the tag. -/
theorem tagHead?_eq_some_iff {h : TagHead} : tagHead? s.stream.tokens = some h ↔
    s.stream.current.kind = .name h.name ∧ h.assigns = assignsAhead s.stepped.stream.tokens := by
  have hhead {tag : String} (hk : s.stream.current.kind = .name tag) :
      tagHead? s.stream.tokens = some ⟨tag, assignsAhead s.stepped.stream.tokens⟩ := by
    rw [s.tokens_stepped hk nofun, TokenStream.tokens, tagHead?, Token.name?_eq_some_iff.2 hk]
    rfl
  constructor
  · intro hsome
    obtain ⟨name, hname, -⟩ := Option.map_eq_some_iff.1 hsome
    have hk : s.stream.current.kind = .name name := Token.name?_eq_some_iff.1 hname
    obtain rfl := Option.some.inj ((hhead hk).symm.trans hsome)
    exact ⟨hk, rfl⟩
  · intro hname
    obtain ⟨hk, hassigns⟩ := hname
    rw [hhead hk, ← hassigns]

/-- A step from the name of a tag. -/
theorem tagHeads_name {h : TagHead} (hh : tagHead? s.stream.tokens = some h) :
    tagHeads s.stream.tokens = tagHeads s.stepped.stream.tokens :=
  tagHeads_stepped (tagHead?_eq_some_iff.1 hh).1 nofun

/-! ### Assignment signs -/

/-- A step from a token that is no assignment sign and does not end the tag. -/
theorem assignsAhead_stepped {k : Token.Kind} (hk : s.stream.current.kind = k)
    (hassign : k.type ≠ .symbol .assign) (hend : k.type ≠ .mark .blockEnd) :
    assignsAhead s.stream.tokens = assignsAhead s.stepped.stream.tokens := by
  have hcons (ts : List Token) : assignsAhead (s.stream.current :: ts) = assignsAhead ts := by
    have hsymbol : s.stream.current.isSymbol .assign = false := by
      rw [Token.isSymbol, Token.type, hk]
      exact beq_eq_false_iff_ne.2 hassign
    have hmark : s.stream.current.isMark .blockEnd = false := by
      rw [Token.isMark, Token.type, hk]
      exact beq_eq_false_iff_ne.2 hend
    rw [assignsAhead, hsymbol, hmark]
    rfl
  show _ = assignsAhead s.stream.next.tokens
  rw [TokenStream.tokens_next]
  split
  · rfl
  · exact hcons _

theorem assignsAhead_assign (hk : s.stream.current.kind = .symbol .assign) :
    assignsAhead s.stream.tokens = true := by
  have hmark : s.stream.current.isMark .blockEnd = false := by
    rw [Token.isMark, Token.type, hk]
    rfl
  rw [TokenStream.tokens, assignsAhead, Token.isSymbol_iff.2 hk, hmark]
  rfl

theorem assignsAhead_end (hk : s.stream.current.kind = .mark .blockEnd) :
    assignsAhead s.stream.tokens = false := by
  rw [TokenStream.tokens, assignsAhead, Token.isMark_iff.2 hk]
  rfl

end LiquidTemplate
