import LiquidTemplate.Proofs.Exchange.PrintTags
import LiquidTemplate.Proofs.Scanning.Course

/-!
# Raw blocks

The text of a raw block is shown as it stands. Its end is the first tag `endraw` behind its beginning.
Such a tag has a brace at its first character and at no other, so it begins where the tag behind the
text begins, or it is a part of the text.

* `EndTag`: the tags that end a raw block.
* `rawEnd?_append`: the text before the first of them.
* `raw_block`: the tokens of a raw block with the default delimiters.
-/

namespace LiquidTemplate

open Text

/-! ### The end of a raw block -/

/-- **End of a raw block** with the default delimiters: the keyword between blanks and optional
dashes. -/
def EndTag (tag : List Char) : Prop :=
  ∃ (dashBefore dashBehind : Bool) (before behind : List Char),
    (∀ c ∈ before, isBlank c = true) ∧ (∀ c ∈ behind, isBlank c = true) ∧
      tag = "\x7b%".toList ++ dash dashBefore ++ before ++ "endraw".toList ++ behind ++
        dash dashBehind ++ "%\x7d".toList

/-- The end that is written behind a text here. -/
def plainEnd : List Char :=
  ['\x7b', '%', ' ', 'e', 'n', 'd', 'r', 'a', 'w', ' ', '%', '\x7d']

theorem brace_not_blank {cs : List Char} (h : ∀ c ∈ cs, isBlank c = true) : '\x7b' ∉ cs :=
  fun hmem => absurd (h _ hmem) (by decide)

theorem brace_not_mem_dash (there : Bool) : '\x7b' ∉ dash there := by
  cases there <;> decide

/-- **A brace is the first character** of such a tag, and no other one. -/
theorem EndTag.brace {tag : List Char} (h : EndTag tag) :
    ∃ inside, tag = '\x7b' :: inside ∧ '\x7b' ∉ inside := by
  obtain ⟨dashBefore, dashBehind, before, behind, hbefore, hbehind, rfl⟩ := h
  refine ⟨'%' :: (dash dashBefore ++ before ++ "endraw".toList ++ behind ++ dash dashBehind ++
    "%\x7d".toList), by simp, ?_⟩
  have hkeyword : '\x7b' ∉ "endraw".toList := by decide
  have hcloser : '\x7b' ∉ "%\x7d".toList := by decide
  simp only [List.mem_append, not_or, List.mem_cons]
  exact ⟨by decide, ⟨⟨⟨⟨brace_not_mem_dash _, brace_not_blank hbefore⟩, hkeyword⟩,
    brace_not_blank hbehind⟩, brace_not_mem_dash _⟩, hcloser⟩

/-- What is found at a place is such a tag. -/
theorem endTag_of_rawEndAt? {cs : List Char} {found : RawEnd}
    (h : rawEndAt? {} cs = some found) : ∃ tag, EndTag tag ∧ tag <+: cs := by
  simp only [rawEndAt?, bind, Option.bind_eq_some_iff, Prod.exists] at h
  obtain ⟨more, hmore, dashBefore, dashBehind, rest, hraw, -⟩ := h
  obtain ⟨-, before, behind, hbefore, hbehind, rfl⟩ := rawTag?_eq hraw
  refine ⟨_, ⟨dashBefore, dashBehind, before, behind, hbefore, hbehind, rfl⟩, rest, ?_⟩
  rw [after?_eq_some_iff.1 hmore]
  simp

/-! ### Where there is an end -/

theorem isSome_alternative {α : Type} (a b : Option α) :
    (a <|> b).isSome = (a.isSome || b.isSome) := by
  cases a <;> rfl

theorem dashThen?_append (there : Bool) (delimiter rest : List Char) :
    (dashThen? delimiter (dash there ++ (delimiter ++ rest))).isSome := by
  unfold dashThen?
  cases there with
  | true => simp [dash, after?]
  | false =>
    rw [show dash false ++ (delimiter ++ rest) = delimiter ++ rest from rfl, after?_append]
    split <;> rfl

theorem blanksThen?_append {delimiter behind : List Char} (h : ∀ c ∈ behind, isBlank c = true)
    (there : Bool) (rest : List Char) :
    (blanksThen? delimiter (behind ++ (dash there ++ (delimiter ++ rest)))).isSome := by
  induction behind with
  | nil =>
    have hhere := dashThen?_append there delimiter rest
    rw [List.nil_append]
    cases hcs : dash there ++ (delimiter ++ rest) with
    | nil => rwa [hcs] at hhere
    | cons c cs =>
      rw [hcs] at hhere
      rw [blanksThen?, isSome_alternative, hhere, Bool.or_true]
  | cons c behind ih =>
    obtain ⟨hc, hbehind⟩ := List.forall_mem_cons.1 h
    rw [List.cons_append, blanksThen?, if_pos hc, isSome_alternative, ih hbehind, Bool.true_or]

theorem optionalDash_dash (there : Bool) {cs : List Char} (h : cs.head? ≠ some '-') :
    optionalDash (dash there ++ cs) = (there, cs) := by
  cases there with
  | true => rfl
  | false =>
    obtain ⟨heq, hflag⟩ := optionalDash_eq cs
    have hnone : (optionalDash cs).1 = false := by
      rw [hflag]
      simpa using h
    rw [hnone] at heq
    exact Prod.ext hnone heq

theorem trimStart_append {before cs : List Char} (h : ∀ c ∈ before, isBlank c = true)
    (hcs : trimStart cs = cs) : trimStart (before ++ cs) = cs := by
  rw [trimStart, List.dropWhile_append_of_pos h]
  exact hcs

/-- **No end is missed**: something is found where such a tag stands. -/
theorem EndTag.rawEndAt?_isSome {tag : List Char} (h : EndTag tag) (rest : List Char) :
    (rawEndAt? {} (tag ++ rest)).isSome := by
  obtain ⟨dashBefore, dashBehind, before, behind, hbefore, hbehind, rfl⟩ := h
  let closer := "%\x7d".toList
  let ending := behind ++ (dash dashBehind ++ (closer ++ rest))
  let inside := before ++ ("endraw".toList ++ ending)
  have hstart : after? "\x7b%".toList ("\x7b%".toList ++ dash dashBefore ++ before ++
      "endraw".toList ++ behind ++ dash dashBehind ++ closer ++ rest) =
        some (dash dashBefore ++ inside) := after?_eq_some_iff.2 (by simp [inside, ending])
  have htrim : trimStart inside = "endraw".toList ++ ending :=
    trimStart_append hbefore (by simp [trimStart, isBlank])
  have hdash : optionalDash (dash dashBefore ++ inside) = (dashBefore, inside) := by
    refine optionalDash_dash dashBefore fun hhead => ?_
    cases before with
    | nil => simp [inside] at hhead
    | cons c before =>
      obtain rfl : c = '-' := by simpa [inside] using hhead
      exact absurd (hbefore _ (List.mem_cons_self ..)) (by decide)
  have hends : (blanksThen? closer ending).isSome := blanksThen?_append hbehind dashBehind rest
  obtain ⟨found, hfound⟩ := Option.isSome_iff_exists.1 hends
  simp only [rawEndAt?, rawTag?, bind, Option.bind]
  rw [hstart]
  simp only [hdash, htrim, after?_append]
  rw [hfound]
  rfl

/-- **A text in which the search finds nothing** has no such tag in it. -/
theorem not_endTag_of_rawEnd? {text : List Char} (h : rawEnd? {} text = none) :
    ∀ tag, EndTag tag → ¬ tag <:+: text := by
  rintro tag htag ⟨before, rest, rfl⟩
  have hhere := htag.rawEndAt?_isSome rest
  induction before with
  | nil =>
    obtain ⟨inside, rfl, -⟩ := htag.brace
    have hcons : [] ++ '\x7b' :: inside ++ rest = '\x7b' :: (inside ++ rest) := rfl
    rw [hcons, rawEnd?] at h
    obtain ⟨found, hfound⟩ := Option.isSome_iff_exists.1 hhere
    rw [List.cons_append] at hfound
    rw [hfound] at h
    cases h
  | cons c before ih =>
    rw [List.cons_append, List.cons_append, rawEnd?] at h
    split at h
    · cases h
    · exact ih (Option.map_eq_none_iff.1 h)

/-- **No such tag goes across a brace**: the ones that begin before it are parts of the text
before it. -/
theorem EndTag.within {tag : List Char} {c : Char} {text rest : List Char} (h : EndTag tag)
    (hhead : tag <+: c :: (text ++ '\x7b' :: rest)) : tag <:+: c :: text := by
  obtain ⟨inside, rfl, hbrace⟩ := h.brace
  obtain ⟨behind, hbehind⟩ := hhead
  obtain ⟨rfl, htext⟩ := List.cons.inj hbehind
  obtain ⟨more, rfl, -⟩ | ⟨more, rfl, hmore⟩ := List.append_eq_append_iff.1 htext
  · exact ⟨[], more, rfl⟩
  · cases more with
    | nil => exact ⟨[], [], by simp⟩
    | cons x more =>
      obtain ⟨rfl, -⟩ := List.cons.inj hmore
      exact absurd (List.mem_append_right _ (List.mem_cons_self ..)) hbrace

/-- **The first end of a raw block** in a text with the end tag behind it. -/
theorem rawEnd?_append {text : List Char} (h : ∀ tag, EndTag tag → ¬ tag <:+: text) :
    rawEnd? {} (text ++ plainEnd) = some ⟨text, false, false, []⟩ := by
  induction text with
  | nil => rfl
  | cons c text ih =>
    have hhere : rawEndAt? {} (c :: (text ++ plainEnd)) = none := by
      refine Option.eq_none_iff_forall_ne_some.2 fun found hfound => ?_
      obtain ⟨tag, htag, hhead⟩ := endTag_of_rawEndAt? hfound
      exact h tag htag (htag.within hhead)
    have hlater := ih fun tag htag hpart => h tag htag (hpart.trans (List.suffix_cons c text).isInfix)
    rw [List.cons_append, rawEnd?, hhere, hlater]
    rfl

/-! ### Its tokens -/

/-- A raw block around a text. -/
def rawBlock (text : String) : String :=
  "\x7b% raw %\x7d" ++ text ++ "\x7b% endraw %\x7d"

/-- The tag before it, from behind its opening delimiter on. -/
def rawStart : List Char :=
  [' ', 'r', 'a', 'w', ' ', '%', '\x7d']

/-- What follows the first opening delimiter. -/
def insideRaw (text : String) : List Char :=
  rawStart ++ (text.toList ++ plainEnd)

/-- A raw block does not end with a newline. -/
theorem textOf_rawBlock (text : String) :
    ({} : Delimiters).textOf (rawBlock text) = '\x7b' :: '%' :: insideRaw text := by
  have htext : (rawBlock text).toList = '\x7b' :: '%' :: insideRaw text := by
    simp [rawBlock, insideRaw, rawStart, plainEnd]
  have hkept : dropFinalNewline (rawBlock text).toList = (rawBlock text).toList := by
    rw [htext]
    simp [dropFinalNewline, insideRaw, plainEnd]
  rw [Delimiters.textOf, hkept, ite_self, htext]

/-- **The text of a raw block**, from behind its first tag. -/
theorem readRaw_append {text : List Char} (h : ∀ tag, EndTag tag → ¬ tag <:+: text) (line : Nat)
    (c : Cursor) (hrest : c.rest = text ++ plainEnd) :
    readRaw {} line false c =
      .ok ⟨dataToken c text false false, c.past (text ++ plainEnd) [], false⟩ := by
  have hconsumed : consumed (text ++ plainEnd) [] = text ++ plainEnd := by simp [consumed]
  rw [readRaw, hrest, rawEnd?_append h]
  simp only [hconsumed]

theorem readBlock_rawBlock {text : String} (h : ∀ tag, EndTag tag → ¬ tag <:+: text.toList) :
    readBlock {} ['\x7b', '%'] ⟨'\x7b' :: '%' :: insideRaw text, 0, 1⟩ (insideRaw text) =
      .ok ⟨dataToken ⟨text.toList ++ plainEnd, 9, 1⟩ text.toList false false,
        (⟨text.toList ++ plainEnd, 9, 1⟩ : Cursor).past (text.toList ++ plainEnd) [], false⟩ := by
  have htag : rawTag? "raw" ({} : Delimiters).blockEnd.toList (insideRaw text) =
      some (false, false, text.toList ++ plainEnd) := by
    have hkeyword : "raw".toList = ['r', 'a', 'w'] := by simp
    have hcloser : ({} : Delimiters).blockEnd.toList = ['%', '\x7d'] := by simp
    rw [rawTag?, hkeyword, hcloser]
    rfl
  have hconsumed : consumed (insideRaw text) (text.toList ++ plainEnd) = rawStart :=
    consumed_append _ _
  rw [readBlock, htag]
  simp only [hconsumed]
  exact readRaw_append h 1 _ rfl

/-- **Raw blocks are verbatim.** A raw block around a text without any end tag of its own gives that
text as one data token, from behind the first tag and on the line 1, or none if it is empty; and the
end of the template, behind all newlines of the text. -/
theorem raw_block {text : String} (h : ∀ tag, EndTag tag → ¬ tag <:+: text.toList) :
    Token.ofTemplate {} (rawBlock text) = .ok
      ((if text = "" then [] else [⟨.data text, 1, ⟨9, 9 + text.utf8ByteSize⟩⟩]) ++
        [⟨.mark .endOfTemplate, 1 + newlines text.toList, .point (21 + text.utf8ByteSize)⟩]) := by
  let start : Cursor := ⟨'\x7b' :: '%' :: insideRaw text, 0, 1⟩
  let inside : Cursor := ⟨text.toList ++ plainEnd, 9, 1⟩
  let last : Cursor := inside.past (text.toList ++ plainEnd) []
  have hfound : findOpening? ({} : Delimiters).openings start.rest =
      some ⟨[], .block, ['\x7b', '%'], insideRaw text⟩ := by
    rw [show ({} : Delimiters) = .defaults false false from rfl, openings_defaults]
    rfl
  have hread : readTag {} ⟨[], .block, ['\x7b', '%'], insideRaw text⟩ start =
      .ok ⟨dataToken inside text.toList false false, last, false⟩ := readBlock_rawBlock h
  have hend : templateTokens {} false last = .ok [last.endToken] := by
    rw [templateTokens]
    rfl
  have hlast : last.endToken =
      ⟨.mark .endOfTemplate, 1 + newlines text.toList, .point (21 + text.utf8ByteSize)⟩ := by
    have hline : newlines (text.toList ++ plainEnd) = newlines text.toList := by
      rw [newlines_append]
      rfl
    have hsize : 9 + byteSize (text.toList ++ plainEnd) = 21 + text.utf8ByteSize := by
      rw [byteSize_append, byteSize_toList]
      show 9 + (text.utf8ByteSize + 12) = _
      omega
    show (⟨_, 1 + newlines (text.toList ++ plainEnd), .point (9 + byteSize _)⟩ : Token) = _
    rw [hline, hsize]
  have hdata : dataToken inside text.toList false false =
      if text = "" then [] else [⟨.data text, 1, ⟨9, 9 + text.utf8ByteSize⟩⟩] := by
    have hkept : strippedEnd false text.toList = text.toList := rfl
    rw [dataToken_unstripped, hkept, byteSize_toList, String.ofList_toList]
    simp only [String.toList_eq_nil_iff]
    rfl
  rw [Token.ofTemplate, textOf_rawBlock]
  show templateTokens {} false start = _
  rw [templateTokens, hfound]
  have hopen : start.rest.isEmpty = false := rfl
  have hnone : dataToken start [] false ((insideRaw text).head? == some '-') = [] := dataToken_nil ..
  have hless : last.rest.length < start.rest.length := Nat.zero_lt_succ _
  have hstart : start.past [] (['\x7b', '%'] ++ insideRaw text) = start := rfl
  simp only [hopen, hnone, hstart, hread, if_pos hless, hend, hdata, hlast]
  rfl

/-- A text with openers, halves of end tags, quotes, brackets and newlines. -/
theorem raw_block_halves :
    let text := "-\x7b\x7b x %\x7d\n\x7b%- endraw\n- \x7b# [\x27\x22 \x7b% raw %\x7d endraw -%\x7d \x7b"
    (∀ tag, EndTag tag → ¬ tag <:+: text.toList) ∧ Token.ofTemplate {} (rawBlock text) =
      .ok [⟨.data text, 1, ⟨9, 60⟩⟩, ⟨.mark .endOfTemplate, 3, .point 72⟩] := by
  intro text
  have hnone : rawEnd? {} text.toList = none := by cbv
  have hne : text ≠ "" := by decide
  have hsize : text.utf8ByteSize = 51 := by decide
  have hlines : newlines text.toList = 2 := by decide +kernel
  refine ⟨not_endTag_of_rawEnd? hnone, ?_⟩
  rw [raw_block (not_endTag_of_rawEnd? hnone), if_neg hne, hsize, hlines]
  rfl

end LiquidTemplate
