import Mathlib
import LiquidTemplate.Proofs.Exchange.Alone
import LiquidTemplate.Proofs.Scanning.Places
import LiquidTemplate.Proofs.Scanning.Rounds

/-!
# Where the lexer cuts texts

The lexer takes parts of texts by their byte indices: of the source at the places where it is on its
way, of what is left of it behind a dash, and of a quoted string at its quotes. The relations of this
module are the ways of the lexer, for every source, also if an error ends them.

* `Reaches`: the cursors at which a round begins.
* `ReachesInside`: the cursors inside of tags.
* `ReachesText`: the stretches of text.
* `Cuts`: the byte indices at which texts are cut.
* `Cuts.isValid`: they are between two characters.
* `lexing_ends`: the lexer ends, takes a part of the text in each round and for each token, and cuts
  between characters.
-/

namespace LiquidTemplate

open Text

variable {d : Delimiters} {source : String} {c : Cursor}

/-- The cursor behind an opening delimiter and a dash. -/
def Opened.begin (found : Opened) (c : Cursor) : Cursor :=
  if (optionalDash found.after).1 then (found.inside c).past ['-'] (optionalDash found.after).2
  else found.inside c

/-- The marks of a tag whose tokens are read: any but a comment and the beginning of a raw block. -/
def Opened.marks? (d : Delimiters) (found : Opened) : Option (Mark × Closing) :=
  match found.opening with
  | .comment => none
  | .block =>
    if (rawTag? "raw" d.blockEnd.toList found.after).isSome then none
    else some (.blockBegin, ⟨d.blockEnd.toList, .blockEnd⟩)
  | .variable => some (.variableBegin, ⟨d.variableEnd.toList, .variableEnd⟩)

/-- The beginning of a raw block: whether blanks are stripped there, and the cursor behind the tag. -/
def Opened.raw? (d : Delimiters) (found : Opened) (c : Cursor) : Option (Bool × Cursor) :=
  match found.opening with
  | .block => (rawTag? "raw" d.blockEnd.toList found.after).map fun (_, strip, rest) =>
      (strip, (found.inside c).past (consumed found.after rest) rest)
  | _ => none

/-! ### The ways of the lexer -/

/-- **Where a round begins**, and whether blanks are stripped there. -/
inductive Reaches (d : Delimiters) (source : String) : Bool → Cursor → Prop where
  | start : Reaches d source false ⟨d.textOf source, 0, 1⟩
  | round {strip strip' : Bool} {c c' : Cursor} (before : Reaches d source strip c)
      (h : Round d strip c strip' c') : Reaches d source strip' c'

/-- **Inside of a tag** before its closing delimiter: behind a token of the class `previous` and
inside of the brackets `opened`. -/
inductive ReachesInside (d : Delimiters) (source : String) (closing : Closing) :
    Option TokenType → List Bracket → Cursor → Prop where
  | start {strip : Bool} {c : Cursor} {found : Opened} {mark : Mark} (round : Reaches d source strip c)
      (hfound : findOpening? d.openings c.rest = some found)
      (hmarks : found.marks? d = some (mark, closing)) :
      ReachesInside d source closing (some (.mark mark)) [] (found.begin c)
  | token {previous : Option TokenType} {opened after : List Bracket} {c c' : Cursor} {t : Token}
      (before : ReachesInside d source closing previous opened c) (hmore : c.skipBlanks.rest ≠ [])
      (hopen : TagTokens.close? (some closing) opened c.skipBlanks = none)
      (hnext : nextToken previous opened c.skipBlanks = .ok (t, after, c')) :
      ReachesInside d source closing (some t.type) after c'

/-- **Stretches of text** from a cursor on, with the sides on which blanks are stripped: before a tag,
at the end of the template and in a raw block. -/
inductive ReachesText (d : Delimiters) (source : String) :
    Cursor → List Char → (stripStart stripEnd : Bool) → Prop where
  | beforeTag {strip : Bool} {c : Cursor} {found : Opened} (round : Reaches d source strip c)
      (hfound : findOpening? d.openings c.rest = some found) :
      ReachesText d source c found.before strip (found.after.head? == some '-')
  | last {strip : Bool} {c : Cursor} (round : Reaches d source strip c)
      (hnone : findOpening? d.openings c.rest = none) : ReachesText d source c c.rest strip false
  | raw {strip strip' : Bool} {c start : Cursor} {found : Opened} {stop : RawEnd}
      (round : Reaches d source strip c) (hfound : findOpening? d.openings c.rest = some found)
      (hraw : found.raw? d c = some (strip', start)) (hstop : rawEnd? d start.rest = some stop) :
      ReachesText d source start stop.before strip' stop.dashBefore

/-- **Cuts.** The texts that are cut on the way, each with the byte index. -/
inductive Cuts (d : Delimiters) (source : String) : String → Nat → Prop where
  /-- The newline at the end of the source. -/
  | finalNewline : Cuts d source source (byteSize (d.textOf source))
  | round {strip : Bool} {c : Cursor} (h : Reaches d source strip c) :
      Cuts d source (String.ofList (d.textOf source)) c.offset
  /-- Behind an opening delimiter. -/
  | inside {strip : Bool} {c : Cursor} {found : Opened} (h : Reaches d source strip c)
      (hfound : findOpening? d.openings c.rest = some found) :
      Cuts d source (String.ofList (d.textOf source)) (found.inside c).offset
  /-- Before the end of a comment. -/
  | comment {strip : Bool} {c : Cursor} {found : Opened} {inside rest : List Char}
      (h : Reaches d source strip c) (hfound : findOpening? d.openings c.rest = some found)
      (hcut : cut? d.commentEnd.toList found.after = some (inside, rest)) :
      Cuts d source (String.ofList (d.textOf source)) ((found.inside c).offset + byteSize inside)
  /-- Behind the tag before a raw block. -/
  | raw {strip strip' : Bool} {c start : Cursor} {found : Opened} (h : Reaches d source strip c)
      (hfound : findOpening? d.openings c.rest = some found)
      (hraw : found.raw? d c = some (strip', start)) :
      Cuts d source (String.ofList (d.textOf source)) start.offset
  /-- Behind the blanks at the beginning of a text. -/
  | textStart {c : Cursor} {text : List Char} {stripStart stripEnd : Bool}
      (h : ReachesText d source c text stripStart stripEnd) :
      Cuts d source (String.ofList (d.textOf source))
        (c.offset + byteSize (consumed text (if stripStart then trimStart text else text)))
  /-- The ends of a data token. -/
  | data {c : Cursor} {text : List Char} {stripStart stripEnd : Bool} {t : Token}
      (h : ReachesText d source c text stripStart stripEnd)
      (ht : t ∈ dataToken c text stripStart stripEnd) {index : Nat}
      (hindex : index = t.span.lo ∨ index = t.span.hi) :
      Cuts d source (String.ofList (d.textOf source)) index
  | textEnd {c : Cursor} {text : List Char} {stripStart stripEnd : Bool}
      (h : ReachesText d source c text stripStart stripEnd) :
      Cuts d source (String.ofList (d.textOf source)) (c.offset + byteSize text)
  /-- Before the blanks in front of a token of a tag. -/
  | token {closing : Closing} {previous : Option TokenType} {opened : List Bracket} {c : Cursor}
      (h : ReachesInside d source closing previous opened c) :
      Cuts d source (String.ofList (d.textOf source)) c.offset
  /-- Behind these blanks. -/
  | blanks {closing : Closing} {previous : Option TokenType} {opened : List Bracket} {c : Cursor}
      (h : ReachesInside d source closing previous opened c) :
      Cuts d source (String.ofList (d.textOf source)) c.skipBlanks.offset
  /-- A dash in front of what could be a closing delimiter. -/
  | dash {closing : Closing} {previous : Option TokenType} {c : Cursor}
      (h : ReachesInside d source closing previous [] c)
      (hdash : c.skipBlanks.rest.head? = some '-') :
      Cuts d source (String.ofList c.skipBlanks.rest) 1
  /-- Behind a closing delimiter. -/
  | close {closing : Closing} {previous : Option TokenType} {opened : List Bracket} {c : Cursor}
      {tag : TagTokens} (h : ReachesInside d source closing previous opened c)
      (hclose : TagTokens.close? (some closing) opened c.skipBlanks = some tag) :
      Cuts d source (String.ofList (d.textOf source)) tag.after.offset
  /-- The quotes of a string. -/
  | quotes {closing : Closing} {previous : Option TokenType} {opened after : List Bracket}
      {c : Cursor} {l : Lexeme} {text : String}
      (h : ReachesInside d source closing previous opened c)
      (hscan : Lexeme.scan previous opened c.skipBlanks.line c.skipBlanks.rest = .ok (l, after))
      (hstring : l.kind = .string text) {index : Nat}
      (hindex : index = 1 ∨ index = byteSize l.chars - 1) :
      Cuts d source (String.ofList l.chars) index

/-! ### Between characters -/

/-- The byte index behind the first of two parts of a text. -/
theorem isValid_append {cs front back : List Char} {index : Nat} (h : cs = front ++ back)
    (hindex : index = byteSize front) : String.Pos.Raw.IsValid (String.ofList cs) ⟨index⟩ := by
  refine String.Pos.Raw.isValid_iff_exists_append.2 ⟨String.ofList front, String.ofList back, ?_, ?_⟩
  · rw [h, String.ofList_append]
  · exact String.Pos.Raw.ext (hindex.trans (utf8ByteSize_ofList front).symm)

/-- A cursor that is reached in a text is between two characters of it. -/
theorem Cursor.Leads.isValid {cs : List Char} (h : (⟨cs, 0, 1⟩ : Cursor).Leads c) :
    String.Pos.Raw.IsValid (String.ofList cs) ⟨c.offset⟩ := by
  obtain ⟨taken, rest, htext, rfl⟩ := h
  exact isValid_append htext (Nat.zero_add _)

/-- So is a place further on. -/
theorem Cursor.Leads.isValid_add {cs taken rest : List Char} (h : (⟨cs, 0, 1⟩ : Cursor).Leads c)
    (hrest : c.rest = taken ++ rest) :
    String.Pos.Raw.IsValid (String.ofList cs) ⟨c.offset + byteSize taken⟩ :=
  (h.trans (Cursor.leads_past hrest)).isValid

theorem inside_leads_begin (found : Opened) (c : Cursor) :
    (found.inside c).Leads (found.begin c) := by
  have hdash : dash (optionalDash found.after).1 ++ (optionalDash found.after).2 = found.after :=
    (optionalDash_eq found.after).1
  unfold Opened.begin
  split
  · next hdashed =>
    rw [hdashed] at hdash
    exact Cursor.leads_past hdash.symm
  · exact Cursor.Leads.refl _

theorem inside_leads_raw {found : Opened} {strip : Bool} {start : Cursor}
    (h : found.raw? d c = some (strip, start)) : (found.inside c).Leads start := by
  unfold Opened.raw? at h
  split at h
  · obtain ⟨⟨before, strip', rest⟩, hraw, hstart⟩ := Option.map_eq_some_iff.1 h
    obtain ⟨rfl, rfl⟩ := Prod.mk.inj hstart
    obtain ⟨-, blanks, more, -, -, hafter⟩ := rawTag?_eq hraw
    exact Cursor.leads_past (consumed_append_of_suffix ⟨_, hafter.symm⟩)
  · nomatch h

theorem Reaches.leads {strip : Bool} (h : Reaches d source strip c) :
    (⟨d.textOf source, 0, 1⟩ : Cursor).Leads c := by
  induction h with
  | start => exact Cursor.Leads.refl _
  | round _ h ih => exact ih.trans h.leads

theorem ReachesInside.leads {closing : Closing} {previous : Option TokenType} {opened : List Bracket}
    (h : ReachesInside d source closing previous opened c) :
    (⟨d.textOf source, 0, 1⟩ : Cursor).Leads c := by
  induction h with
  | start round hfound _ =>
    exact round.leads.trans ((leads_inside hfound).trans (inside_leads_begin _ _))
  | token _ _ _ hnext ih =>
    obtain ⟨l, hl, rfl, -⟩ := exists_of_nextToken hnext
    exact ih.trans ((Cursor.leads_skipBlanks _).trans (Cursor.leads_past (Lexeme.scan_eq hl).1))

/-- A stretch of text is a part of the source. -/
theorem ReachesText.leads {text : List Char} {stripStart stripEnd : Bool}
    (h : ReachesText d source c text stripStart stripEnd) :
    (⟨d.textOf source, 0, 1⟩ : Cursor).Leads c ∧ ∃ rest, c.rest = text ++ rest := by
  cases h with
  | beforeTag round hfound => exact ⟨round.leads, _, (findOpening?_eq hfound).1⟩
  | last round hnone => exact ⟨round.leads, [], (List.append_nil _).symm⟩
  | raw round hfound hraw hstop =>
    obtain ⟨part, hpart, -⟩ := rawEnd?_eq hstop
    have hleads := (leads_inside hfound).trans (inside_leads_raw hraw)
    exact ⟨round.leads.trans hleads, _, hpart.trans (List.append_assoc ..)⟩

/-- The quotes are the first and the last byte of a string literal. -/
theorem quotes_of_scan {previous : Option TokenType} {opened after : List Bracket} {line : Nat}
    {cs : List Char} {l : Lexeme} {text : String}
    (h : Lexeme.scan previous opened line cs = .ok (l, after)) (hstring : l.kind = .string text) :
    ∃ quote body, (quote = '\'' ∨ quote = '"') ∧ l.chars = quote :: body ++ [quote] := by
  have hscanned := Lexeme.scanned_of_ok h
  rw [hstring] at hscanned
  cases hscanned with
  | literal _ hs =>
    obtain ⟨quote, body, hquote, hchars, -⟩ := hs {}
    exact ⟨quote, body, hquote, hchars⟩

/-- **Every cut is between two characters** of the text, within its bounds. -/
theorem Cuts.isValid {text : String} {index : Nat} (h : Cuts d source text index) :
    String.Pos.Raw.IsValid text ⟨index⟩ := by
  cases h with
  | finalNewline =>
    obtain ⟨ending, htext⟩ := WithoutFinalNewline.prefix (withoutFinalNewline_textOf d source)
    have hvalid := isValid_append htext rfl
    rwa [String.ofList_toList] at hvalid
  | round h => exact h.leads.isValid
  | inside h hfound => exact (h.leads.trans (leads_inside hfound)).isValid
  | comment h hfound hcut =>
    exact (h.leads.trans (leads_inside hfound)).isValid_add
      ((cut?_eq hcut).trans (List.append_assoc ..))
  | raw h hfound hraw =>
    exact (h.leads.trans ((leads_inside hfound).trans (inside_leads_raw hraw))).isValid
  | @textStart c text stripStart _ h =>
    obtain ⟨hleads, rest, hrest⟩ := h.leads
    have htext := (stripped_start text stripStart).text_eq
    rw [List.append_nil] at htext
    have hkept := hrest.trans (congrArg (· ++ rest) htext)
    exact hleads.isValid_add (hkept.trans (List.append_assoc ..))
  | @data c text stripStart stripEnd t h ht _ hindex =>
    obtain ⟨hleads, rest, hrest⟩ := h.leads
    have hyields := yields_dataToken hrest stripStart stripEnd t ht
    cases hyields with
    | @token k d shown rest' hd hshown _ =>
      have hd := hleads.trans hd
      rcases hindex with rfl | rfl
      · exact hd.isValid
      · exact hd.isValid_add hshown
  | textEnd h =>
    obtain ⟨hleads, rest, hrest⟩ := h.leads
    exact hleads.isValid_add hrest
  | token h => exact h.leads.isValid
  | blanks h => exact (h.leads.trans (Cursor.leads_skipBlanks _)).isValid
  | @dash _ _ c h hdash =>
    obtain ⟨rest, hrest⟩ := List.head?_eq_some_iff.1 hdash
    have htext : c.skipBlanks.rest = ['-'] ++ rest := hrest
    exact isValid_append htext rfl
  | close h hclose =>
    have hcourse := tagCourse_of_close none hclose
    exact (h.leads.trans hcourse.leads).isValid
  | @quotes _ _ _ _ c l text h hscan hstring _ hindex =>
    obtain ⟨quote, body, hquote, hchars⟩ := quotes_of_scan hscan hstring
    have hwidth : quote.utf8Size = 1 := by rcases hquote with rfl | rfl <;> rfl
    rcases hindex with rfl | rfl
    · have htext : l.chars = [quote] ++ (body ++ [quote]) := hchars
      exact isValid_append htext (by simp [hwidth])
    · exact isValid_append hchars (by simp [hchars, hwidth, Nat.add_comm])

/-- **The lexer ends**, if no opening delimiter is empty; the closing ones can be. It runs through
the loop of its rounds to tokens or an error; each round takes an opening delimiter or the rest of the
text; each token takes at least a byte; and every text is cut between two characters. -/
theorem lexing_ends (d : Delimiters) (hd : ∀ o, d.start o ≠ "") (source : String) :
    Lexes d false ⟨d.textOf source, 0, 1⟩ (Token.ofTemplate d source) ∧
      (∀ strip c strip' c', Round d strip c strip' c' → c'.rest = [] ∨
        ∃ found, findOpening? d.openings c.rest = some found ∧ 0 < byteSize found.delimiter ∧
          c.offset + byteSize found.before + byteSize found.delimiter ≤ c'.offset) ∧
      (∀ previous opened c t after c', nextToken previous opened c = .ok (t, after, c') →
        c.offset < c'.offset) ∧
      ∀ text index, Cuts d source text index → String.Pos.Raw.IsValid text ⟨index⟩ :=
  ⟨lexes_templateTokens hd false _, fun _ _ _ _ h => h.progress hd,
    fun _ _ _ _ _ _ h => offset_lt_of_nextToken h, fun _ _ h => h.isValid⟩

/-- Opening delimiters that begin with each other, of more than a byte, and an empty closing one. -/
theorem lexing_ends_empty :
    let d : Delimiters :=
      { blockStart := "é", blockEnd := "ß", variableStart := "éé", variableEnd := "",
        commentStart := "é#" }
    let source := "aéé-é 'ü'-ß"
    let tokens : List Token := [⟨.data "a", 1, ⟨0, 1⟩⟩, ⟨.mark .variableBegin, 1, ⟨1, 5⟩⟩,
      ⟨.mark .variableEnd, 1, ⟨6, 6⟩⟩, ⟨.mark .blockBegin, 1, ⟨6, 8⟩⟩, ⟨.string "ü", 1, ⟨9, 13⟩⟩,
      ⟨.mark .blockEnd, 1, ⟨13, 16⟩⟩, ⟨.mark .endOfTemplate, 1, ⟨16, 16⟩⟩]
    let start : Cursor := ⟨source.toList, 0, 1⟩
    let behind : Cursor := ⟨"é 'ü'-ß".toList, 6, 1⟩
    (∀ o, d.start o ≠ "") ∧ Lexes d false start (.ok tokens) ∧ Round d false start false behind ∧
      Cuts d source source 5 ∧ String.Pos.Raw.IsValid source ⟨5⟩ := by
  intro d source tokens start behind
  have hd : ∀ o, d.start o ≠ "" := by
    intro o
    cases o <;> decide
  have htext : d.textOf source = source.toList := by cbv
  have htokens : Token.ofTemplate d source = .ok tokens := by cbv
  let found : Opened := ⟨['a'], .variable, "éé".toList, "-é 'ü'-ß".toList⟩
  let tag : TagResult :=
    ⟨[⟨.mark .variableBegin, 1, ⟨1, 5⟩⟩, ⟨.mark .variableEnd, 1, ⟨6, 6⟩⟩], behind, false⟩
  have hfound : findOpening? d.openings start.rest = some found := by cbv
  have hread : readTag d found (start.past found.before (found.delimiter ++ found.after)) = .ok tag := by
    cbv
  obtain ⟨hlexes, -, -, hcuts⟩ := lexing_ends d hd source
  rw [htokens, htext] at hlexes
  have hstart : Reaches d source false start := by
    have hbegin : Reaches d source false ⟨d.textOf source, 0, 1⟩ := .start
    rwa [htext] at hbegin
  have hcut : Cuts d source source 5 := by
    have hinside := Cuts.inside hstart hfound
    rwa [htext, String.ofList_toList] at hinside
  exact ⟨hd, hlexes, .tag hfound hread, hcut, hcuts _ _ hcut⟩

end LiquidTemplate
