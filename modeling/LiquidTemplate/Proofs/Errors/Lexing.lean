import LiquidTemplate.Proofs.Scanning.Course

/-!
# Errors of the lexer

The lexer finds tokens and errors at a cursor. That is the place of an error. Its line is that of the
cursor too, unless the text ends while something is open that was opened on an earlier line.

* `Cause.Lexical`: what can be wrong with the tokens of a tag.
* `Cursor.Reports`: an error that is found at a cursor.
* `Cursor.Yields`: a token that is found behind a cursor.
* `TagTokens.fails_of_error`, `fails_of_ofExpression`: the errors of a tag, and of an expression.
* `outcome_of_template`: the errors of a text with tags, and its tokens.
-/

namespace LiquidTemplate

open Text

variable {c : Cursor} {first : Nat} {e : SyntaxError}

namespace SyntaxError.Cause

/-- **Causes in the characters of a tag.** -/
def Lexical : Cause → Prop
  | missingTagEnd | unclosedBracket _ | strayBracket _ | mismatchedBracket .. | invalidFloat _
  | integerOutOfRange _ | unterminatedString | unexpectedChar _ | expectedExpression _ => True
  | _ => False

/-- **Causes about something that is open** where the text ends. -/
def LeavesOpen : Cause → Prop
  | unclosedBracket _ | missingRawEnd => True
  | _ => False

end SyntaxError.Cause

/-- **Part of a line** of a text. -/
structure InLine (cs part : List Char) : Prop where
  isPart : part <:+: cs
  newlines_eq : newlines part = 0

/-- The bounds of a range literal. -/
def Token.HasBound (t : Token) (text : String) : Prop :=
  ∃ start stop, t.kind = .range start stop ∧ (text = start ∨ text = stop)

/-! ### Errors and tokens further on -/

namespace Cursor

/-- **An error that is found at a cursor.** What is still open was opened on the line `first` or on a
later one. -/
structure Reports (c : Cursor) (first : Nat) (e : SyntaxError) : Prop where
  span : e.span = some (.point c.offset)
  name : e.name = none
  filename : e.filename = none
  first_le : first ≤ e.line
  le_line : e.line ≤ c.line
  line : e.line = c.line ∨ e.cause.LeavesOpen

theorem reports_error (cause : SyntaxError.Cause) (h : first ≤ c.line) :
    c.Reports first (c.error cause) :=
  ⟨rfl, rfl, rfl, h, Nat.le_refl _, .inl rfl⟩

theorem reports_open {cause : SyntaxError.Cause} {line : Nat} (hopen : cause.LeavesOpen)
    (hfirst : first ≤ line) (hline : line ≤ c.line) : c.Reports first (c.errorAt cause line) :=
  ⟨rfl, rfl, rfl, hfirst, hline, .inr hopen⟩

/-- **A cursor further on** in the same text. -/
def Leads (c c' : Cursor) : Prop :=
  ∃ taken rest, c.rest = taken ++ rest ∧ c' = c.past taken rest

variable {c' d : Cursor}

theorem Leads.refl (c : Cursor) : c.Leads c :=
  ⟨[], c.rest, rfl, rfl⟩

theorem leads_past {taken rest : List Char} (h : c.rest = taken ++ rest) :
    c.Leads (c.past taken rest) :=
  ⟨taken, rest, h, rfl⟩

theorem leads_skipBlanks (c : Cursor) : c.Leads c.skipBlanks := by
  obtain ⟨blanks, -, hrest, hskip⟩ := c.skipBlanks_eq
  exact ⟨blanks, _, hrest, hskip⟩

theorem leads_skipNewline (c : Cursor) : c.Leads c.skipNewline := by
  obtain ⟨newline, rest, -, hrest, hskip⟩ := c.skipNewline_eq
  exact ⟨newline, rest, hrest, hskip⟩

theorem Leads.trans (h : c.Leads d) (h' : d.Leads c') : c.Leads c' := by
  obtain ⟨taken, rest, hrest, rfl⟩ := h
  obtain ⟨more, behind, hmore, rfl⟩ := h'
  have hmore : rest = more ++ behind := hmore
  exact ⟨taken ++ more, behind, by rw [hrest, hmore, List.append_assoc], past_past ..⟩

theorem Leads.line_le (h : c.Leads d) : c.line ≤ d.line := by
  obtain ⟨taken, rest, -, rfl⟩ := h
  exact Nat.le_add_right ..

/-- **An error further on.** -/
def Fails (c : Cursor) (first : Nat) (e : SyntaxError) : Prop :=
  ∃ d, c.Leads d ∧ d.Reports first e

theorem Leads.fails (h : c.Leads d) (hd : d.Fails first e) : c.Fails first e := by
  obtain ⟨c', hc', hreports⟩ := hd
  exact ⟨c', h.trans hc', hreports⟩

theorem Leads.fails_error (h : c.Leads d) (cause : SyntaxError.Cause) (hfirst : first ≤ c.line) :
    c.Fails first (d.error cause) :=
  ⟨d, h, reports_error cause (Nat.le_trans hfirst h.line_le)⟩

/-- **A token further on.** The bounds of a range literal are parts of lines of its text. -/
inductive Yields (c : Cursor) : Token → Prop where
  | token {d : Cursor} {k : Token.Kind} {shown rest : List Char} (hd : c.Leads d)
      (hrest : d.rest = shown ++ rest)
      (hbound : ∀ text, (d.tokenTo k (d.past shown rest)).HasBound text →
        InLine shown text.toList) :
      Yields c (d.tokenTo k (d.past shown rest))

variable {t : Token} {shown rest : List Char}

/-- A token that is no range literal. -/
theorem Leads.yields {k : Token.Kind} (h : c.Leads d) (hrest : d.rest = shown ++ rest)
    (hk : ∀ start stop, k ≠ .range start stop) :
    c.Yields (d.tokenTo k (d.past shown rest)) :=
  .token h hrest fun _ ⟨_, _, hrange, _⟩ => absurd hrange (hk _ _)

/-- **The bounds of a range literal** are on one line and not longer than the literal. -/
theorem Yields.bound (h : c.Yields t) {text : String} (htext : t.HasBound text) :
    newlines text.toList = 0 ∧ t.span.lo + byteSize text.toList ≤ t.span.hi := by
  cases h with
  | @token d k shown rest _ _ hbound =>
    obtain ⟨⟨front, back, hpart⟩, hline⟩ := hbound text htext
    refine ⟨hline, ?_⟩
    show d.offset + byteSize text.toList ≤ d.offset + byteSize shown
    rw [← hpart, byteSize_append, byteSize_append]
    omega

theorem Leads.yields_of (h : c.Leads d) (ht : d.Yields t) : c.Yields t := by
  cases ht with
  | token hd hrest hbound => exact .token (h.trans hd) hrest hbound

end Cursor

/-! ### Tags -/

namespace Lexeme

theorem lexical_of_literal {previous : Option TokenType} {cs : List Char}
    {cause : SyntaxError.Cause} (h : literal? previous cs = some (.error cause)) : cause.Lexical := by
  unfold literal? at h
  split at h
  · nomatch h
  · split at h
    · split at h
      · nomatch h
      · obtain rfl := by simpa using h
        trivial
    · split at h
      · split at h
        · nomatch h
        · obtain rfl := by simpa using h
          trivial
      · split at h
        · nomatch h
        · obtain ⟨_, _, hno⟩ := Option.map_eq_some_iff.1 h
          nomatch hno

theorem lexical_of_symbol {opened : List Bracket} {line : Nat} {c : Char} {cs : List Char}
    {cause : SyntaxError.Cause} (h : symbol opened line c cs = .error cause) : cause.Lexical := by
  unfold symbol at h
  split at h
  · nomatch h
  · split at h
    · split at h
      · obtain rfl := Except.error.inj h
        trivial
      · split at h
        · nomatch h
        · obtain rfl := Except.error.inj h
          trivial
    · split at h
      · nomatch h
      · split at h <;> obtain rfl := Except.error.inj h <;> trivial

/-- **What can be wrong with a lexeme.** -/
theorem lexical_of_error {previous : Option TokenType} {opened : List Bracket} {line : Nat}
    {cs : List Char} {cause : SyntaxError.Cause}
    (h : scan previous opened line cs = .error cause) : cause.Lexical := by
  unfold scan at h
  split at h
  · nomatch h
  · next hl =>
    obtain rfl := Except.error.inj h
    exact lexical_of_literal hl
  · split at h
    · obtain rfl := Except.error.inj h
      trivial
    · exact lexical_of_symbol h

/-- A bracket that is open behind a lexeme was open before it, or stands there. -/
theorem Scanned.line_of_mem {previous : Option TokenType} {opened after : List Bracket} {line : Nat}
    {k : Token.Kind} {cs : List Char} (h : Scanned previous opened line k cs after) {b : Bracket}
    (hb : b ∈ after) : b ∈ opened ∨ b.line = line := by
  cases h with
  | literal _ _ => exact .inl hb
  | opening _ =>
    rcases List.mem_cons.1 hb with rfl | hb
    · exact .inr rfl
    · exact .inl hb
  | closing ho _ _ => exact .inl (ho ▸ List.mem_cons_of_mem _ hb)
  | operator _ => exact .inl hb

theorem not_mem_groups {separator x : Char} {p : Char → Bool} (hp : p x = false)
    (hx : x ≠ separator) (cs : List Char) : x ∉ (Literal.groups separator p cs).1 := by
  have hne {c : Char} (hc : p c = true) : x ≠ c := by
    rintro rfl
    rw [hp] at hc
    cases hc
  fun_induction Literal.groups separator p cs with
  | case1 => simp
  | case2 c cs hc taken rest hrest ih =>
    rw [hrest] at ih
    exact List.not_mem_cons_of_ne_of_not_mem (hne hc) ih
  | case3 c _ d ds hd taken rest hrest ih =>
    rw [hrest] at ih
    exact List.not_mem_cons_of_ne_of_not_mem (hd.1 ▸ hx)
      (List.not_mem_cons_of_ne_of_not_mem (hne hd.2) ih)
  | case4 => simp
  | case5 => simp

theorem newlines_of_digits {cs taken rest : List Char} (h : Literal.digits? cs = some (taken, rest)) :
    newlines taken = 0 := by
  unfold Literal.digits? at h
  extract_lets digits at h
  split at h
  · nomatch h
  · obtain ⟨rfl, -⟩ := by simpa using h
    refine List.count_eq_zero.2 fun hmem => ?_
    have hdigit := List.all_eq_true.1 List.all_takeWhile _ hmem
    exact absurd hdigit (by decide)

/-- **A bound of a range literal** is on one line. -/
theorem newlines_of_bound {cs taken rest : List Char} (h : Literal.bound? cs = some (taken, rest)) :
    newlines taken = 0 := by
  have hcons {c : Char} {more : List Char} (hc : '\n' ≠ c) (hmore : newlines more = 0) :
      newlines (c :: more) = 0 :=
    List.count_eq_zero.2
      (List.not_mem_cons_of_ne_of_not_mem hc (List.count_eq_zero.1 hmore))
  rw [Literal.bound?, Option.orElse_eq_orElse, Option.orElse_eq_or] at h
  rcases Option.or_eq_some_iff.1 h with hnumber | ⟨-, hpath⟩
  · unfold Literal.numberBound? at hnumber
    split at hnumber
    · cases hnumber
    · split at hnumber
      · next hc =>
        obtain ⟨⟨digits, _⟩, hdigits, hp⟩ := Option.map_eq_some_iff.1 hnumber
        obtain ⟨rfl, -⟩ := by simpa using hp
        exact hcons (hc ▸ by decide) (newlines_of_digits hdigits)
      · exact newlines_of_digits hnumber
  · unfold Literal.pathBound? at hpath
    split at hpath
    · cases hpath
    · next c cs =>
      split at hpath
      · next hc =>
        obtain ⟨rfl, -⟩ := by simpa using hpath
        refine hcons ?_ (List.count_eq_zero.2 (not_mem_groups (by decide) (by decide) cs))
        rintro rfl
        exact absurd hc (by decide)
      · cases hpath

/-- **The bounds of a range literal** are parts of its lines. -/
theorem bounds_inLine {cs : List Char} {r : Literal.Range} (h : Literal.range? cs = some r) :
    InLine r.lexeme r.start ∧ InLine r.lexeme r.stop := by
  simp only [Literal.range?, bind, Option.bind_eq_some_iff, Prod.exists, pure,
    Option.some.injEq] at h
  obtain ⟨a, _, start, b, hstart, c, _, stop, e, hstop, rest, _, rfl⟩ := h
  refine ⟨⟨?_, newlines_of_bound hstart⟩, ⟨?_, newlines_of_bound hstop⟩⟩
  · exact ⟨'(' :: Literal.blanks a, Literal.blanks b ++ ['.', '.'] ++ Literal.blanks c ++ stop ++
      Literal.blanks e ++ [')'], by simp⟩
  · exact ⟨'(' :: Literal.blanks a ++ start ++ Literal.blanks b ++ ['.', '.'] ++ Literal.blanks c,
      Literal.blanks e ++ [')'], by simp⟩

theorem inLine_of_literal {previous : Option TokenType} {cs : List Char} {l : Lexeme}
    {start stop : String} (h : literal? previous cs = some (.ok l)) (hk : l.kind = .range start stop) :
    InLine l.chars start.toList ∧ InLine l.chars stop.toList := by
  unfold literal? at h
  split at h
  · next r hr =>
    obtain rfl := by simpa using h
    obtain ⟨rfl, rfl⟩ := Token.Kind.range.inj hk
    rw [String.toList_ofList, String.toList_ofList]
    exact bounds_inLine hr
  · split at h
    · split at h
      · obtain rfl := by simpa using h
        nomatch hk
      · nomatch h
    · split at h
      · split at h
        · obtain rfl := by simpa using h
          nomatch hk
        · nomatch h
      · split at h
        · obtain rfl := by simpa using h
          rw [nameKind_eq] at hk
          nomatch hk
        · obtain ⟨_, _, hl⟩ := Option.map_eq_some_iff.1 h
          obtain rfl := by simpa using hl
          nomatch hk

theorem kind_of_symbol {opened after : List Bracket} {line : Nat} {c : Char} {cs : List Char}
    {l : Lexeme} (h : symbol opened line c cs = .ok (l, after)) : ∃ s, l.kind = .symbol s := by
  unfold symbol at h
  split at h
  · next s _ =>
    obtain ⟨rfl, -⟩ := by simpa using h
    exact ⟨s, rfl⟩
  · split at h
    · next s _ =>
      split at h
      · nomatch h
      · split at h
        · obtain ⟨rfl, -⟩ := by simpa using h
          exact ⟨s, rfl⟩
        · nomatch h
    · split at h
      · next s _ _ =>
        obtain ⟨rfl, -⟩ := by simpa using h
        exact ⟨s, rfl⟩
      · split at h <;> nomatch h

theorem inLine_of_scan {previous : Option TokenType} {opened after : List Bracket} {line : Nat}
    {cs : List Char} {l : Lexeme} {start stop : String}
    (h : scan previous opened line cs = .ok (l, after)) (hk : l.kind = .range start stop) :
    InLine l.chars start.toList ∧ InLine l.chars stop.toList := by
  unfold scan at h
  split at h
  · next hl =>
    obtain ⟨rfl, -⟩ := by simpa using h
    exact inLine_of_literal hl hk
  · cases h
  · split at h
    · cases h
    · obtain ⟨s, hs⟩ := kind_of_symbol h
      cases hs.symm.trans hk

end Lexeme

/-- What fails behind a part that went well fails as a whole. -/
theorem error_of_map_eq_error {α β : Type} {p : Except SyntaxError α} {f : α → β}
    (h : p.map f = .error e) : p = .error e := by
  cases p with
  | error e' =>
    obtain rfl := Except.error.inj h
    rfl
  | ok x => nomatch h

/-- **Errors of a tag**: they are found in its text, and are lexical. -/
theorem TagTokens.fails_of_error {closing : Option Closing} {previous : Option TokenType}
    {opened : List Bracket} (h : read closing previous opened c = .error e)
    (hfirst : first ≤ c.line) (hopened : ∀ b ∈ opened, first ≤ b.line ∧ b.line ≤ c.line) :
    c.Fails first e ∧ e.cause.Lexical := by
  fun_induction read closing previous opened c with
  | case1 previous opened c d hend =>
    have hd : c.Leads d := c.leads_skipBlanks
    unfold atEnd at h
    split at h
    · obtain rfl := Except.error.inj h
      obtain ⟨hb, hb'⟩ := hopened _ List.mem_cons_self
      exact ⟨⟨d, hd, Cursor.reports_open trivial hb (Nat.le_trans hb' hd.line_le)⟩, trivial⟩
    · obtain rfl := Except.error.inj h
      exact ⟨hd.fails_error _ hfirst, trivial⟩
    · cases h
  | case2 => cases h
  | case3 previous opened c d _ _ e' hnext =>
    obtain rfl := Except.error.inj h
    have hd : c.Leads d := c.leads_skipBlanks
    unfold nextToken at hnext
    split at hnext
    · next hscan =>
      obtain rfl := Except.error.inj hnext
      exact ⟨hd.fails_error _ hfirst, Lexeme.lexical_of_error hscan⟩
    · cases hnext
  | case4 previous opened c d _ _ t after c' hnext ih =>
    have herror : read closing (some t.type) after c' = .error e := error_of_map_eq_error h
    obtain ⟨l, hl, rfl, -⟩ := exists_of_nextToken hnext
    have hd : c.Leads d := c.leads_skipBlanks
    have hnextd : d.Leads (d.past l.chars l.rest) := Cursor.leads_past (Lexeme.scan_eq hl).1
    have hline := hd.line_le
    have hline' := hnextd.line_le
    obtain ⟨hfails, hlexical⟩ := ih herror (by omega) fun b hb => by
      rcases (Lexeme.scanned_of_ok hl).line_of_mem hb with hold | hnew
      · have := hopened b hold
        omega
      · have hnew : b.line = d.line := hnew
        omega
    exact ⟨(hd.trans hnextd).fails hfails, hlexical⟩

/-- **Errors of an expression that stands alone.** -/
theorem fails_of_ofExpression {text : String} {line offset : Nat}
    (h : Token.ofExpression text line offset = .error e) :
    Cursor.Fails ⟨text.toList, offset, line⟩ line e ∧ e.cause.Lexical :=
  TagTokens.fails_of_error (error_of_map_eq_error h) (Nat.le_refl _) nofun

theorem TagCourse.leads {closing : Option Closing} {previous : Option TokenType}
    {opened : List Bracket} {tag : TagTokens} (h : TagCourse closing previous opened c tag) :
    c.Leads tag.after := by
  induction h with
  | finish _ _ => exact Cursor.leads_skipBlanks _
  | close _ h => exact (Cursor.leads_skipBlanks _).trans (Cursor.leads_past h)
  | token h _ _ _ ih => exact (Cursor.leads_skipBlanks _).trans ((Cursor.leads_past h).trans ih)

/-- **Tokens of a tag** are found in its text. -/
theorem TagTokens.yields_of_ok {closing : Option Closing} {previous : Option TokenType}
    {opened : List Bracket} {tag : TagTokens} (h : read closing previous opened c = .ok tag) :
    ∀ t ∈ tag.tokens, c.Yields t := by
  fun_induction read closing previous opened c generalizing tag
  case case1 =>
    unfold atEnd at h
    split at h
    · cases h
    · cases h
    · obtain rfl := Except.ok.inj h
      simp
  case case2 c _ _ _ hclose =>
    obtain rfl := Except.ok.inj h
    unfold TagTokens.close? at hclose
    split at hclose
    · obtain ⟨⟨dashed, taken, rest⟩, hm, rfl⟩ := Option.map_eq_some_iff.1 hclose
      refine List.forall_mem_singleton.2 (c.leads_skipBlanks.yields (Closing.match?_eq hm).2 ?_)
      rintro _ _ ⟨⟩
    · cases hclose
  case case3 => cases h
  case case4 c _ _ _ t after c' hnext ih =>
    obtain ⟨rest, hrest, rfl⟩ := exists_of_map_eq_ok h
    obtain ⟨l, hl, rfl, rfl⟩ := exists_of_nextToken hnext
    have hd : c.Leads c.skipBlanks := c.leads_skipBlanks
    have htext := (Lexeme.scan_eq hl).1
    refine List.forall_mem_cons.2 ⟨.token hd htext ?_, fun u hu => ?_⟩
    · rintro text ⟨start, stop, hk, htext⟩
      obtain ⟨hstart, hstop⟩ := Lexeme.inLine_of_scan hl hk
      rcases htext with rfl | rfl
      · exact hstart
      · exact hstop
    · exact (hd.trans (Cursor.leads_past htext)).yields_of (ih hrest u hu)

theorem yields_of_ofExpression {text : String} {line offset : Nat} {tokens : List Token}
    (h : Token.ofExpression text line offset = .ok tokens) :
    ∀ t ∈ tokens, Cursor.Yields ⟨text.toList, offset, line⟩ t := by
  obtain ⟨tag, htag, rfl⟩ := exists_of_map_eq_ok h
  exact TagTokens.yields_of_ok htag

/-! ### Templates -/

variable {d : Delimiters} {after delimiter text rest : List Char}

/-- **Outcome of a tag** at the cursor `c`, whose opening delimiter ends at `inside`: a cursor behind
that and tokens before it, or an error there. -/
def TagResult.Outcome (c inside : Cursor) (first : Nat) : Except SyntaxError TagResult → Prop
  | .ok tag => inside.Leads tag.after ∧ ∀ t ∈ tag.tokens, c.Yields t
  | .error e => c.Fails first e

theorem yields_dataToken (hrest : c.rest = text ++ rest) (stripStart stripEnd : Bool) :
    ∀ t ∈ dataToken c text stripStart stripEnd, c.Yields t := by
  obtain ⟨lead, shown, trail, hstripped, htoken⟩ := dataToken_eq c text stripStart stripEnd
  have hsplit : c.rest = lead ++ (shown ++ (trail ++ rest)) := by
    rw [hrest, hstripped.text_eq]
    simp only [List.append_assoc]
  have hdata := (Cursor.leads_past hsplit).yields (k := .data (String.ofList shown)) (by rfl) nofun
  rw [Cursor.past_past] at hdata
  rw [htoken]
  split
  · exact nofun
  · exact List.forall_mem_singleton.2 hdata

theorem outcome_of_marked (opening closing : Mark) (closer : List Char)
    (hrest : c.rest = delimiter ++ after) (hfirst : first ≤ c.line) :
    TagResult.Outcome c (c.past delimiter after) first
      (readMarked opening closing closer delimiter c after) := by
  have hinside : c.Leads (c.past delimiter after) := Cursor.leads_past hrest
  have hdash : dash (optionalDash after).1 ++ (optionalDash after).2 = after :=
    (optionalDash_eq after).1
  unfold readMarked
  extract_lets inside
  split
  next dashed rest hsplit =>
    rw [hsplit] at hdash
    extract_lets start
    have hstart : inside.Leads start := by
      cases dashed with
      | true => exact Cursor.leads_past hdash.symm
      | false => exact Cursor.Leads.refl inside
    have hbegin : c.Leads start := hinside.trans hstart
    cases hread : TagTokens.read (some ⟨closer, closing⟩) (some (.mark opening)) [] start with
    | error e =>
      have hline := hbegin.line_le
      exact hbegin.fails (TagTokens.fails_of_error hread (by omega) nofun).1
    | ok tag =>
      refine ⟨hstart.trans (tagCourse_of_ok hread).leads, List.forall_mem_cons.2 ⟨?_, fun t ht => ?_⟩⟩
      · exact (Cursor.Leads.refl c).yields hrest nofun
      · exact hbegin.yields_of (TagTokens.yields_of_ok hread t ht)

theorem outcome_of_comment (hfirst : first ≤ c.line) :
    TagResult.Outcome c (c.past delimiter after) first (readComment d delimiter c after) := by
  unfold readComment
  split
  · exact (Cursor.Leads.refl c).fails_error _ hfirst
  · next inside rest hcut =>
    refine ⟨?_, nofun⟩
    rw [List.append_assoc, ← Cursor.past_past c delimiter (inside ++ _) after]
    exact Cursor.leads_past (cut?_eq hcut)

theorem consumed_append_of_suffix {cs rest : List Char} (h : rest <:+ cs) :
    cs = consumed cs rest ++ rest := by
  obtain ⟨taken, rfl⟩ := h
  rw [consumed_append]

theorem outcome_of_raw {line : Nat} {strip : Bool} {inside start : Cursor} (hinside : c.Leads inside)
    (hstart : inside.Leads start) (hfirst : first ≤ line) (hline : line ≤ c.line) :
    TagResult.Outcome c inside first (readRaw d line strip start) := by
  have hbegin : c.Leads start := hinside.trans hstart
  unfold readRaw
  split
  · exact ⟨start, hbegin, Cursor.reports_open trivial hfirst (Nat.le_trans hline hbegin.line_le)⟩
  · next found hfound =>
    obtain ⟨part, hpart, -⟩ := rawEnd?_eq hfound
    refine ⟨hstart.trans (Cursor.leads_past (consumed_append_of_suffix ⟨_, hpart.symm⟩)), ?_⟩
    rw [List.append_assoc] at hpart
    exact fun t ht => hbegin.yields_of (yields_dataToken hpart _ _ t ht)

/-- **Any tag.** -/
theorem outcome_of_tag {found : Opened} (hrest : c.rest = found.delimiter ++ found.after)
    (hfirst : first ≤ c.line) :
    TagResult.Outcome c (c.past found.delimiter found.after) first (readTag d found c) := by
  unfold readTag
  split
  · exact outcome_of_comment hfirst
  · unfold readBlock
    split
    · next strip rest hraw =>
      obtain ⟨-, before, behind, -, -, hafter⟩ := rawTag?_eq hraw
      have hstart := Cursor.leads_past (c := c.past found.delimiter found.after)
        (consumed_append_of_suffix ⟨_, hafter.symm⟩)
      exact outcome_of_raw (Cursor.leads_past hrest) hstart hfirst (Nat.le_refl _)
    · have hmarked := outcome_of_marked .blockBegin .blockEnd d.blockEnd.toList hrest hfirst
      cases hread : readMarked .blockBegin .blockEnd d.blockEnd.toList found.delimiter c found.after with
      | error e =>
        rw [hread] at hmarked
        exact hmarked
      | ok tag =>
        rw [hread] at hmarked
        show TagResult.Outcome c _ first (.ok (if d.trimBlocks && !tag.strip then _ else tag))
        split
        · exact ⟨hmarked.1.trans tag.after.leads_skipNewline, hmarked.2⟩
        · exact hmarked
  · exact outcome_of_marked _ _ _ hrest hfirst

/-- The cursor behind an opening delimiter. -/
def Opened.inside (found : Opened) (c : Cursor) : Cursor :=
  c.past (found.before ++ found.delimiter) found.after

theorem leads_inside {found : Opened} (hfound : findOpening? d.openings c.rest = some found) :
    c.Leads (found.inside c) :=
  Cursor.leads_past ((findOpening?_eq hfound).1.trans (List.append_assoc ..).symm)

/-- **The tag at the first opening delimiter.** -/
theorem outcome_of_opening {found : Opened} (hfound : findOpening? d.openings c.rest = some found)
    (hfirst : first ≤ c.line) : TagResult.Outcome c (found.inside c) first
      (readTag d found (c.past found.before (found.delimiter ++ found.after))) := by
  have hstart := Cursor.leads_past (findOpening?_eq hfound).1
  have htag : TagResult.Outcome _ _ first
      (readTag d found (c.past found.before (found.delimiter ++ found.after))) :=
    outcome_of_tag rfl (Nat.le_trans hfirst hstart.line_le)
  cases hread : readTag d found (c.past found.before (found.delimiter ++ found.after)) with
  | error e =>
    rw [hread] at htag
    exact hstart.fails htag
  | ok tag =>
    rw [hread, Cursor.past_past] at htag
    exact ⟨htag.1, fun t ht => hstart.yields_of (htag.2 t ht)⟩

/-- **Outcome of a text with tags.** -/
def Token.Outcome (c : Cursor) (first : Nat) : Except SyntaxError (List Token) → Prop
  | .ok tokens => ∀ t ∈ tokens, c.Yields t
  | .error e => c.Fails first e

theorem outcome_of_template (d : Delimiters) (strip : Bool) (hfirst : first ≤ c.line) :
    Token.Outcome c first (templateTokens d strip c) := by
  have hend (c : Cursor) : c.Yields c.endToken := by
    have hrest : c.rest = [] ++ c.rest := rfl
    exact (Cursor.Leads.refl c).yields hrest nofun
  fun_induction templateTokens d strip c with
  | case1 => exact List.forall_mem_singleton.2 (hend _)
  | case2 _ c =>
    have hrest : c.rest = c.rest ++ [] := (List.append_nil _).symm
    exact List.forall_mem_append.2 ⟨yields_dataToken hrest _ _,
      List.forall_mem_singleton.2 ((Cursor.leads_past hrest).yields_of (hend _))⟩
  | case3 _ _ _ _ hfound _ _ hread =>
    have houtcome := outcome_of_opening hfound hfirst
    rw [hread] at houtcome
    exact houtcome
  | case4 _ c _ found hfound data _ tag hread _ ih =>
    obtain ⟨hbehind, htokens⟩ : TagResult.Outcome c (found.inside c) first (.ok tag) :=
      hread ▸ outcome_of_opening hfound hfirst
    have hleads : c.Leads tag.after := (leads_inside hfound).trans hbehind
    have hdata : ∀ t ∈ data, c.Yields t := yields_dataToken (findOpening?_eq hfound).1 _ _
    have hnext := ih (Nat.le_trans hfirst hleads.line_le)
    cases hmore : templateTokens d tag.strip tag.after with
    | error e =>
      rw [hmore] at hnext
      exact hleads.fails hnext
    | ok ts =>
      rw [hmore] at hnext
      refine List.forall_mem_append.2 ⟨List.forall_mem_append.2 ⟨hdata, htokens⟩, fun t ht => ?_⟩
      exact hleads.yields_of (hnext t ht)
  | case5 _ _ _ _ hfound _ _ hread _ =>
    have houtcome := outcome_of_opening hfound hfirst
    rw [hread] at houtcome
    exact ((leads_inside hfound).trans houtcome.1).fails_error _ hfirst

/-- **Errors of a text with tags.** -/
theorem fails_of_templateTokens {strip : Bool} (h : templateTokens d strip c = .error e)
    (hfirst : first ≤ c.line) : c.Fails first e := by
  have houtcome := outcome_of_template d strip hfirst
  rwa [h] at houtcome

/-- **Tokens of a text with tags.** -/
theorem yields_of_templateTokens {strip : Bool} {tokens : List Token}
    (h : templateTokens d strip c = .ok tokens) : ∀ t ∈ tokens, c.Yields t := by
  have houtcome := outcome_of_template d strip (Nat.le_refl c.line)
  rwa [h] at houtcome

end LiquidTemplate
