import LiquidTemplate.Proofs.Exchange.Edges
import LiquidTemplate.Proofs.Lines

/-!
# Streams with another end

The tokens of an expression can stand before different ends: the end of a tag, that of the template,
a comma, a name. Two parsers that go through the same tokens before such ends go abreast, and what the
first of them makes of the tokens, the second one makes of them too. Only the end of a tag ends arguments
behind a colon and a list behind its last comma, and only a name is taken for the argument of a test:
such tokens show the exchange of the end. Trees and tokens are compared with or without their lines.

* `Token.seen`, `Expr.seen`: what is looked at.
* `hasColonFilter`: tokens among which there is a filter with arguments behind a colon.
* `hasBareTest`: tokens at whose end there is a test without arguments.
* `Exchange`: an end of the tokens that is exchanged for another one.
* `Exchange.Abreast`: two states before the old and the new end.
* `Parser.Sim`: a success of the first parser is one of the second parser.
* `Sim.bind`, `Sim.loop`, `sim_leftChain`: parts, repetitions and chains.
-/

namespace LiquidTemplate

open LiquidTemplate.Parser LiquidTemplate.Grammar

variable {α β : Type} {lines : Bool}

/-! ### What is seen -/

/-- **What is seen of a line**: nothing, unless lines are looked at. -/
def seenLine (lines : Bool) (line : Nat) : Nat :=
  if lines then line else 0

/-- **What is seen of a token**: its kind and its line. -/
def Token.seen (lines : Bool) (t : Token) : Token.Kind × Nat :=
  (t.kind, seenLine lines t.line)

/-- **What is seen of an expression.** -/
def Expr.seen (lines : Bool) (e : Expr) : Expr :=
  if lines then e else e.withoutLines

/-- **What is seen of arguments.** -/
def Arguments.seen (lines : Bool) (a : Arguments Expr) : Arguments Expr :=
  ⟨a.positional.map (Expr.seen lines),
    a.keywords.map fun k => ⟨k.key, k.value.seen lines, seenLine lines k.line⟩,
    a.spread.map (Expr.seen lines), a.spreadKeywords.map (Expr.seen lines)⟩

namespace Expr

theorem seen_true : seen true = id :=
  rfl

theorem seen_false : seen false = withoutLines :=
  rfl

/-- Lines are seen together with their nodes. -/
theorem seenLine_line {e e' : Expr} (h : e.seen lines = e'.seen lines) :
    seenLine lines e.line = seenLine lines e'.line := by
  cases lines with
  | true => exact congrArg Expr.line h
  | false => rfl

/-! #### Nodes of each form -/

section Nodes

variable (line : Nat)

theorem seen_const (value : Constant) :
    (const value line).seen lines = const value (seenLine lines line) := by
  cases lines <;> rfl

theorem seen_name (n : String) (context : Context) :
    (name n context line).seen lines = name n context (seenLine lines line) := by
  cases lines <;> rfl

theorem seen_tuple (items : List Expr) (context : Context) : (tuple items context line).seen lines =
    tuple (items.map (seen lines)) context (seenLine lines line) := by
  cases lines <;> simp [seen_true, seen_false, withoutLines, seenLine]

theorem seen_list (items : List Expr) : (list items line).seen lines =
    list (items.map (seen lines)) (seenLine lines line) := by
  cases lines <;> simp [seen_true, seen_false, withoutLines, seenLine]

theorem seen_dict (entries : List (Entry Expr)) : (dict entries line).seen lines =
    dict (entries.map fun e => ⟨e.key.seen lines, e.value.seen lines, seenLine lines e.line⟩)
      (seenLine lines line) := by
  cases lines <;> simp [seen_true, seen_false, withoutLines, seenLine]

theorem seen_member (node : Expr) (attr : String) :
    (member node attr line).seen lines = member (node.seen lines) attr (seenLine lines line) := by
  cases lines <;> rfl

theorem seen_item (node arg : Expr) : (item node arg line).seen lines =
    item (node.seen lines) (arg.seen lines) (seenLine lines line) := by
  cases lines <;> rfl

theorem seen_slice (start stop step : Option Expr) : (slice start stop step line).seen lines =
    slice (start.map (seen lines)) (stop.map (seen lines)) (step.map (seen lines))
      (seenLine lines line) := by
  cases lines <;> simp [seen_true, seen_false, withoutLines, seenLine]

theorem seen_call (node : Expr) (args : Arguments Expr) : (call node args line).seen lines =
    call (node.seen lines) (args.seen lines) (seenLine lines line) := by
  cases lines <;> simp [seen_true, seen_false, withoutLines, seenLine, Arguments.seen]

theorem seen_filter (node : Option Expr) (n : String) (args : Arguments Expr) :
    (filter node n args line).seen lines =
      filter (node.map (seen lines)) n (args.seen lines) (seenLine lines line) := by
  cases lines <;> simp [seen_true, seen_false, withoutLines, seenLine, Arguments.seen]

theorem seen_test (node : Expr) (n : String) (args : Arguments Expr) :
    (test node n args line).seen lines =
      test (node.seen lines) n (args.seen lines) (seenLine lines line) := by
  cases lines <;> simp [seen_true, seen_false, withoutLines, seenLine, Arguments.seen]

theorem seen_conditional (cond yes : Expr) (no : Option Expr) :
    (conditional cond yes no line).seen lines =
      conditional (cond.seen lines) (yes.seen lines) (no.map (seen lines))
        (seenLine lines line) := by
  cases lines <;> simp [seen_true, seen_false, withoutLines, seenLine]

theorem seen_and (left right : Expr) : (and left right line).seen lines =
    and (left.seen lines) (right.seen lines) (seenLine lines line) := by
  cases lines <;> rfl

theorem seen_or (left right : Expr) : (or left right line).seen lines =
    or (left.seen lines) (right.seen lines) (seenLine lines line) := by
  cases lines <;> rfl

theorem seen_not (node : Expr) :
    (not node line).seen lines = not (node.seen lines) (seenLine lines line) := by
  cases lines <;> rfl

theorem seen_neg (node : Expr) :
    (neg node line).seen lines = neg (node.seen lines) (seenLine lines line) := by
  cases lines <;> rfl

theorem seen_pos (node : Expr) :
    (pos node line).seen lines = pos (node.seen lines) (seenLine lines line) := by
  cases lines <;> rfl

theorem seen_binary (op : BinaryOp) (left right : Expr) : (binary op left right line).seen lines =
    binary op (left.seen lines) (right.seen lines) (seenLine lines line) := by
  cases lines <;> rfl

theorem seen_concat (nodes : List Expr) : (concat nodes line).seen lines =
    concat (nodes.map (seen lines)) (seenLine lines line) := by
  cases lines <;> simp [seen_true, seen_false, withoutLines, seenLine]

theorem seen_compare (e : Expr) (operands : List (Operand Expr)) :
    (compare e operands line).seen lines =
      compare (e.seen lines) (operands.map fun o => ⟨o.op, o.expr.seen lines⟩)
        (seenLine lines line) := by
  cases lines <;> simp [seen_true, seen_false, withoutLines, seenLine]

end Nodes

end Expr

/-! ### Exchanged ends -/

namespace Token

/-- Whether a token is the end of a tag. -/
def EndsTag (t : Token) : Prop :=
  t.isMark .variableEnd = true ∨ t.isMark .blockEnd = true

/-- The names with which an expression can go on. -/
def operatorNames : List String :=
  ["if", "else", "or", "and", "not", "in", "is"]

/-- **Ends of an expression** that are exchanged: marks, commas, closing parentheses and other names. -/
def Stops (t : Token) : Prop :=
  t.IsMark ∨ t.kind = .symbol .comma ∨ t.kind = .symbol .rParen ∨
    ∃ n, t.kind = .name n ∧ n ∉ operatorNames

theorem IsMark.stops {t : Token} (h : t.IsMark) : t.Stops :=
  .inl h

theorem IsMark.name?_eq_none {t : Token} (h : t.IsMark) : t.name? = none := by
  obtain ⟨m, hm⟩ := h
  rw [name?, hm]

theorem isMark_of_isMark {t : Token} {m : Mark} (h : t.isMark m = true) : t.IsMark :=
  ⟨m, isMark_iff.1 h⟩

/-- Tokens of the same kind fit the same rules. -/
theorem fits_congr {t t' : Token} (h : t.kind = t'.kind) (rule : TokenRule) :
    t.fits rule = t'.fits rule := by
  rw [fits_eq, fits_eq, h]

end Token

namespace TokenRule

/-- Rules that no mark fits. -/
def NoMark (rule : TokenRule) : Prop :=
  ∀ t : Token, t.IsMark → t.fits rule = false

/-- Rules that no end of an expression fits. -/
def NoStop (rule : TokenRule) : Prop :=
  ∀ t : Token, t.Stops → t.fits rule = false

theorem noMark_symbol (x : Symbol) : NoMark (.type (.symbol x)) :=
  fun _ h => h.not_symbol x

theorem noMark_name (word : String) : NoMark (.name word) :=
  fun _ h => h.not_name word

theorem NoStop.noMark {rule : TokenRule} (h : rule.NoStop) : rule.NoMark :=
  fun t ht => h t ht.stops

theorem noStop_symbol {x : Symbol} (hcomma : x ≠ .comma) (hparen : x ≠ .rParen) :
    NoStop (.type (.symbol x)) := by
  intro t h
  rcases h with h | h | h | ⟨n, h, -⟩
  · exact h.not_symbol x
  · rw [Token.fits_eq, h]
    simpa [Token.Kind.fits, Token.Kind.type] using hcomma.symm
  · rw [Token.fits_eq, h]
    simpa [Token.Kind.fits, Token.Kind.type] using hparen.symm
  · rw [Token.fits_eq, h]
    rfl

theorem noStop_name (word : String) (hword : word ∈ Token.operatorNames) : NoStop (.name word) := by
  intro t h
  rcases h with h | h | h | ⟨n, h, hn⟩
  · exact h.not_name word
  · rw [Token.fits_eq, h]
    rfl
  · rw [Token.fits_eq, h]
    rfl
  · rw [Token.fits_eq, h]
    refine beq_eq_false_iff_ne.2 ?_
    rintro rfl
    exact hn hword

/-- Only names fit the rule for any name. -/
theorem exists_of_anyName {t : Token} (h : t.fits (.type .name) = true) : ∃ n, t.kind = .name n := by
  rw [Token.fits_eq] at h
  cases hk : t.kind with
  | name n => exact ⟨n, rfl⟩
  | _ =>
    rw [hk] at h
    nomatch h

theorem noMark_anyName : NoMark (.type .name) := by
  intro t h
  obtain ⟨m, hm⟩ := h
  rw [Token.fits_eq, hm]
  rfl

end TokenRule

/-- What is ahead at a token that is not the end of the template. -/
theorem ParserState.ahead_of_kind {s : ParserState} {k : Token.Kind}
    (hk : s.stream.current.kind = k) (hend : k.type ≠ .mark .endOfTemplate) :
    s.ahead = k :: s.stepped.ahead := by
  have hahead : s.ahead = k :: s.stream.later.map Token.kind := by
    rw [← hk]
    rfl
  rw [hahead, s.ahead_stepped hahead hend]

/-! #### Filters with a colon -/

/-- **A colon behind the parts of a name**, of which there can be more behind dots. -/
def colonBehind : List Token.Kind → Bool
  | .symbol .colon :: _ => true
  | .symbol .dot :: .name _ :: ks => colonBehind ks
  | _ => false

/-- **A filter with a colon**, at the beginning of tokens. -/
def colonFilter : List Token.Kind → Bool
  | .symbol .pipe :: .name _ :: ks => colonBehind ks
  | _ => false

/-- Whether there is a filter with a colon anywhere. -/
def hasColonFilter : List Token.Kind → Bool
  | [] => false
  | k :: ks => colonFilter (k :: ks) || hasColonFilter ks

/-- Two kinds before a mark stand before it, if neither of them is a mark. -/
theorem exists_of_append_mark {ks more rest : List Token.Kind} {k l : Token.Kind} {m : Mark}
    (h : ks ++ .mark m :: more = k :: l :: rest) (hk : k ≠ .mark m) (hl : l ≠ .mark m) :
    ∃ rest, ks = k :: l :: rest := by
  match ks, h with
  | [], h => exact absurd (List.cons.inj h).1.symm hk
  | [_], h => exact absurd (List.cons.inj (List.cons.inj h).2).1.symm hl
  | _ :: _ :: ks, h =>
    obtain ⟨hk, h⟩ := List.cons.inj h
    obtain ⟨hl, -⟩ := List.cons.inj h
    exact ⟨ks, by rw [hk, hl]⟩

/-- No mark belongs to a filter with a colon. -/
theorem colonBehind_append (ks : List Token.Kind) (m : Mark) (more : List Token.Kind) :
    colonBehind (ks ++ .mark m :: more) = colonBehind ks := by
  fun_induction colonBehind ks
  case case1 => rfl
  case case2 ih => exact ih
  case case3 ks hcolon hdot =>
    unfold colonBehind
    split
    · next rest h =>
      cases ks with
      | nil => nomatch (List.cons.inj h).1
      | cons k ks => exact absurd (by rw [(List.cons.inj h).1]) (hcolon ks)
    · next n rest h =>
      obtain ⟨rest, hks⟩ := exists_of_append_mark h nofun nofun
      exact absurd hks (hdot n rest)
    · rfl

theorem colonFilter_append (ks : List Token.Kind) (m : Mark) (more : List Token.Kind) :
    colonFilter (ks ++ .mark m :: more) = colonFilter ks := by
  have hno (ls : List Token.Kind) (h : ∀ n rest, ls ≠ .symbol .pipe :: .name n :: rest) :
      colonFilter ls = false := by
    unfold colonFilter
    split
    · exact absurd rfl (h _ _)
    · rfl
  by_cases h : ∃ n rest, ks = .symbol .pipe :: .name n :: rest
  · obtain ⟨n, rest, rfl⟩ := h
    exact colonBehind_append rest m more
  · rw [hno ks fun n rest hks => h ⟨n, rest, hks⟩, hno]
    intro n rest hks
    obtain ⟨rest, hks⟩ := exists_of_append_mark hks nofun nofun
    exact h ⟨n, rest, hks⟩

/-! #### Tests without arguments -/

/-- **The end behind the parts of a name**, of which there can be more behind dots: that of the tokens,
or a mark. -/
def endBehind : List Token.Kind → Bool
  | [] => true
  | .mark _ :: _ => true
  | .symbol .dot :: .name _ :: ks => endBehind ks
  | _ => false

/-- A name, maybe with dots, and nothing behind it. -/
def nameAtEnd : List Token.Kind → Bool
  | .name _ :: ks => endBehind ks
  | _ => false

/-- The tokens behind the `not` of a test. -/
def behindNot : List Token.Kind → List Token.Kind
  | .name "not" :: ks => ks
  | ks => ks

/-- **A test without arguments**, behind which nothing stands. -/
def bareTest : List Token.Kind → Bool
  | .name "is" :: ks => nameAtEnd (behindNot ks)
  | _ => false

/-- Whether tokens end with a test without arguments. -/
def hasBareTest : List Token.Kind → Bool
  | [] => false
  | k :: ks => bareTest (k :: ks) || hasBareTest ks

/-- No mark belongs to the name of a test. -/
theorem endBehind_append (ks : List Token.Kind) (m : Mark) (more : List Token.Kind) :
    endBehind (ks ++ .mark m :: more) = endBehind ks := by
  fun_induction endBehind ks
  case case1 => rfl
  case case2 => rfl
  case case3 ih => exact ih
  case case4 ks hnil hmark hdot =>
    unfold endBehind
    split
    · next h => exact absurd h (List.append_ne_nil_of_right_ne_nil _ (List.cons_ne_nil _ _))
    · next h =>
      cases ks with
      | nil => exact absurd rfl hnil
      | cons k ks => exact absurd (by rw [(List.cons.inj h).1]) (hmark _ ks)
    · next n rest h =>
      obtain ⟨rest, hks⟩ := exists_of_append_mark h nofun nofun
      exact absurd hks (hdot n rest)
    · rfl

theorem nameAtEnd_append (ks : List Token.Kind) (m : Mark) (more : List Token.Kind) :
    nameAtEnd (ks ++ .mark m :: more) = nameAtEnd ks := by
  cases ks with
  | nil => rfl
  | cons k ks =>
    cases k with
    | name n => exact endBehind_append ks m more
    | _ => rfl

theorem behindNot_of_name (ks : List Token.Kind) : behindNot (.name "not" :: ks) = ks :=
  rfl

theorem behindNot_of_ne {k : Token.Kind} (ks : List Token.Kind) (h : k ≠ .name "not") :
    behindNot (k :: ks) = k :: ks := by
  unfold behindNot
  split
  · next heq => exact absurd (List.cons.inj heq).1 h
  · rfl

theorem bareTest_append (ks : List Token.Kind) (m : Mark) (more : List Token.Kind) :
    bareTest (ks ++ .mark m :: more) = bareTest ks := by
  have hnot (ks : List Token.Kind) :
      behindNot (ks ++ .mark m :: more) = behindNot ks ++ .mark m :: more := by
    cases ks with
    | nil => rfl
    | cons k ks =>
      by_cases hk : k = .name "not"
      · rw [hk, List.cons_append, behindNot_of_name, behindNot_of_name]
      · rw [List.cons_append, behindNot_of_ne _ hk, behindNot_of_ne _ hk, List.cons_append]
  cases ks with
  | nil => rfl
  | cons k ks =>
    by_cases hk : k = .name "is"
    · rw [hk, List.cons_append, bareTest, bareTest, hnot, nameAtEnd_append]
    · have hno (ls : List Token.Kind) : bareTest (k :: ls) = false := by
        unfold bareTest
        split
        · next h => exact absurd (List.cons.inj h).1 hk
        · rfl
      rw [List.cons_append, hno, hno]

/-- **Exchange** of the end of an expression, a mark, for another one. Behind the ends stands
anything. -/
structure Exchange where
  /-- Whether lines are looked at. -/
  lines : Bool
  old : Token
  oldRest : List Token
  new : Token
  newRest : List Token
  isMark : old.IsMark
  stops : new.Stops
  line_eq : seenLine lines old.line = seenLine lines new.line

namespace Exchange

variable {x : Exchange} {w : Nat} {s s' t t' : ParserState}

/-- **The same expression**, as far as it is looked at. -/
def Same (x : Exchange) (e e' : Expr) : Prop :=
  e.seen x.lines = e'.seen x.lines

theorem Same.seen {e e' : Expr} (h : x.Same e e') : e.seen x.lines = e'.seen x.lines :=
  h

/-- Whether the new end is that of a tag if the old one is. -/
def Settled (x : Exchange) : Prop :=
  x.old.EndsTag → x.new.EndsTag

/-- **Tokens that do not show the exchange.** The end of a tag also ends the arguments of a filter
behind a colon, and a list behind its last comma. A name is the argument of a test before it that has
no others. -/
structure Spares (x : Exchange) (ts : List Token) : Prop where
  tag : x.Settled ∨ hasColonFilter (ts.map Token.kind) = false ∧
    ∀ t ∈ ts.getLast?, t.kind ≠ .symbol .comma
  test : x.new.name? = none ∨ hasBareTest (ts.map Token.kind) = false

theorem Spares.tail {t : Token} {ts : List Token} (h : x.Spares (t :: ts)) : x.Spares ts := by
  constructor
  · rcases h.tag with h | ⟨hfilter, hcomma⟩
    · exact .inl h
    · rw [List.map_cons, hasColonFilter, Bool.or_eq_false_iff] at hfilter
      refine .inr ⟨hfilter.2, fun u hu => hcomma u ?_⟩
      rw [List.getLast?_cons, Option.mem_def.1 hu]
      rfl
  · rcases h.test with h | htest
    · exact .inl h
    · rw [List.map_cons, hasBareTest, Bool.or_eq_false_iff] at htest
      exact .inr htest.2

/-- **Abreast**: the same tokens are left before the old and the new end, they weigh at most `w` and
do not show the exchange. -/
def Abreast (x : Exchange) (w : Nat) (s s' : ParserState) : Prop :=
  ∃ ts ts', s.stream.tokens = ts ++ x.old :: x.oldRest ∧
    s'.stream.tokens = ts' ++ x.new :: x.newRest ∧
    ts.map (Token.seen x.lines) = ts'.map (Token.seen x.lines) ∧
    weightOf (ts.map Token.kind) ≤ w ∧ x.Spares ts

/-- **Before the ends**: the current tokens look the same, and a step keeps the states abreast. -/
structure Inside (x : Exchange) (w : Nat) (s s' : ParserState) : Prop where
  seen : s.stream.current.seen x.lines = s'.stream.current.seen x.lines
  weight_le : s.stream.current.weight ≤ w
  next : x.Abreast w s.stepped s'.stepped
  filter : colonFilter s.ahead = true → x.Settled
  test : bareTest s.ahead = true → x.new.name? = none
  comma : s.stream.current.kind = .symbol .comma →
    isTupleEnd [] s.stepped.stream.current = true → isTupleEnd [] s'.stepped.stream.current = true

theorem Inside.kind (h : x.Inside w s s') : s.stream.current.kind = s'.stream.current.kind :=
  (Prod.mk.inj h.seen).1

theorem isTupleEnd_congr {t t' : Token} (h : t.kind = t'.kind) :
    isTupleEnd [] t = isTupleEnd [] t' := by
  unfold isTupleEnd
  simp only [Token.isMark, Token.isSymbol, Token.type, h, Token.fitsAny, List.any_nil]

/-- What is left behind a token that is not the last one. -/
theorem tokens_stepped {t : Token} {ts : List Token} (h : s.stream.tokens = t :: ts) (hne : ts ≠ []) :
    s.stepped.stream.tokens = ts := by
  have hlater : s.stream.later = ts := (List.cons.inj h).2
  show s.stream.next.tokens = ts
  rw [TokenStream.tokens_next, if_neg (hlater ▸ hne), hlater]

theorem current_of_tokens {t : Token} {ts : List Token} (h : s.stream.tokens = t :: ts) :
    s.stream.current = t :=
  (List.cons.inj h).1

/-- **States abreast** are at the ends, or before them. -/
theorem Abreast.inside_or (h : x.Abreast w s s') :
    x.Inside w s s' ∨ s.stream.current = x.old ∧ s'.stream.current = x.new := by
  obtain ⟨ts, ts', hs, hs', hseen, hw, hspares⟩ := h
  cases ts with
  | nil =>
    obtain rfl := List.map_eq_nil_iff.1 hseen.symm
    exact .inr ⟨current_of_tokens hs, current_of_tokens hs'⟩
  | cons c ts =>
    obtain ⟨c', ts', rfl, hc, hts⟩ := List.map_eq_cons_iff.1 hseen.symm
    have hcur := current_of_tokens hs
    have hnext : s.stepped.stream.tokens = ts ++ x.old :: x.oldRest :=
      tokens_stepped hs (by simp)
    have hnext' : s'.stepped.stream.tokens = ts' ++ x.new :: x.newRest :=
      tokens_stepped hs' (by simp)
    have hweight : c.weight + weightOf (ts.map Token.kind) ≤ w := by
      rw [Token.weight_eq]
      exact hw
    have hahead : ∃ m, s.ahead =
        (c.kind :: ts.map Token.kind) ++ .mark m :: x.oldRest.map Token.kind := by
      obtain ⟨m, hm⟩ := x.isMark
      exact ⟨m, by simp [ParserState.ahead, hs, hm]⟩
    obtain ⟨m, hahead⟩ := hahead
    refine .inl ⟨?_, ?_, ?_, ?_, ?_, ?_⟩
    · rw [hcur, current_of_tokens hs']
      exact hc.symm
    · rw [hcur]
      omega
    · exact ⟨ts, ts', hnext, hnext', hts.symm, by omega, hspares.tail⟩
    · intro hfilter
      rcases hspares.tag with hsettled | ⟨hno, -⟩
      · exact hsettled
      · rw [List.map_cons, hasColonFilter, Bool.or_eq_false_iff] at hno
        rw [hahead, colonFilter_append, hno.1] at hfilter
        cases hfilter
    · intro htest
      rcases hspares.test with hname | hno
      · exact hname
      · rw [List.map_cons, hasBareTest, Bool.or_eq_false_iff] at hno
        rw [hahead, bareTest_append, hno.1] at htest
        cases htest
    · intro hcomma hend
      cases ts with
      | nil =>
        obtain rfl := List.map_eq_nil_iff.1 hts
        rw [current_of_tokens hnext] at hend
        rw [current_of_tokens hnext']
        have hold : x.old.EndsTag := by
          simp only [isTupleEnd, x.isMark.not_symbol, Token.fitsAny, List.any_nil, Bool.or_false,
            Bool.or_eq_true] at hend
          exact hend
        rcases hspares.tag with hsettled | hspares
        · rcases hsettled hold with hnew | hnew <;> simp [isTupleEnd, hnew]
        · exact absurd (hcur ▸ hcomma) (hspares.2 c rfl)
      | cons d ts =>
        obtain ⟨d', ts', rfl, hd, -⟩ := List.map_eq_cons_iff.1 hts
        rw [current_of_tokens hnext] at hend
        rw [current_of_tokens hnext', ← hend]
        exact isTupleEnd_congr (Prod.mk.inj hd).1

/-- The lines of the current tokens look the same. -/
theorem Abreast.line (h : x.Abreast w s s') :
    seenLine x.lines s.stream.current.line = seenLine x.lines s'.stream.current.line := by
  rcases h.inside_or with h | ⟨hs, hs'⟩
  · exact (Prod.mk.inj h.seen).2
  · rw [hs, hs']
    exact x.line_eq

/-- A token that fits a rule stands before the ends. -/
theorem Abreast.inside (h : x.Abreast w s s') {rule : TokenRule} (hrule : rule.NoMark)
    (hfits : s.stream.current.fits rule = true) : x.Inside w s s' := by
  rcases h.inside_or with h | ⟨hs, -⟩
  · exact h
  · rw [hs, hrule x.old x.isMark] at hfits
    nomatch hfits

/-- The current tokens fit the same rules. -/
theorem Abreast.fits (h : x.Abreast w s s') {rule : TokenRule} (hrule : rule.NoStop) :
    s.stream.current.fits rule = s'.stream.current.fits rule := by
  rcases h.inside_or with h | ⟨hs, hs'⟩
  · exact Token.fits_congr h.kind rule
  · rw [hs, hs', hrule x.old x.isMark.stops, hrule x.new x.stops]

theorem Abreast.symbol (h : x.Abreast w s s') (y : Symbol) (hcomma : y ≠ .comma)
    (hparen : y ≠ .rParen) :
    s.stream.current.isSymbol y = s'.stream.current.isSymbol y :=
  h.fits (TokenRule.noStop_symbol hcomma hparen)

theorem Abreast.name (h : x.Abreast w s s') (word : String) (hword : word ∈ Token.operatorNames) :
    s.stream.current.isName word = s'.stream.current.isName word :=
  h.fits (TokenRule.noStop_name word hword)

/-- What is left shrinks on both sides. -/
theorem Abreast.remaining_lt (h : x.Abreast w s s') (ht : x.Abreast w t t')
    (hlt : t.remaining < s.remaining) : t'.remaining < s'.remaining := by
  obtain ⟨ts, ts', hs, hs', hseen, -⟩ := h
  obtain ⟨us, us', hu, hu', hseen', -⟩ := ht
  have hlength := congrArg List.length hseen
  have hlength' := congrArg List.length hseen'
  simp only [ParserState.remaining, hs, hs', hu, hu', List.length_append, List.length_cons,
    List.length_map] at hlt hlength hlength' ⊢
  omega

end Exchange

/-! ### Parsers abreast -/

namespace Parser

variable {x : Exchange} {w : Nat} {s s' : ParserState}

/-- **Simulation.** Where the first parser succeeds, the second one does, with related results, and
the states are abreast again. -/
def Sim (x : Exchange) (w : Nat) (p p' : Parser α) (rel : α → α → Prop) (s s' : ParserState) :
    Prop :=
  ∀ y t, p s = .ok y t → ∃ y' t', p' s' = .ok y' t' ∧ rel y y' ∧ x.Abreast w t t'

variable {p p' : Parser α} {rel : α → α → Prop} {rel' : β → β → Prop}

theorem Sim.pure {y y' : α} (h : x.Abreast w s s') (hy : rel y y') :
    Sim x w (Pure.pure y) (Pure.pure y') rel s s' := by
  intro z t hz
  obtain ⟨rfl, rfl⟩ := EStateM.Result.ok.inj hz
  exact ⟨y', s', rfl, hy, h⟩

/-- A parser that does not succeed. -/
theorem Sim.stuck (h : Stuck p s) : Sim x w p p' rel s s' :=
  fun y t hy => absurd hy (h y t)

/-- **One part after another.** -/
theorem Sim.bind {f f' : α → Parser β} (hp : Sim x w p p' rel s s')
    (hf : ∀ y y' t t', rel y y' → x.Abreast w t t' → Sim x w (f y) (f' y') rel' t t') :
    Sim x w (p >>= f) (p' >>= f') rel' s s' := by
  intro z u hz
  obtain ⟨y, t, hy, hz⟩ := bind_eq_ok.1 hz
  obtain ⟨y', t', hy', hrel, ht⟩ := hp y t hy
  obtain ⟨z', u', hz', hrel', hu⟩ := hf y y' t t' hrel ht z u hz
  exact ⟨z', u', bind_eq_ok.2 ⟨y', t', hy', hz'⟩, hrel', hu⟩

theorem Sim.ite {b b' : Prop} [Decidable b] [Decidable b'] {q q' : Parser α} (hb : b ↔ b')
    (hp : b → Sim x w p p' rel s s') (hq : ¬ b → Sim x w q q' rel s s') :
    Sim x w (if b then p else q) (if b' then p' else q') rel s s' := by
  by_cases h : b
  · rw [if_pos h, if_pos (hb.1 h)]
    exact hp h
  · rw [if_neg h, if_neg (mt hb.2 h)]
    exact hq h

/-! #### Single tokens -/

section Behind

variable {f f' : Token → Parser β}

/-- What is done with the current token. -/
theorem Sim.see (h : Sim x w (f s.stream.current) (f' s'.stream.current) rel' s s') :
    Sim x w (current >>= f) (current >>= f') rel' s s' :=
  h

/-- What is done with the token after the current one. -/
theorem Sim.peek (h : Sim x w (f s.stream.look) (f' s'.stream.look) rel' s s') :
    Sim x w (look >>= f) (look >>= f') rel' s s' :=
  h

/-- What is done behind the current token. -/
theorem Sim.drop {f f' : Unit → Parser β}
    (h : Sim x w (f ()) (f' ()) rel' s.stepped s'.stepped) :
    Sim x w (step >>= f) (step >>= f') rel' s s' :=
  h

/-- What is done behind two tokens. -/
theorem Sim.skipTwo {f f' : Unit → Parser β}
    (h : Sim x w (f ()) (f' ()) rel' s.stepped.stepped s'.stepped.stepped) :
    Sim x w (skip 2 >>= f) (skip 2 >>= f') rel' s s' :=
  h

/-- What is done behind the current token with it. -/
theorem Sim.take
    (h : Sim x w (f s.stream.current) (f' s'.stream.current) rel' s.stepped s'.stepped) :
    Sim x w (advance >>= f) (advance >>= f') rel' s s' :=
  h

/-- What is done behind a token that is demanded. -/
theorem Sim.demand {rule : TokenRule} (h : x.Abreast w s s') (hrule : rule.NoMark)
    (hf : x.Inside w s s' → s.stream.current.fits rule = true →
      Sim x w (f s.stream.current) (f' s'.stream.current) rel' s.stepped s'.stepped) :
    Sim x w (expect rule >>= f) (expect rule >>= f') rel' s s' := by
  intro z u hz
  obtain ⟨tok, t, ht, hz⟩ := bind_eq_ok.1 hz
  obtain ⟨hfits, rfl, rfl⟩ := expect_eq_ok.1 ht
  have hin := h.inside hrule hfits
  obtain ⟨z', u', hz', hrel, hu⟩ := hf hin hfits z u hz
  have hfits' : s'.stream.current.fits rule = true := Token.fits_congr hin.kind rule ▸ hfits
  exact ⟨z', u', bind_eq_ok.2 ⟨_, _, expect_eq_ok.2 ⟨hfits', rfl, rfl⟩, hz'⟩, hrel, hu⟩

/-- What is done behind a token that can be left out. -/
theorem Sim.skips {rule : TokenRule} {f f' : Bool → Parser β} (h : x.Abreast w s s')
    (hrule : rule.NoStop)
    (htrue : x.Inside w s s' → s.stream.current.fits rule = true →
      Sim x w (f true) (f' true) rel' s.stepped s'.stepped)
    (hfalse : Sim x w (f false) (f' false) rel' s s') :
    Sim x w (skipIf rule >>= f) (skipIf rule >>= f') rel' s s' := by
  intro z u hz
  obtain ⟨found, t, ht, hrest⟩ := bind_eq_ok.1 hz
  have hfits := h.fits hrule
  cases found with
  | true =>
    obtain ⟨hs, rfl⟩ := skipIf_eq_true.1 ht
    have hin := h.inside hrule.noMark hs
    obtain ⟨z', u', hz', hrel, hu⟩ := htrue hin hs z u hrest
    have hs' := skipIf_eq_true.2 ⟨hfits ▸ hs, rfl⟩
    exact ⟨z', u', bind_eq_ok.2 ⟨true, _, hs', hz'⟩, hrel, hu⟩
  | false =>
    obtain ⟨rfl, hs⟩ := skipIf_eq_false.1 ht
    obtain ⟨z', u', hz', hrel, hu⟩ := hfalse z u hrest
    have hs' := skipIf_eq_false.2 ⟨rfl, hfits ▸ hs⟩
    exact ⟨z', u', bind_eq_ok.2 ⟨false, _, hs', hz'⟩, hrel, hu⟩

/-- What is done with the answer whether the current token is a symbol. -/
theorem Sim.symbol {f f' : Bool → Parser β} {y : Symbol} (h : x.Abreast w s s')
    (hcomma : y ≠ .comma) (hparen : y ≠ .rParen)
    (htrue : x.Inside w s s' → s.stream.current.kind = .symbol y →
      Sim x w (f true) (f' true) rel' s s')
    (hfalse : Sim x w (f false) (f' false) rel' s s') :
    Sim x w (atSymbol y >>= f) (atSymbol y >>= f') rel' s s' := by
  have hrule := TokenRule.noStop_symbol hcomma hparen
  have hfits := h.fits hrule
  show Sim x w (f (s.stream.current.isSymbol y)) (f' (s'.stream.current.isSymbol y)) rel' s s'
  have hsame : s'.stream.current.isSymbol y = s.stream.current.isSymbol y := hfits.symm
  rw [hsame]
  cases hs : s.stream.current.isSymbol y with
  | true => exact htrue (h.inside hrule.noMark hs) (Token.isSymbol_iff.1 hs)
  | false => exact hfalse

end Behind

/-! #### Repetitions -/

section Repetition

variable {step step' : α → Parser (α ⊕ β)} {y y' : α}

/-- **Repetitions** of which only some results matter. -/
theorem sim_loop_of (rel : α → α → Prop) (only : β → ParserState → Prop)
    (hround : ∀ y y' s s' z u, rel y y' → x.Abreast w s s' → step y s = .ok z u →
      (∀ r, z = .inr r → only r u) →
      ∃ z' u', step' y' s' = .ok z' u' ∧ Sum.LiftRel rel rel' z z' ∧ x.Abreast w u u')
    (hy : rel y y') (h : x.Abreast w s s') {r : β} {t : ParserState}
    (hr : repeatFrom step y s = .ok r t) (honly : only r t) :
    ∃ r' t', repeatFrom step' y' s' = .ok r' t' ∧ rel' r r' ∧ x.Abreast w t t' := by
  induction hn : s.remaining using Nat.strongRecOn generalizing y y' s s' with
  | _ n ih =>
    rcases repeatFrom_eq_ok.1 hr with hlast | ⟨z, u, hz, hlt, hrest⟩
    · have hresult (r' : β) (hr' : (.inr r : α ⊕ β) = .inr r') : only r' t :=
        Sum.inr.inj hr' ▸ honly
      obtain ⟨z', t', hz', hrel, ht⟩ := hround y y' s s' _ t hy h hlast hresult
      cases hrel with
      | inr hrel => exact ⟨_, t', repeatFrom_eq_ok.2 (.inl hz'), hrel, ht⟩
    · obtain ⟨z', u', hz', hrel, hu⟩ := hround y y' s s' _ u hy h hz nofun
      cases hrel with
      | inl hrel =>
        obtain ⟨r', t', hr', hrel', ht⟩ := ih u.remaining (hn ▸ hlt) hrel hu hrest rfl
        have hlt' := h.remaining_lt hu hlt
        exact ⟨r', t', repeatFrom_eq_ok.2 (.inr ⟨_, u', hz', hlt', hr'⟩), hrel', ht⟩

/-- **Repetitions** whose rounds are simulated. -/
theorem Sim.loop (rel : α → α → Prop) (hy : rel y y') (h : x.Abreast w s s')
    (hround : ∀ y y' s s', rel y y' → x.Abreast w s s' →
      Sim x w (step y) (step' y') (Sum.LiftRel rel rel') s s') :
    Sim x w (repeatFrom step y) (repeatFrom step' y') rel' s s' := by
  intro r t hr
  exact sim_loop_of rel (fun _ _ => True)
    (fun y y' s s' z u hrel hs hz _ => hround y y' s s' hrel hs z u hz) hy h hr trivial

/-- **Chains** of operands. -/
theorem sim_leftChain {p p' : Parser Expr} {operator? : Token → Option (Expr → Expr → Nat → Expr)}
    (h : x.Abreast w s s')
    (hp : ∀ s s', x.Abreast w s s' → Sim x w p p' x.Same s s')
    (hkind : ∀ t t' : Token, t.kind = t'.kind → operator? t = operator? t')
    (hstop : ∀ t : Token, t.Stops → operator? t = none)
    (hbuild : ∀ t build, operator? t = some build → ∀ left left' right right' line line',
      x.Same left left' → x.Same right right' → seenLine x.lines line = seenLine x.lines line' →
      x.Same (build left right line) (build left' right' line')) :
    Sim x w (leftChain p operator?) (leftChain p' operator?) x.Same s s' := by
  refine Sim.see ((hp s s' h).bind fun first first' t t' hfirst ht => ?_)
  refine Sim.loop (fun y y' => x.Same y.1 y'.1 ∧
    seenLine x.lines y.2 = seenLine x.lines y'.2) ⟨hfirst, h.line⟩ ht ?_
  rintro ⟨left, line⟩ ⟨left', line'⟩ s s' ⟨hleft, hline⟩ h
  refine Sim.see ?_
  have hsame : operator? s.stream.current = operator? s'.stream.current := by
    rcases h.inside_or with h | ⟨hs, hs'⟩
    · exact hkind _ _ h.kind
    · rw [hs, hs', hstop _ x.isMark.stops, hstop _ x.stops]
  rw [← hsame]
  cases hop : operator? s.stream.current with
  | none => exact Sim.pure h (.inr hleft)
  | some build =>
    have hin : x.Inside w s s' := by
      rcases h.inside_or with h | ⟨hs, -⟩
      · exact h
      · rw [hs, hstop _ x.isMark.stops] at hop
        nomatch hop
    refine Sim.drop ((hp _ _ hin.next).bind fun right right' t t' hright ht => ?_)
    exact Sim.see (Sim.pure ht (.inl ⟨hbuild _ build hop _ _ _ _ _ _ hleft hright hline, ht.line⟩))

end Repetition

end Parser

end LiquidTemplate
