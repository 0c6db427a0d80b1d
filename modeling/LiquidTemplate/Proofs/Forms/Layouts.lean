import Mathlib.Data.List.Induction
import LiquidTemplate.Grammar.Statement
import LiquidTemplate.Proofs.Written
import LiquidTemplate.Tree.Walk

/-!
# Layouts of expressions

The layout of an expression is what it is made of in a template: its own tokens and its
subexpressions, in the order in which they stand there. The layout says nothing of how tightly an
expression binds.

* `Piece`: a token or a subexpression.
* `Series`: pieces of several things with separators between them.
* `DottedName`, `Application`: the pieces of names with dots and of argument lists.
* `Expr.Layout`: the layouts of an expression.
* `Forms`: tokens that form some pieces.
* `Reads`, `Forms.walk`: the tokens of each subexpression.
-/

namespace LiquidTemplate

open LiquidTemplate.Grammar

variable {α : Type} {ts us vs : List Token} {e d : Expr} {l : Nat}

/-! ### Pieces -/

/-- **Piece of an expression**: a token that fits a rule, or a subexpression. -/
inductive Piece where
  | token (rule : TokenRule)
  | expr (e : Expr)

namespace Piece

/-- The piece that is a symbol. -/
def symbol (x : Symbol) : Piece :=
  token (.type (.symbol x))

/-- The piece that is a name with this text. -/
def word (text : String) : Piece :=
  token (.name text)

/-- The piece that is any name. -/
def anyName : Piece :=
  token (.type .name)

/-- The piece that is a token of this kind. -/
def ofKind : Token.Kind → Piece
  | .name text => word text
  | k => token (.type k.type)

end Piece

variable {ps qs : List Piece}

/-- **Pieces of several things**, each of which is made of `pieces`, with separators between them. -/
inductive Series (separator : Symbol) (pieces : α → List Piece) : List Piece → List α → Prop where
  | nil : Series separator pieces [] []
  | item {ps : List Piece} {xs : List α} (h : Series separator pieces ps xs) (x : α) :
      Series separator pieces (ps ++ pieces x) (xs ++ [x])
  | separator {ps : List Piece} {xs : List α} (h : Series separator pieces ps xs) :
      Series separator pieces (ps ++ [.symbol separator]) xs

theorem Series.mem {separator : Symbol} {pieces : α → List Piece} {xs : List α} {x : α}
    (h : Series separator pieces ps xs) (hx : x ∈ xs) : ∀ p ∈ pieces x, p ∈ ps := by
  induction h with
  | nil => nomatch hx
  | item _ y ih =>
    intro p hp
    rcases List.mem_append.1 hx with hx | hx
    · exact List.mem_append_left _ (ih hx p hp)
    · obtain rfl := List.mem_singleton.1 hx
      exact List.mem_append_right _ hp
  | separator _ ih => exact fun p hp => List.mem_append_left _ (ih hx p hp)

/-- The piece of one expression. -/
def Expr.piece (e : Expr) : List Piece :=
  [.expr e]

/-- The pieces of an entry of a dictionary. -/
def Entry.pieces (x : Entry Expr) : List Piece :=
  [.expr x.key, .symbol .colon, .expr x.value]

/-- The pieces of a link in a chain of comparisons. -/
def Operand.pieces (o : Operand Expr) : List Piece :=
  o.op.kinds.map .ofKind ++ [.expr o.expr]

/-- **Names with dots.** -/
inductive DottedName : List Piece → Prop where
  | one : DottedName [.anyName]
  | more {ps : List Piece} (h : DottedName ps) : DottedName (ps ++ [.symbol .dot, .anyName])

/-! ### Arguments -/

/-- **One argument** of a list. -/
inductive Argument where
  | positional (e : Expr)
  | keyword (key : String) (e : Expr)
  | spread (e : Expr)
  | spreadKeywords (e : Expr)

namespace Argument

/-- The value of an argument. -/
def value : Argument → Expr
  | positional e | keyword _ e | spread e | spreadKeywords e => e

/-- The pieces of an argument. -/
def pieces : Argument → List Piece
  | positional e => [.expr e]
  | keyword key e => [.word key, .symbol .assign, .expr e]
  | spread e => [.symbol .mul, .expr e]
  | spreadKeywords e => [.symbol .pow, .expr e]

end Argument

namespace Arguments

variable {a : Arguments Expr} {xs : List Argument}

/-- Arguments with one more. -/
def add (a : Arguments Expr) : Argument → Arguments Expr
  | .positional e => { a with positional := a.positional ++ [e] }
  | .keyword key e => { a with keywords := a.keywords ++ [⟨key, e, e.line⟩] }
  | .spread e => { a with spread := some e }
  | .spreadKeywords e => { a with spreadKeywords := some e }

/-- The arguments of a list. -/
def ofList (xs : List Argument) : Arguments Expr :=
  xs.foldl add {}

theorem ofList_concat (xs : List Argument) (x : Argument) : ofList (xs ++ [x]) = (ofList xs).add x :=
  List.foldl_append

/-- **Every value** is that of an argument of the list. -/
theorem exists_of_mem_values (he : e ∈ (ofList xs).values) : ∃ x ∈ xs, x.value = e := by
  induction xs using List.reverseRecOn with
  | nil => nomatch he
  | append_singleton xs x ih =>
    have hcases : e ∈ (ofList xs).values ∨ x.value = e := by
      rw [ofList_concat] at he
      cases x <;> simp only [add, values, List.mem_append, List.mem_map, List.map_append,
        List.map_cons, List.map_nil, List.mem_singleton, Option.toList_some, Argument.value] at he ⊢ <;>
        grind
    rcases hcases with h | h
    · obtain ⟨y, hy, rfl⟩ := ih h
      exact ⟨y, List.mem_append_left _ hy, rfl⟩
    · exact ⟨x, List.mem_append_right _ (List.mem_singleton.2 rfl), h⟩

/-- **Every key** is that of an argument of the list. -/
theorem exists_of_mem_keywords {k : Keyword Expr} (hk : k ∈ (ofList xs).keywords) :
    ∃ x ∈ xs, x = .keyword k.key k.value := by
  induction xs using List.reverseRecOn with
  | nil => nomatch hk
  | append_singleton xs x ih =>
    have hcases : k ∈ (ofList xs).keywords ∨ x = .keyword k.key k.value := by
      rw [ofList_concat] at hk
      cases x <;> simp only [add, List.mem_append, List.mem_singleton] at hk ⊢ <;> grind
    rcases hcases with h | h
    · obtain ⟨y, hy, heq⟩ := ih h
      exact ⟨y, List.mem_append_left _ hy, heq⟩
    · exact ⟨x, List.mem_append_right _ (List.mem_singleton.2 rfl), h⟩

end Arguments

/-- **Arguments with what stands around them**: parentheses, or a colon before them. One argument can
stand without. -/
inductive Application : List Piece → Arguments Expr → Prop where
  | none : Application [] {}
  | bare (e : Expr) : Application [.expr e] (.ofList [.positional e])
  | parentheses {ps : List Piece} {xs : List Argument} (h : Series .comma Argument.pieces ps xs) :
      Application (.symbol .lParen :: ps ++ [.symbol .rParen]) (.ofList xs)
  | colon {ps : List Piece} {xs : List Argument} (h : Series .comma Argument.pieces ps xs) :
      Application (.symbol .colon :: ps) (.ofList xs)

namespace Application

variable {a : Arguments Expr}

/-- The arguments of an application are those of a list. -/
theorem exists_list (h : Application ps a) :
    ∃ xs, a = .ofList xs ∧ ∀ x ∈ xs, ∀ p ∈ x.pieces, p ∈ ps := by
  cases h with
  | none => exact ⟨[], rfl, nofun⟩
  | bare e => exact ⟨[.positional e], rfl, by simp [Argument.pieces]⟩
  | parentheses h =>
    exact ⟨_, rfl, fun x hx p hp =>
      List.mem_append_left _ (List.mem_cons_of_mem _ (h.mem hx p hp))⟩
  | colon h => exact ⟨_, rfl, fun x hx p hp => List.mem_cons_of_mem _ (h.mem hx p hp)⟩

theorem values (h : Application ps a) (he : e ∈ a.values) : .expr e ∈ ps := by
  obtain ⟨xs, rfl, hxs⟩ := h.exists_list
  obtain ⟨x, hx, rfl⟩ := Arguments.exists_of_mem_values he
  refine hxs x hx _ ?_
  cases x <;> simp [Argument.pieces, Argument.value]

theorem keywords (h : Application ps a) {k : Keyword Expr} (hk : k ∈ a.keywords) :
    .word k.key ∈ ps := by
  obtain ⟨xs, rfl, hxs⟩ := h.exists_list
  obtain ⟨x, hx, rfl⟩ := Arguments.exists_of_mem_keywords hk
  exact hxs _ hx _ List.mem_cons_self

end Application

/-! ### Layouts -/

namespace Expr

/-- The pieces of a text that is joined to those before it. -/
def link (e : Expr) : List Piece :=
  [.symbol .tilde, .expr e]

/-- An optional part. -/
def optional (o : Option Expr) : List Piece :=
  o.toList.map .expr

/-- **Layouts of an expression.** The items of a tuple stand between commas or between brackets; the
tuple without items stands between parentheses. -/
inductive Layout : Expr → List Piece → Prop where
  | name (text : String) (c : Context) (l : Nat) : Layout (.name text c l) [.word text]
  | literal (v : Constant) (l : Nat) {type : TokenType} (h : type ∈ [.name, .integer, .float]) :
      Layout (.const v l) [.token (.type type)]
  | string (v : String) (l n : Nat) :
      Layout (.const (.str v) l) (List.replicate (n + 1) (.token (.type .string)))
  | nothing (c : Context) (l : Nat) : Layout (.tuple [] c l) [.symbol .lParen, .symbol .rParen]
  | tuple {ps : List Piece} {es : List Expr} (h : Series .comma piece ps es) (c : Context) (l : Nat) :
      Layout (.tuple es c l) ps
  | subscripts {ps : List Piece} {es : List Expr} (h : Series .comma piece ps es) (c : Context)
      (l : Nat) : Layout (.tuple es c l) (.symbol .lBracket :: ps ++ [.symbol .rBracket])
  | list {ps : List Piece} {es : List Expr} (h : Series .comma piece ps es) (l : Nat) :
      Layout (.list es l) (.symbol .lBracket :: ps ++ [.symbol .rBracket])
  | dict {ps : List Piece} {xs : List (Entry Expr)} (h : Series .comma Entry.pieces ps xs) (l : Nat) :
      Layout (.dict xs l) (.symbol .lBrace :: ps ++ [.symbol .rBrace])
  | member (node : Expr) (attr : String) (l : Nat) :
      Layout (.member node attr l) [.expr node, .symbol .dot, .word attr]
  | index (node index : Expr) (l : Nat) :
      Layout (.item node index l) [.expr node, .symbol .dot, .expr index]
  | item {ps : List Piece} {arg : Expr} (node : Expr) (h : Series .comma piece ps [arg]) (l : Nat) :
      Layout (.item node arg l) (.expr node :: .symbol .lBracket :: ps ++ [.symbol .rBracket])
  | items (node arg : Expr) (l : Nat) : Layout (.item node arg l) [.expr node, .expr arg]
  | slice (start stop : Option Expr) (l : Nat) :
      Layout (.slice start stop .none l) (optional start ++ .symbol .colon :: optional stop)
  | stepSlice (start stop step : Option Expr) (l : Nat) :
      Layout (.slice start stop step l)
        (optional start ++ .symbol .colon :: optional stop ++ .symbol .colon :: optional step)
  | call {ps : List Piece} {a : Arguments Expr} (node : Expr) (h : Application ps a) (l : Nat) :
      Layout (.call node a l) (.expr node :: ps)
  | filter {ps qs : List Piece} {a : Arguments Expr} (node : Expr) (text : String)
      (hname : DottedName ps) (h : Application qs a) (l : Nat) :
      Layout (.filter (some node) text a l) (.expr node :: .symbol .pipe :: ps ++ qs)
  | blockFilter {ps qs : List Piece} {a : Arguments Expr} (text : String) (hname : DottedName ps)
      (h : Application qs a) (l : Nat) : Layout (.filter .none text a l) (ps ++ qs)
  | test {ps qs : List Piece} {a : Arguments Expr} (node : Expr) (text : String)
      (hname : DottedName ps) (h : Application qs a) (l : Nat) :
      Layout (.test node text a l) (.expr node :: .word "is" :: ps ++ qs)
  | negatedTest {ps qs : List Piece} {a : Arguments Expr} (node : Expr) (text : String)
      (hname : DottedName ps) (h : Application qs a) (l : Nat) :
      Layout (.test node text a l) (.expr node :: .word "is" :: .word "not" :: ps ++ qs)
  | notTest (e : Expr) (l : Nat) : Layout (.not e l) [.expr e]
  | not (e : Expr) (l : Nat) : Layout (.not e l) [.word "not", .expr e]
  | neg (e : Expr) (l : Nat) : Layout (.neg e l) [.symbol .sub, .expr e]
  | pos (e : Expr) (l : Nat) : Layout (.pos e l) [.symbol .add, .expr e]
  | binary (op : BinaryOp) (left right : Expr) (l : Nat) :
      Layout (.binary op left right l) [.expr left, .symbol op.symbol, .expr right]
  | concat (e : Expr) (es : List Expr) (l : Nat) :
      Layout (.concat (e :: es) l) (.expr e :: es.flatMap link)
  | compare (e : Expr) (os : List (Operand Expr)) (l : Nat) :
      Layout (.compare e os l) (.expr e :: os.flatMap Operand.pieces)
  | and (left right : Expr) (l : Nat) : Layout (.and left right l) [.expr left, .word "and", .expr right]
  | or (left right : Expr) (l : Nat) : Layout (.or left right l) [.expr left, .word "or", .expr right]
  | conditional (cond yes : Expr) (l : Nat) :
      Layout (.conditional cond yes .none l) [.expr yes, .word "if", .expr cond]
  | conditionalElse (cond yes no : Expr) (l : Nat) :
      Layout (.conditional cond yes (some no) l)
        [.expr yes, .word "if", .expr cond, .word "else", .expr no]

theorem mem_optional {o : Option Expr} (h : e ∈ o.toList) : .expr e ∈ optional o :=
  List.mem_map_of_mem h

/-- **All subexpressions** are in the layout. -/
theorem Layout.children (h : e.Layout ps) (hd : d ∈ e.children) : .expr d ∈ ps := by
  cases h <;> simp only [Expr.children, List.mem_cons, List.mem_append, List.not_mem_nil, or_false,
    Option.toList_none, Option.toList_some, List.append_nil, false_or] at hd
  case tuple h => exact h.mem hd _ (List.mem_singleton.2 rfl)
  case item h _ =>
    rcases hd with rfl | rfl
    · exact List.mem_cons_self
    · have harg := h.mem (List.mem_singleton.2 rfl) _ (List.mem_singleton.2 rfl)
      exact List.mem_append_left _ (List.mem_cons_of_mem _ (List.mem_cons_of_mem _ harg))
  case concat =>
    rcases hd with rfl | hd
    · exact List.mem_cons_self
    · refine List.mem_cons_of_mem _ (List.mem_flatMap.2 ⟨d, hd, ?_⟩)
      exact List.mem_cons_of_mem _ (List.mem_singleton.2 rfl)
  case subscripts h _ _ =>
    exact List.mem_append_left _ (List.mem_cons_of_mem _ (h.mem hd _ (List.mem_singleton.2 rfl)))
  case list h _ =>
    exact List.mem_append_left _ (List.mem_cons_of_mem _ (h.mem hd _ (List.mem_singleton.2 rfl)))
  case dict h _ =>
    obtain ⟨x, hx, hd⟩ := List.mem_flatMap.1 hd
    have hpiece : .expr d ∈ x.pieces := by
      simp only [List.mem_cons, List.not_mem_nil, or_false] at hd
      rcases hd with rfl | rfl <;> simp [Entry.pieces]
    exact List.mem_append_left _ (List.mem_cons_of_mem _ (h.mem hx _ hpiece))
  case slice =>
    rcases hd with hd | hd
    · exact List.mem_append_left _ (mem_optional hd)
    · exact List.mem_append_right _ (List.mem_cons_of_mem _ (mem_optional hd))
  case stepSlice =>
    rcases hd with (hd | hd) | hd
    · exact List.mem_append_left _ (List.mem_append_left _ (mem_optional hd))
    · exact List.mem_append_left _ (List.mem_append_right _ (List.mem_cons_of_mem _ (mem_optional hd)))
    · exact List.mem_append_right _ (List.mem_cons_of_mem _ (mem_optional hd))
  case call h _ =>
    rcases hd with rfl | hd
    · exact List.mem_cons_self
    · exact List.mem_cons_of_mem _ (h.values hd)
  case filter h _ =>
    rcases hd with rfl | hd
    · exact List.mem_cons_self
    · exact List.mem_append_right _ (h.values hd)
  case blockFilter h _ => exact List.mem_append_right _ (h.values hd)
  case test h _ =>
    rcases hd with rfl | hd
    · exact List.mem_cons_self
    · exact List.mem_append_right _ (h.values hd)
  case negatedTest h _ =>
    rcases hd with rfl | hd
    · exact List.mem_cons_self
    · exact List.mem_append_right _ (h.values hd)
  case compare =>
    rcases hd with rfl | hd
    · exact List.mem_cons_self
    · obtain ⟨o, ho, rfl⟩ := List.mem_map.1 hd
      refine List.mem_cons_of_mem _ (List.mem_flatMap.2 ⟨o, ho, ?_⟩)
      exact List.mem_append_right _ (List.mem_singleton.2 rfl)
  all_goals simp [hd]
  all_goals grind

end Expr

/-! ### Tokens of pieces -/

/-- **A line of the tokens** `ts` before `us`. -/
def LineIn (ts us : List Token) (l : Nat) : Prop :=
  ∃ t rest, t :: rest <:+ ts ∧ us <:+ rest ∧ t.line = l

theorem LineIn.mono {ts' us' : List Token} (h : LineIn ts us l) (hts : ts <:+ ts') (hus : us' <:+ us) :
    LineIn ts' us' l := by
  obtain ⟨t, rest, hsuf, hrest, hl⟩ := h
  exact ⟨t, rest, hsuf.trans hts, hus.trans hrest, hl⟩

/-- **Lines of an expression** that is read of the tokens `ts` before `us`: one of theirs. The line of
a chain of comparisons is that of the token behind them. -/
inductive Expr.Lined (ts us : List Token) : Expr → Prop where
  | inside {e : Expr} (h : LineIn ts us e.line) : Lined ts us e
  | behind {e : Expr} {os : List (Operand Expr)} {t : Token} {rest : List Token} (h : us = t :: rest) :
      Lined ts us (.compare e os t.line)

/-- **The tokens** `ts` before `us` form some pieces. The tokens of a range literal stand for it, those
of its bounds among them. -/
inductive Forms : List Token → List Token → List Piece → Prop where
  | nil {ts : List Token} : Forms ts ts []
  | token {t : Token} {ts us : List Token} {rule : TokenRule} {ps : List Piece}
      (hfits : t.fits rule = true) (rest : Forms ts us ps) : Forms (t :: ts) us (.token rule :: ps)
  | expr {ts us vs : List Token} {e : Expr} {ps qs : List Piece} (hlayout : e.Layout ps)
      (hline : e.Lined ts us) (inner : Forms ts us ps) (rest : Forms us vs qs) :
      Forms ts vs (.expr e :: qs)
  | parentheses {l r : Token} {ts us vs : List Token} {e : Expr} {qs : List Piece}
      (hl : l.isSymbol .lParen = true) (hr : r.isSymbol .rParen = true)
      (inner : Forms ts (r :: us) [.expr e]) (rest : Forms us vs qs) :
      Forms (l :: ts) vs (.expr e :: qs)
  | range {t last : Token} {ts vs rest first stop : List Token} {a b : String} {e : Expr}
      {qs : List Piece} (hkind : t.kind = .range a b)
      (hfirst : Token.ofExpression a t.line t.span.lo = .ok first)
      (hstop : Token.ofExpression b t.line t.span.lo = .ok stop)
      (inner : Forms (TokenStream.close (rangeTokens t first stop)) (last :: rest) [.expr e])
      (hlast : last.isEnd = true) (rest : Forms ts vs qs) : Forms (t :: ts) vs (.expr e :: qs)

namespace Forms

theorem suffix (h : Forms ts us ps) : us <:+ ts := by
  induction h with
  | nil => exact List.suffix_refl _
  | token _ _ ih => exact ih.trans (List.suffix_cons _ _)
  | expr _ _ _ _ ih ih' => exact ih'.trans ih
  | parentheses _ _ _ _ ih ih' =>
    exact ih'.trans (((List.suffix_cons _ _).trans ih).trans (List.suffix_cons _ _))
  | range _ _ _ _ _ _ _ ih => exact ih.trans (List.suffix_cons _ _)

/-- **Pieces one after the other.** -/
theorem append (h : Forms ts us ps) (h' : Forms us vs qs) : Forms ts vs (ps ++ qs) := by
  induction h with
  | nil => exact h'
  | token hfits _ ih => exact .token hfits (ih h')
  | expr hlayout hline inner _ _ ih => exact .expr hlayout hline inner (ih h')
  | parentheses hl hr inner _ _ ih => exact .parentheses hl hr inner (ih h')
  | range hkind hfirst hstop inner hlast _ _ ih => exact .range hkind hfirst hstop inner hlast (ih h')

/-- Every rule is that of a token. -/
theorem exists_fits {rule : TokenRule} (h : Forms ts us ps) (hrule : .token rule ∈ ps) :
    ∃ t ∈ ts, t.fits rule = true := by
  induction h with
  | nil => nomatch hrule
  | token hfits _ ih =>
    rcases List.mem_cons.1 hrule with heq | hrule
    · cases heq
      exact ⟨_, List.mem_cons_self, hfits⟩
    · obtain ⟨t, ht, hfits⟩ := ih hrule
      exact ⟨t, List.mem_cons_of_mem _ ht, hfits⟩
  | expr _ _ inner _ _ ih =>
    obtain ⟨t, ht, hfits⟩ := ih ((List.mem_cons.1 hrule).resolve_left nofun)
    exact ⟨t, inner.suffix.subset ht, hfits⟩
  | parentheses _ _ inner _ _ ih =>
    obtain ⟨t, ht, hfits⟩ := ih ((List.mem_cons.1 hrule).resolve_left nofun)
    exact ⟨t, List.mem_cons_of_mem _ (inner.suffix.subset (List.mem_cons_of_mem _ ht)), hfits⟩
  | range _ _ _ _ _ _ _ ih =>
    obtain ⟨t, ht, hfits⟩ := ih ((List.mem_cons.1 hrule).resolve_left nofun)
    exact ⟨t, List.mem_cons_of_mem _ ht, hfits⟩

end Forms

/-- **The lists of tokens** that are read for a template: its own one, and those that range literals
in one of them stand for. -/
inductive Token.Source (tokens : List Token) : List Token → Prop where
  | template : Source tokens tokens
  | range {ts first stop : List Token} {t : Token} {a b : String} (h : Source tokens ts) (ht : t ∈ ts)
      (hkind : t.kind = .range a b) (hfirst : Token.ofExpression a t.line t.span.lo = .ok first)
      (hstop : Token.ofExpression b t.line t.span.lo = .ok stop) :
      Source tokens (TokenStream.close (rangeTokens t first stop))

/-- **The tokens of one expression**: those of `ts` before `us` form it by one of its layouts. -/
structure Expr.Reads (e : Expr) (ts us : List Token) : Prop where
  lined : e.Lined ts us
  layout : ∃ ps, e.Layout ps ∧ Forms ts us ps

/-- **An expression is read somewhere** in the tokens of a template. -/
def Expr.ReadIn (tokens : List Token) (e : Expr) : Prop :=
  ∃ source ts us, Token.Source tokens source ∧ ts <:+ source ∧ us <:+ ts ∧ e.Reads ts us

/-- **Every subexpression** of what tokens form is read of some of them. -/
theorem Forms.walk {tokens source : List Token} (h : Forms ts us ps)
    (hsource : Token.Source tokens source) (hts : ts <:+ source) (he : .expr e ∈ ps) :
    ∀ d ∈ e.walk, d.ReadIn tokens := by
  induction h generalizing e source with
  | nil => nomatch he
  | token _ _ ih =>
    exact ih hsource ((List.suffix_cons _ _).trans hts) ((List.mem_cons.1 he).resolve_left nofun)
  | @expr ts us vs e' ps qs hlayout hline inner _ ih ih' =>
    rcases List.mem_cons.1 he with heq | he
    · cases heq
      intro d hd
      rw [Expr.walk_eq] at hd
      rcases List.mem_cons.1 hd with rfl | hd
      · exact ⟨source, ts, us, hsource, hts, inner.suffix, hline, ps, hlayout, inner⟩
      · obtain ⟨c, hc, hd⟩ := List.mem_flatMap.1 hd
        exact ih hsource hts (hlayout.children hc) d hd
    · exact ih' hsource (inner.suffix.trans hts) he
  | parentheses _ _ inner _ ih ih' =>
    have hinner := (List.suffix_cons _ _).trans hts
    rcases List.mem_cons.1 he with heq | he
    · cases heq
      exact ih hsource hinner List.mem_cons_self
    · exact ih' hsource (((List.suffix_cons _ _).trans inner.suffix).trans hinner) he
  | range hkind hfirst hstop _ _ _ ih ih' =>
    rcases List.mem_cons.1 he with heq | he
    · cases heq
      have ht := hts.subset List.mem_cons_self
      exact ih (.range hsource ht hkind hfirst hstop) (List.suffix_refl _) List.mem_cons_self
    · exact ih' hsource ((List.suffix_cons _ _).trans hts) he

/-! ### Changes of use -/

/-- A piece whose expression is used differently. -/
def Piece.setContext (c : Context) : Piece → Piece
  | token rule => token rule
  | expr e => expr (e.setContext c)

theorem Series.setContext {separator : Symbol} {es : List Expr}
    (h : Series separator Expr.piece ps es) (c : Context) :
    Series separator Expr.piece (ps.map (Piece.setContext c)) (es.map (Expr.setContext c)) := by
  induction h with
  | nil => exact .nil
  | item _ e ih =>
    rw [List.map_append, List.map_append]
    exact .item ih (e.setContext c)
  | separator _ ih =>
    rw [List.map_append]
    exact .separator ih

/-- **Another use** of an expression changes its layout only where it changes those of its items. -/
theorem Expr.Layout.setContext (h : e.Layout ps) (c : Context) :
    (e.setContext c).Layout ps ∨ (e.setContext c).Layout (ps.map (Piece.setContext c)) := by
  cases h with
  | name text _ l => exact .inl (.name text c l)
  | nothing _ l => exact .inl (.nothing c l)
  | @tuple _ es h _ l =>
    rw [Expr.setContext, Expr.setContexts_eq_map]
    exact .inr (.tuple (h.setContext c) c l)
  | @subscripts _ es h _ l =>
    rw [Expr.setContext, Expr.setContexts_eq_map, List.map_append, List.map_cons]
    exact .inr (.subscripts (h.setContext c) c l)
  | literal v l h => exact .inl (.literal v l h)
  | string v l n => exact .inl (.string v l n)
  | list h l => exact .inl (.list h l)
  | dict h l => exact .inl (.dict h l)
  | member node attr l => exact .inl (.member node attr l)
  | index node index l => exact .inl (.index node index l)
  | item node h l => exact .inl (.item node h l)
  | items node arg l => exact .inl (.items node arg l)
  | slice start stop l => exact .inl (.slice start stop l)
  | stepSlice start stop step l => exact .inl (.stepSlice start stop step l)
  | call node h l => exact .inl (.call node h l)
  | filter node text hname h l => exact .inl (.filter node text hname h l)
  | blockFilter text hname h l => exact .inl (.blockFilter text hname h l)
  | test node text hname h l => exact .inl (.test node text hname h l)
  | negatedTest node text hname h l => exact .inl (.negatedTest node text hname h l)
  | notTest e l => exact .inl (.notTest e l)
  | not e l => exact .inl (.not e l)
  | neg e l => exact .inl (.neg e l)
  | pos e l => exact .inl (.pos e l)
  | binary op left right l => exact .inl (.binary op left right l)
  | concat e es l => exact .inl (.concat e es l)
  | compare e os l => exact .inl (.compare e os l)
  | and left right l => exact .inl (.and left right l)
  | or left right l => exact .inl (.or left right l)
  | conditional cond yes l => exact .inl (.conditional cond yes l)
  | conditionalElse cond yes no l => exact .inl (.conditionalElse cond yes no l)

theorem Expr.line_setContext (e : Expr) (c : Context) : (e.setContext c).line = e.line := by
  cases e <;> rfl

theorem Expr.Lined.setContext (h : e.Lined ts us) (c : Context) : (e.setContext c).Lined ts us := by
  cases h with
  | inside h => exact .inside ((e.line_setContext c).symm ▸ h)
  | behind h => exact .behind h

/-- **The same tokens** form expressions that are used differently. -/
theorem Forms.setContext (h : Forms ts us ps) (c : Context) :
    Forms ts us (ps.map (Piece.setContext c)) := by
  induction h with
  | nil => exact .nil
  | token hfits _ ih => exact .token hfits ih
  | expr hlayout hline inner _ ih ih' =>
    rcases hlayout.setContext c with hsame | hnew
    · exact .expr hsame (hline.setContext c) inner ih'
    · exact .expr hnew (hline.setContext c) ih ih'
  | parentheses hl hr _ _ ih ih' => exact .parentheses hl hr ih ih'
  | range hkind hfirst hstop _ hlast _ ih ih' => exact .range hkind hfirst hstop ih hlast ih'

end LiquidTemplate
